import SiliconOmni.Chat.EventSteps

/-! Everything a call of the conductor can do: each way it may end well, and the files it may leave
behind when it halts. -/
namespace SiliconOmni
open Lib

/-- The desk and the runner attached to it. -/
def Chat.place (c : Chat) : Desk × Option Handle := (c.desk, c.runner)

theorem Chat.place_blind : Blind Chat.place := by constructor <;> intros <;> rfl

/-- `t` comes quietly after `s`, with the same desk and the same runner. -/
structure Still (s t : Conf) : Prop where
  place : t.chat.place = s.chat.place
  quiet : Quiet s t

namespace Still
variable {s t u : Conf}

theorem refl (s : Conf) : Still s s := ⟨rfl, Quiet.refl s⟩

theorem trans (h : Still s t) (h' : Still t u) : Still s u :=
  ⟨h'.place.trans h.place, h.quiet.trans h'.quiet⟩

theorem desk (h : Still s t) : t.chat.desk = s.chat.desk := congrArg Prod.fst h.place

theorem runner (h : Still s t) : t.chat.runner = s.chat.runner := congrArg Prod.snd h.place

end Still

/-- `t` is `s` changed by `d`, with nothing but quiet steps around it. -/
structure Gave (s t : Conf) (d : Delta) : Prop where
  desk : t.chat.desk = d.desk
  runner : t.chat.runner = d.rest.runner
  pending : t.chat.meta_.data.pending = d.data.pending
  top : t.chat.meta_.data.top = d.data.top
  log : ∃ es, t.chat.store.events = s.chat.store.events ++ d.events ++ es ∧
    Follows s.chat.sessionId (s.chat.store.events ++ d.events) es ∧
      ∀ e ∈ es, e.eventType.isBookkeeping
  trace : ∃ os, t.trace = os ++ (d.obs ++ s.trace) ∧ ∀ o ∈ os, o.isQuiet
  ids : t.ids = s.ids + d.drawn
  built : s.built ≤ t.built
  session : t.chat.sessionId = s.chat.sessionId

theorem Took.gave {s t : Conf} {d : Delta} (h : Took s t d)
    (session : d.rest.sessionId = s.chat.sessionId) : Gave s t d where
  desk := h.desk
  runner := h.runner
  pending := congrArg MetaData.pending h.data
  top := congrArg MetaData.top h.data
  log := ⟨[], by rw [List.append_nil, h.log], trivial, by simp⟩
  trace := ⟨[], h.trace, by simp⟩
  ids := h.ids
  built := h.built.ge
  session := h.session.trans session

/-- A change of the desk alone, made quietly, joins the change before it. -/
theorem Gave.turned {s t u : Conf} {d : Delta} (h : Gave s t d) (f : Desk → Desk)
    (desk : u.chat.desk = f t.chat.desk) (runner : u.chat.runner = t.chat.runner)
    (quiet : Quiet t u) : Gave s u { d with desk := f d.desk } where
  desk := desk.trans (congrArg f h.desk)
  runner := runner.trans h.runner
  pending := quiet.pending.trans h.pending
  top := quiet.top.trans h.top
  log := by
    obtain ⟨es, he, hfe, hes⟩ := h.log
    obtain ⟨fs, hf, hff, hfs⟩ := quiet.log
    rw [h.session, he] at hff
    refine ⟨es ++ fs, by rw [hf, he, List.append_assoc], follows_append.mpr ⟨hfe, hff⟩, ?_⟩
    intro e hm
    exact (List.mem_append.mp hm).elim (hes e) (hfs e)
  trace := by
    obtain ⟨os, ho, hos⟩ := h.trace
    obtain ⟨ps, hp, hps⟩ := quiet.trace
    refine ⟨ps ++ os, by rw [hp, ho, List.append_assoc], ?_⟩
    intro o hm
    exact (List.mem_append.mp hm).elim (hps o) (hos o)
  ids := quiet.ids.trans h.ids
  built := h.built.trans quiet.built
  session := quiet.session.trans h.session

theorem Gave.then_ {s t u : Conf} {d : Delta} (h : Gave s t d) (h' : Still t u) : Gave s u d :=
  h.turned id h'.desk h'.runner h'.quiet

/-- The conductor ended after `s` with `disk`, but for bookkeeping in the log. -/
structure Ends (s t : Conf) (disk : Disk) : Prop where
  log : ∃ es, t.chat.store.events = disk.log ++ es ∧
    Follows s.chat.sessionId disk.log es ∧ ∀ e ∈ es, e.eventType.isBookkeeping
  pending : t.chat.meta_.data.pending = disk.data.pending
  top : t.chat.meta_.data.top = disk.data.top
  later : Later s t

theorem Leaves.ends {s t : Conf} {disk : Disk} (h : Leaves s t disk) : Ends s t disk where
  log := ⟨[], by rw [List.append_nil]; exact congrArg Disk.log h.disk, trivial, by simp⟩
  pending := congrArg (·.data.pending) h.disk
  top := congrArg (·.data.top) h.disk
  later := h.later

theorem Leaves.quietly {s t u : Conf} {disk : Disk} (h : Leaves s t disk) (h' : Quiet t u) :
    Ends s u disk where
  log := by
    obtain ⟨es, he, hes⟩ := h'.log
    rw [h.later.session] at hes
    have hd : t.chat.store.events = disk.log := congrArg Disk.log h.disk
    rw [hd] at he hes
    exact ⟨es, he, hes⟩
  pending := h'.pending.trans (congrArg (·.data.pending) h.disk)
  top := h'.top.trans (congrArg (·.data.top) h.disk)
  later := h.later.trans h'.later

theorem Took.leaves {s t : Conf} {d : Delta} (h : Took s t d) (plain : ∀ o ∈ d.obs, o.isPlain)
    (session : d.rest.sessionId = s.chat.sessionId) :
    Leaves s t { log := s.chat.store.events ++ d.events, data := d.data } where
  disk := by
    unfold Chat.disk
    rw [h.log, h.data]
  later := ⟨by rw [h.ids]; exact Nat.le_add_right _ _, h.built.ge, h.session.trans session,
    d.obs, h.trace, plain⟩

theorem Quiet.ends {s t : Conf} (h : Quiet s t) : Ends s t s.chat.disk where
  log := h.log
  pending := h.pending
  top := h.top
  later := h.later

/-- The calls that may end quietly with nothing more to do. -/
def Call.mayPause : Call → Bool
  | .launchOnce | .flush | .deliver | .attempt _ _ | .replace _ _ _ | .absorb _ _
  | .resumeRecovery | .settleIdle | .apply _ | .publish => true
  | _ => false

/-- The calls a quiet call may leave to be made. -/
inductive Leads (s : Conf) : Call → List Call → Prop where
  | pause {call : Call} (h : call.mayPause) : Leads s call []
  | resume (active : s.chat.recovery.isSome) : Leads s .launchOnce [.resumeRecovery]
  | launch : Leads s .launchOnce [.flush]
  | start (idle : s.chat.recovery = none) : Leads s .launchOnce [.attempt "starting up" [.flush]]
  | flush : Leads s .dispatchQueued [.flush]
  | bring (why : String) : Leads s .dispatchQueued [.attempt why [.flush]]
  | deliver : Leads s .flush [.deliver]
  | proceed {why : String} {next : List Call} : Leads s (.attempt why next) next
  | again {why : String} {next : List Call} : Leads s (.attempt why next) [.attempt why next]
  | replace {why : String} {next : List Call} (rung : Pick) :
      Leads s (.attempt why next) [.replace rung why next]
  | apply {change : Change} {rest : List Change} : Leads s (.apply (change :: rest)) [.apply rest]
  | handoff (text : String) : Leads s .startHandoff [.recoveryMessage .handoff text true]
  | rotate : Leads s .resumeRecovery [.startHandoff]
  | retry : Leads s .resumeRecovery [.attempt "resuming context recovery" [.flush]]
  | refuse (runner : Handle) (message : PendingMessage) (rest : List PendingMessage) (why : String)
      (delivering : s.Delivering runner message rest) : Leads s .deliver [.refused why]
  | full {why : String} (idle : s.chat.recovery = none) (between : s.chat.inTurn = false) :
      Leads s (.refused why) [.recoverContext false]
  | abandon {why : String} (active : s.chat.recovery.isSome) :
      Leads s (.refused why) [.recoveryFailed why]
  | lostLogin {why : String} (idle : s.chat.recovery = none) (provider : String) :
      Leads s (.refused why) [.unauthenticated provider]
  | fail {why : String} (idle : s.chat.recovery = none) (provider kind : String) :
      Leads s (.refused why) [.failed provider kind]

/-- Nothing open any more, on the word of an END that recovery waited for. -/
def Desk.cleared (d : Desk) : Desk := { d.ended with unanswered := [], turnFailed := none }

/-- How recovery goes on from an END without a change to the session's files. -/
inductive Proceeds (c : Chat) (recovery : Recovery) : List Call → Prop where
  | compactionFailed (stage : recovery.stage = .compacting) : Proceeds c recovery [.startHandoff]
  | repeatTurn (stage : recovery.stage = .compacting) (texts : recovery.retry ≠ "") :
      Proceeds c recovery [.recoveryMessage .retrying recovery.retry false]
  | stillFull (stage : recovery.stage = .retrying) (full : c.turnFailed = some .contextLimit) :
      Proceeds c recovery [.startHandoff]
  | giveUp (why : String) (stage : recovery.stage ≠ .compacting) :
      Proceeds c recovery [.recoveryFailed why]
  | continue_ (stage : recovery.stage = .handoff) :
      Proceeds c recovery
        [.recoveryMessage .continuing c.contextRecovery.newSessionMessage true]

/-- How recovery goes on from an END with the next state saved. -/
inductive Advances (c : Chat) (recovery : Recovery) : Option Recovery → List Call → Prop where
  | retryQueued (stage : recovery.stage = .compacting) (texts : recovery.retry = "")
      (message : PendingMessage) (rest : List PendingMessage) (outbox : c.outbox = message :: rest) :
      Advances c recovery (some { stage := .retrying, messageId := message.id, retry := "" })
        [.dispatchQueued]
  | compacted (stage : recovery.stage = .compacting) (texts : recovery.retry = "")
      (outbox : c.outbox = []) : Advances c recovery none [.finishTurn]
  | resumeQueued (stage : recovery.stage = .continuing ∨ recovery.stage = .resuming)
      (message : PendingMessage) (rest : List PendingMessage) (outbox : c.outbox = message :: rest) :
      Advances c recovery (some { recovery with stage := .resuming, messageId := message.id })
        [.dispatchQueued]
  | complete {calls : List Call} (stage : recovery.stage ≠ .compacting)
      (other : recovery.stage ≠ .handoff)
      (outbox : recovery.stage = .retrying ∨ c.outbox = [])
      (calls_eq : calls = [.finishTurn] ∨
        calls = [.attempt "resuming recovered session" [.finishTurn]]) :
      Advances c recovery none calls

/-- The desk changed, and `events` logged. -/
def Conf.turned (s : Conf) (desk : Desk) (events : List Event) (obs : List Obs) : Delta where
  desk := desk
  data := s.chat.meta_.data
  rest := s.chat.offDesk
  events := events
  obs := obs

@[simp] theorem Conf.turned_obs (s : Conf) (desk : Desk) (events : List Event) (obs : List Obs) :
    (s.turned desk events obs).obs = obs := rfl

theorem Gave.of_still {s t : Conf} (h : Still s t) : Gave s t (s.turned s.chat.desk [] []) :=
  Gave.then_ ⟨rfl, rfl, rfl, rfl, ⟨[], by simp [Conf.turned], trivial, by simp⟩,
    ⟨[], rfl, by simp⟩, rfl, le_rfl, rfl⟩ h

section
variable [Host]

/-- The synthetic END of a stop. -/
def Chat.stopEnd (c : Chat) : Event :=
  c.logged ((((Event.new .end_).from_ ((c.current.map (·.provider)).getD "")).about
    ((c.current.map (·.model)).getD "") |>.with_ "interrupted" (.bool true)).with_ "stopped"
      (.bool true))

/-- What `stopped` does with the desk and the turn left on it. -/
def Conf.stopping (s : Conf) : Delta where
  desk := { s.chat.desk with
    inTurn := false
    turnRecorded := false
    nextTurns := 0
    outbox := s.chat.awaiting ++ s.chat.outbox
    awaiting := [] }
  data := s.chat.meta_.data
  rest := { s.chat.offDesk with runnerEpoch := none }
  events := if s.chat.inTurn ∧ s.chat.turnRecorded then [s.chat.stopEnd] else []
  obs := if s.chat.inTurn ∧ s.chat.turnRecorded then [.closed s.chat.stopEnd.seq] else []

/-- Every way a call can end well. -/
inductive Ran (s : Conf) : Call → List Call → Conf → Prop where
  | moved {call : Call} {calls : List Call} {t : Conf} (leads : Leads s call calls)
      (still : Still s t) : Ran s call calls t
  | replaced {rung : Pick} {why : String} {next calls : List Call} {t : Conf}
      (calls_eq : calls = next ∨ calls = [] ∨ calls = [.attempt why next])
      (desk : t.chat.desk = s.chat.desk) (quiet : Quiet s t) :
      Ran s (.replace rung why next) calls t
  | enqueued {text : String} {t : Conf}
      (gave : Gave s t (s.enqueued { id := Host.uuid s.ids, text })) : Ran s (.enqueue text) [] t
  | written {runner : Handle} {message : PendingMessage} {rest : List PendingMessage} {t : Conf}
      (delivering : s.Delivering runner message rest)
      (gave : Gave s t (s.written runner message rest)) : Ran s .deliver [.deliver] t
  | delivered {runner : Handle} {message : PendingMessage} {rest : List PendingMessage}
      {delivery : Delivery} {t : Conf} (delivering : s.Delivering runner message rest)
      (taken : delivery ≠ .echoed) (gave : Gave s t (s.delivered runner message rest delivery)) :
      Ran s .deliver [.deliver] t
  | refusedFull {why : String} {t : Conf} (active : s.chat.recovery.isSome)
      (gave : Gave s t
        (s.turned { s.chat.desk with turnFailed := some .contextLimit } [] [])) :
      Ran s (.refused why) [.recoveryEnded (Event.new .end_)] t
  | refusedMidTurn {why : String} {t : Conf} (idle : s.chat.recovery = none)
      (open_ : s.chat.inTurn)
      (gave : Gave s t
        (s.turned { s.chat.desk with turnFailed := some .contextLimit } [] [])) :
      Ran s (.refused why) [] t
  | late {epoch : ℕ} {report : Report} {e : Event} {t : Conf}
      (event : e = s.chat.logged (s.chat.takenIn epoch report true))
      (other : report.type ≠ .confirmed) (gave : Gave s t (s.turned s.chat.desk [e] [])) :
      Ran s (.absorb epoch report) [] t
  | reacted {epoch : ℕ} {report : Report} {e : Event} {calls : List Call} {desk : Desk}
      {obs : List Obs} {t : Conf}
      (event : e = s.chat.logged (s.chat.takenIn epoch report false))
      (attached : s.chat.runnerEpoch = some epoch) (other : report.type ≠ .confirmed)
      (reacted : Reacted s.chat.desk s.chat.autoremove e calls desk obs)
      (gave : Gave s t
        (s.turned desk [e] (obs ++ s.chat.runner.toList.map (.shared · e.seq)))) :
      Ran s (.absorb epoch report) calls t
  | confirmed {epoch : ℕ} {report : Report} {message : PendingMessage}
      {rest : List PendingMessage} {opening : EventType} {t : Conf}
      (attached : s.chat.runnerEpoch = some epoch)
      (confirming : s.Confirming (s.chat.takenIn epoch report false) message rest opening)
      (gave : Gave s t (s.confirmed message rest (s.chat.takenIn epoch report false) opening)) :
      Ran s (.absorb epoch report) [] t
  | closed {call : Call} {calls : List Call} {provider why : String} {extra : Fields}
      {retry : Bool} {t : Conf} (call_eq : (∃ p k, call = .failed p k) ∨ ∃ p, call = .unauthenticated p)
      (calls_eq : calls = [] ∨ calls = [.attempt why [.flush]])
      (gave : Gave s t (s.closed provider extra retry)) (plain : extra.lookup "late" = none) :
      Ran s call calls t
  | compacting {delivered : Bool} {recovery : Recovery} {t : Conf}
      (stage : recovery.stage = .compacting) (took : s.chat.runner.isSome)
      (gave : Gave s t { s.saved (some recovery) none none with
        desk := { (s.saved (some recovery) none none).desk with
          turnFailed := none, compactionDeadline := true, inTurn := true } }) :
      Ran s (.recoverContext delivered) [] t
  | notCompacting {delivered : Bool} {recovery : Recovery} {t : Conf}
      (stage : recovery.stage = .compacting)
      (gave : Gave s t { s.saved (some recovery) none none with
        desk := { (s.saved (some recovery) none none).desk with turnFailed := none } }) :
      Ran s (.recoverContext delivered) [.startHandoff] t
  | queued {stage : RecoveryStage} {text : String} {t : Conf}
      (gave : Gave s t (s.queuedRecovery stage text false)) :
      Ran s (.recoveryMessage stage text false) [.dispatchQueued] t
  | queuedFresh {stage : RecoveryStage} {text provider : String} {extra : Fields} {u t : Conf}
      (closed : Gave s u (s.closed provider extra false))
      (gave : Gave u t (u.queuedRecovery stage text true)) (plain : extra.lookup "late" = none) :
      Ran s (.recoveryMessage stage text true) [.dispatchQueued] t
  | gaveUp {why provider : String} {extra : Fields} {u t : Conf}
      (closed : Gave s u (s.closed provider extra false))
      (gave : Gave u t (u.saved none none none)) (plain : extra.lookup "late" = none) :
      Ran s (.recoveryFailed why) [] t
  | nothingToEnd {end_ : Event} {t : Conf} (idle : s.chat.recovery = none)
      (gave : Gave s t (s.turned s.chat.desk.cleared [] [])) : Ran s (.recoveryEnded end_) [] t
  | proceeded {end_ : Event} {recovery : Recovery} {calls : List Call} {t : Conf}
      (active : s.chat.recovery = some recovery) (proceeds : Proceeds s.chat recovery calls)
      (gave : Gave s t (s.turned s.chat.desk.cleared [] [])) :
      Ran s (.recoveryEnded end_) calls t
  | advanced {end_ : Event} {recovery : Recovery} {next : Option Recovery} {calls : List Call}
      {t : Conf} (active : s.chat.recovery = some recovery)
      (advances : Advances s.chat recovery next calls)
      (gave : Gave s t { s.saved next none none with
        desk := (s.saved next none none).desk.cleared }) :
      Ran s (.recoveryEnded end_) calls t
  | refolded {failure : Option ErrorKind} {end_ : Event} {recovery : Recovery} {t : Conf}
      (active : s.chat.recovery = some recovery) (stage : recovery.stage ≠ .compacting)
      (gone : ∀ message ∈ s.chat.outbox, message.id ≠ recovery.messageId)
      (gave : Gave s t (s.turned { s.chat.desk with turnFailed := failure } [] [])) :
      Ran s .resumeRecovery [.recoveryEnded end_] t
  | nextTurn {t : Conf} (later : 0 < s.chat.nextTurns)
      (gave : Gave s t (s.turned { s.chat.desk with
        unanswered := s.chat.unanswered.tail
        nextTurns := s.chat.nextTurns - 1
        inTurn := true
        turnRecorded := true } [] [])) : Ran s .finishTurn [] t
  | awaited {t : Conf} (last : s.chat.nextTurns = 0) (awaiting : s.chat.awaiting ≠ [])
      (gave : Gave s t (s.turned { s.chat.desk with
        unanswered := s.chat.unanswered.tail, inTurn := true } [] [])) : Ran s .finishTurn [] t
  | finished {calls : List Call} {t : Conf} (last : s.chat.nextTurns = 0)
      (awaiting : s.chat.awaiting = [])
      (calls_eq : calls = [.flush, .settleIdle] ∨
        calls = [.attempt "settings changed" [.flush, .settleIdle]])
      (gave : Gave s t (s.turned { s.chat.desk with unanswered := s.chat.unanswered.tail } [] [])) :
      Ran s .finishTurn calls t
  | shutting {t : Conf}
      (gave : Gave s t { s.turned { s.chat.desk with stopping := true } [] [] with
        rest := { s.chat.offDesk with runner := none } }) : Ran s .shutdown [] t
  | stopped {t : Conf} (status : t.chat.state.status = .stopped) (gave : Gave s t s.stopping) :
      Ran s .stopped [] t

/-- The calls that give a provider up, and deliver again what it left unfinished. -/
def Call.givesUp : Call → Bool
  | .failed .. | .unauthenticated _ => true
  | _ => false

/-- Every way a call can leave the session's files when it halts. -/
inductive Died (s : Conf) : Call → Conf → Prop where
  | quietly {call : Call} {t : Conf} (ends : Ends s t s.chat.disk) : Died s call t
  | enqueued {text : String} {t : Conf}
      (ends : Ends (s.drawn 1) t
        (s.chat.disk.edit (·.enqueue { id := Host.uuid s.ids, text }))) :
      Died s (.enqueue text) t
  | opened {runner : Handle} {message : PendingMessage} {rest : List PendingMessage}
      {delivery : Delivery} {t : Conf} (delivering : s.Delivering runner message rest)
      (ends : Ends s t (s.chat.disk.append (s.chat.logged (s.chat.opening message delivery)))) :
      Died s .deliver t
  | delivered {runner : Handle} {message : PendingMessage} {rest : List PendingMessage}
      {delivery : Delivery} {t : Conf} (delivering : s.Delivering runner message rest)
      (ends : Ends s t ((s.chat.disk.append
        (s.chat.logged (s.chat.opening message delivery))).edit (·.complete message.id))) :
      Died s .deliver t
  | heard {epoch : ℕ} {report : Report} {late : Bool} {t : Conf} (other : report.type ≠ .confirmed)
      (ends : Ends s t (s.chat.disk.append (s.chat.logged (s.chat.takenIn epoch report late)))) :
      Died s (.absorb epoch report) t
  | confirming {epoch : ℕ} {report : Report} {message : PendingMessage}
      {rest : List PendingMessage} {opening : EventType} {t : Conf}
      (confirming : s.Confirming (s.chat.takenIn epoch report false) message rest opening)
      (ends : Ends s t (s.chat.disk.append (s.chat.logged
        (s.chat.confirmation (s.chat.takenIn epoch report false) message opening))))
      (attached : s.chat.runnerEpoch = some epoch) : Died s (.absorb epoch report) t
  | confirmed {epoch : ℕ} {report : Report} {message : PendingMessage}
      {rest : List PendingMessage} {opening : EventType} {t : Conf}
      (confirming : s.Confirming (s.chat.takenIn epoch report false) message rest opening)
      (ends : Ends s t ((s.chat.disk.append (s.chat.logged (s.chat.confirmation
        (s.chat.takenIn epoch report false) message opening))).edit (·.complete message.id)))
      (attached : s.chat.runnerEpoch = some epoch) : Died s (.absorb epoch report) t
  | retried {call : Call} {retry : Bool} {t : Conf} (told : retry = true → call.givesUp)
      (ends : Ends (s.drawn (s.retries retry).length) t
        (s.chat.disk.edit (·.retry (s.retries retry)))) : Died s call t
  | closing {call : Call} {provider : String} {extra : Fields} {retry : Bool} {t : Conf}
      (told : retry = true → call.givesUp) (recorded : s.chat.turnRecorded)
      (ends : Ends (s.drawn (s.retries retry).length) t
        ((s.chat.disk.edit (·.retry (s.retries retry))).append
          (s.chat.closing provider extra))) : Died s call t
  | closed {call : Call} {provider : String} {extra : Fields} {retry : Bool} {u t : Conf}
      (told : retry = true → call.givesUp)
      (gave : Gave s u (s.closed provider extra retry)) (ends : Ends u t u.chat.disk) :
      Died s call t
  | saved {delivered : Bool} {recovery : Recovery} {t : Conf}
      (stage : recovery.stage = .compacting)
      (ends : Ends s t
        { s.chat.disk with data := (s.saved (some recovery) none none).data }) :
      Died s (.recoverContext delivered) t
  | advanced {end_ : Event} {recovery : Recovery} {next : Option Recovery} {calls : List Call}
      {t : Conf} (active : s.chat.recovery = some recovery)
      (advances : Advances s.chat recovery next calls)
      (ends : Ends s t { s.chat.disk with data := (s.saved next none none).data }) :
      Died s (.recoveryEnded end_) t
  | drawing {stage : RecoveryStage} {text : String} {t : Conf}
      (ends : Ends (s.synthesizing text) t s.chat.disk) :
      Died s (.recoveryMessage stage text false) t
  | queued {stage : RecoveryStage} {text : String} {t : Conf}
      (ends : Ends (s.synthesizing text) t
        { s.chat.disk with data := (s.queuedRecovery stage text false).data }) :
      Died s (.recoveryMessage stage text false) t
  | drawingFresh {stage : RecoveryStage} {text provider : String} {extra : Fields} {u t : Conf}
      (closed : Gave s u (s.closed provider extra false))
      (ends : Ends (u.synthesizing text) t u.chat.disk) :
      Died s (.recoveryMessage stage text true) t
  | queuedFresh {stage : RecoveryStage} {text provider : String} {extra : Fields} {u t : Conf}
      (closed : Gave s u (s.closed provider extra false))
      (ends : Ends (u.synthesizing text) t
        { u.chat.disk with data := (u.queuedRecovery stage text true).data }) :
      Died s (.recoveryMessage stage text true) t
  | gaveUp {why provider : String} {extra : Fields} {u t : Conf}
      (closed : Gave s u (s.closed provider extra false))
      (ends : Ends u t { u.chat.disk with data := (u.saved none none none).data }) :
      Died s (.recoveryFailed why) t
  | stopped {t : Conf} (recorded : s.chat.turnRecorded)
      (ends : Ends s t (s.chat.disk.append s.chat.stopEnd)) : Died s .stopped t
  | stoppedClosed {u t : Conf} (gave : Gave s u s.stopping) (ends : Ends u t u.chat.disk) :
      Died s .stopped t

end
end SiliconOmni
