import SiliconOmni.Chat.QuietRunners

/-! What the steps that move messages and turns make of the conductor's state. -/
namespace SiliconOmni
open Lib

/-- The chat less its files, its queues and its turn. -/
def Chat.offDesk (c : Chat) : Chat :=
  { c with
    store := {}, meta_ := {}, state := default, unpublished := [], epochTurns := fun _ => none
    outbox := [], awaiting := [], unanswered := [], nextTurns := 0, turn := 0
    turnRecorded := false, inTurn := false, turnFailed := none, recovery := none
    historyStart := 0, compactionDeadline := false, stopping := false }

/-- All that a step changes: the desk, the metadata and the rest of the chat as it leaves them,
and what it adds to the log, to the trace and to the ids drawn. -/
structure Delta where
  desk : Desk
  data : MetaData
  rest : Chat
  events : List Event := []
  obs : List Obs := []
  drawn : ℕ := 0

structure Took (s t : Conf) (d : Delta) : Prop where
  desk : t.chat.desk = d.desk
  data : t.chat.meta_.data = d.data
  rest : t.chat.offDesk = d.rest
  log : t.chat.store.events = s.chat.store.events ++ d.events
  trace : t.trace = d.obs ++ s.trace
  ids : t.ids = s.ids + d.drawn
  built : t.built = s.built

namespace Took
variable {s t : Conf} {d : Delta}

theorem session (h : Took s t d) : t.chat.sessionId = d.rest.sessionId :=
  congrArg (·.sessionId) h.rest

theorem runner (h : Took s t d) : t.chat.runner = d.rest.runner := congrArg (·.runner) h.rest

end Took

/-- Neither a message of anyone's, nor an END of the conductor's own. -/
def Obs.isPlain : Obs → Bool
  | accepted _ | synthesized _ | closed _ => false
  | _ => true

theorem Obs.isPlain_of_isQuiet {o : Obs} (h : o.isQuiet) : o.isPlain := by
  cases o <;> first | rfl | cases h

theorem Obs.isPlain_of_isStop {o : Obs} (h : o.isStop) : o.isPlain :=
  isPlain_of_isQuiet (isQuiet_of_isStop h)

/-- `t` comes after `s`, with no message added in between. -/
structure Later (s t : Conf) : Prop where
  ids : s.ids ≤ t.ids
  built : s.built ≤ t.built
  session : t.chat.sessionId = s.chat.sessionId
  trace : ∃ os, t.trace = os ++ s.trace ∧ ∀ o ∈ os, o.isPlain

namespace Later
variable {s t u : Conf}

theorem trans (h : Later s t) (h' : Later t u) : Later s u where
  ids := h.ids.trans h'.ids
  built := h.built.trans h'.built
  session := h'.session.trans h.session
  trace := by
    obtain ⟨os, ho, hos⟩ := h.trace
    obtain ⟨ps, hp, hps⟩ := h'.trace
    refine ⟨ps ++ os, by rw [hp, ho, List.append_assoc], ?_⟩
    intro o hm
    rcases List.mem_append.mp hm with hm | hm
    · exact hps o hm
    · exact hos o hm

theorem of_obs {os : List Obs} (hi : s.ids ≤ t.ids) (hb : t.built = s.built)
    (hs : t.chat.sessionId = s.chat.sessionId) (ht : t.trace = os ++ s.trace)
    (hos : ∀ o ∈ os, o.isPlain) : Later s t := ⟨hi, hb.ge, hs, os, ht, hos⟩

end Later

theorem Quiet.later {s t : Conf} (h : Quiet s t) : Later s t where
  ids := h.ids.ge
  built := h.built
  session := h.session
  trace := by
    obtain ⟨os, ho, hos⟩ := h.trace
    exact ⟨os, ho, fun o hm => Obs.isPlain_of_isQuiet (hos o hm)⟩

theorem Remains.later {s t : Conf} {disk : Disk} (h : Remains s t disk) : Later s t where
  ids := h.ids.ge
  built := h.built.ge
  session := h.session
  trace := by
    obtain ⟨os, ho, hos⟩ := h.trace
    exact ⟨os, ho, fun o hm => Obs.isPlain_of_isStop (hos o hm)⟩

/-- The conductor ended with `disk`, no message having been added since `s`. -/
structure Leaves (s t : Conf) (disk : Disk) : Prop where
  disk : t.chat.disk = disk
  later : Later s t

theorem Remains.leaves {s t : Conf} {disk : Disk} (h : Remains s t disk) : Leaves s t disk :=
  ⟨h.disk, h.later⟩

theorem Leaves.after {s t u : Conf} {disk : Disk} (h : Leaves t u disk) (h' : Later s t) :
    Leaves s u disk := ⟨h.disk, h'.trans h.later⟩

/-- `s` with `n` more message ids drawn. -/
def Conf.drawn (s : Conf) (n : ℕ) : Conf := { s with ids := s.ids + n }

theorem Conf.drawn_later (s : Conf) (n : ℕ) : Later s (s.drawn n) :=
  ⟨Nat.le_add_right _ _, le_rfl, rfl, [], rfl, by simp⟩

theorem Chat.puttingDown_isStop (c : Chat) : ∀ o ∈ c.puttingDown, o.isStop := by
  unfold Chat.puttingDown
  split
  · split <;> simp [Obs.isStop]
  · simp

theorem Chat.puttingDown_isPlain (c : Chat) : ∀ o ∈ c.puttingDown, o.isPlain :=
  fun o ho => Obs.isPlain_of_isStop (c.puttingDown_isStop o ho)

section
variable [Host]

/-- The messages a retry of everything unfinished delivers again. -/
def Conf.retries (s : Conf) (retry : Bool) : List PendingMessage :=
  if retry then
    s.chat.unanswered.flatten.mapIdx fun i text => { id := Host.uuid (s.ids + i), text }
  else []

/-- The END the conductor writes itself when it puts a runner down. -/
def Chat.closing (c : Chat) (provider : String) (extra : Fields) : Event :=
  { c with runner := none }.logged (((Event.new .end_).from_ provider).extras extra)

/-- What `close_turn` does. -/
def Conf.closed (s : Conf) (provider : String) (extra : Fields) (retry : Bool) : Delta where
  desk := { s.chat.desk with
    outbox := s.retries retry ++ (s.chat.awaiting ++ s.chat.outbox)
    awaiting := []
    unanswered := []
    nextTurns := 0
    turnFailed := none
    inTurn := false
    turnRecorded := s.chat.turnRecorded && !s.chat.inTurn }
  data := s.chat.meta_.data.retry (s.retries retry)
  rest := { s.chat.offDesk with runner := none, runnerEpoch := none }
  events := if s.chat.inTurn ∧ s.chat.turnRecorded then [s.chat.closing provider extra] else []
  obs :=
    (if s.chat.inTurn ∧ s.chat.turnRecorded then [.closed (s.chat.closing provider extra).seq]
      else []) ++ s.chat.puttingDown
  drawn := (s.retries retry).length

end

section
variable {s : Conf} {H : Halt → Conf → Prop}

@[simp] theorem wp_putDown {Q : Unit → Conf → Prop} :
    wp putDown Q H s = Q ()
      { s with
        trace := s.chat.puttingDown ++ s.trace
        chat := { s.chat with runner := none, runnerEpoch := none } } := rfl

variable [Host]

theorem wp_requeue {Q : Unit → Conf → Prop} {retry : Bool}
    (hdone : ∀ calls, Q ()
      { s with
        calls
        ids := s.ids + (s.retries retry).length
        chat := { s.chat with
          meta_.data := s.chat.meta_.data.retry (s.retries retry)
          outbox := s.retries retry ++ (s.chat.awaiting ++ s.chat.outbox)
          awaiting := []
          unanswered := []
          turnFailed := none
          nextTurns := 0 } })
    (hhalt : ∀ e t, Leaves (s.drawn (s.retries retry).length) t s.chat.disk ∨
      Leaves (s.drawn (s.retries retry).length) t
        (s.chat.disk.edit (·.retry (s.retries retry))) → H e t) :
    wp (requeue retry) Q H s := by
  unfold requeue
  simp only [wp_bind, wp_change, wp_self]
  by_cases hr : retry = true ∧ s.chat.unanswered ≠ []
  · rw [if_pos hr]
    simp only [wp_bind, drawRetries, wp_modifyGet]
    have hret : s.retries retry = s.chat.unanswered.flatten.mapIdx
        fun i text => { id := Host.uuid (s.ids + i), text } := by
      unfold Conf.retries
      rw [if_pos hr.1]
    have hlen : (s.retries retry).length = s.chat.unanswered.flatten.length := by
      rw [hret, List.length_mapIdx]
    apply wp_commit
    · intro calls
      have h := hdone calls
      rw [hlen, hret] at h
      exact h
    · intro e t ht
      rw [← hret] at ht
      have hl : Later (s.drawn (s.retries retry).length) { s with
          ids := s.ids + s.chat.unanswered.flatten.length
          chat := { s.chat with outbox := s.chat.awaiting ++ s.chat.outbox, awaiting := [] } } :=
        ⟨(congrArg (s.ids + ·) hlen).le, le_rfl, rfl, [], rfl, by simp⟩
      rcases ht with ht | ht
      · exact hhalt _ _ (.inl (ht.leaves.after hl))
      · exact hhalt _ _ (.inr (ht.leaves.after hl))
  · rw [if_neg hr]
    have hret : s.retries retry = [] := by
      unfold Conf.retries
      split
      next h => simp_all
      next => rfl
    have h := hdone s.calls
    rw [hret] at h
    exact h

theorem wp_closeTurn {Q : Unit → Conf → Prop} {provider : String} {extra : Fields} {retry : Bool}
    (hdone : ∀ t, Took s t (s.closed provider extra retry) → Q () t)
    (hhalt : ∀ e t, (let drawn := s.drawn (s.retries retry).length
      Leaves drawn t s.chat.disk ∨
      Leaves drawn t (s.chat.disk.edit (·.retry (s.retries retry))) ∨
      s.chat.inTurn ∧ s.chat.turnRecorded ∧
        Leaves drawn t ((s.chat.disk.edit (·.retry (s.retries retry))).append
          (s.chat.closing provider extra))) → H e t) :
    wp (closeTurn provider extra retry) Q H s := by
  have hplain := s.chat.puttingDown_isPlain
  have hput : Later (s.drawn (s.retries retry).length) (Conf.drawn { s with
      trace := s.chat.puttingDown ++ s.trace
      chat := { s.chat with runner := none, runnerEpoch := none } } (s.retries retry).length) :=
    .of_obs le_rfl rfl rfl rfl hplain
  unfold closeTurn
  rw [wp_bind, wp_putDown, wp_bind]
  apply wp_requeue
  · intro calls
    simp only [wp_bind, wp_self]
    by_cases hopen : s.chat.inTurn = true ∧ s.chat.turnRecorded = true
    · rw [if_pos hopen]
      simp only [wp_bind, wp_change]
      apply wp_record
      · apply hdone
        exact {
          desk := by
            simp only [Conf.closed, Chat.desk, hopen.1, Bool.not_true, Bool.and_false]
            rfl
          data := rfl
          rest := rfl
          log := by
            simp only [Conf.closed, if_pos hopen]
            rfl
          trace := by
            simp only [Conf.closed, if_pos hopen]
            rfl
          ids := rfl
          built := rfl }
      · intro e t ht
        rcases ht with ht | ht
        · exact hhalt _ _ (.inr (.inl (ht.leaves.after ⟨le_rfl, le_rfl, rfl, _, rfl, hplain⟩)))
        · exact hhalt _ _ (.inr (.inr
            ⟨hopen.1, hopen.2, ht.leaves.after ⟨le_rfl, le_rfl, rfl, _, rfl, hplain⟩⟩))
    · rw [if_neg hopen]
      apply hdone
      have hrec : (s.chat.turnRecorded && !s.chat.inTurn) = s.chat.turnRecorded := by
        cases hi : s.chat.inTurn <;> cases hr : s.chat.turnRecorded <;> simp_all
      exact {
        desk := by
          simp only [Conf.closed, Chat.desk, hrec]
          rfl
        data := rfl
        rest := rfl
        log := by
          simp only [Conf.closed, if_neg hopen]
          exact (List.append_nil _).symm
        trace := by
          simp only [Conf.closed, if_neg hopen]
          rfl
        ids := rfl
        built := rfl }
  · intro e t ht
    rcases ht with ht | ht
    · exact hhalt _ _ (.inl (ht.after hput))
    · exact hhalt _ _ (.inr (.inl (ht.after hput)))

end

section
variable {s : Conf} {H : Halt → Conf → Prop}

/-- What `save_recovery` does. -/
def Conf.saved (s : Conf) (recovery : Option Recovery) (since : Option ℤ)
    (message : Option PendingMessage) : Delta :=
  let gone := superseded s.chat.recovery recovery
  { desk := { s.chat.desk with
      recovery
      outbox := message.toList ++ MetaData.without gone s.chat.outbox
      awaiting := MetaData.without gone s.chat.awaiting
      historyStart := since.getD s.chat.historyStart
      compactionDeadline :=
        s.chat.compactionDeadline && recovery.any fun r => r.stage = .compacting }
    data := s.chat.meta_.data.recover ((recovery.map Recovery.toValue).getD .null) since message
      gone
    rest := s.chat.offDesk }

theorem wp_saveRecovery {Q : Unit → Conf → Prop} {recovery : Option Recovery} {since : Option ℤ}
    {message : Option PendingMessage}
    (hdone : ∀ t, Took s t (s.saved recovery since message) → Q () t)
    (hhalt : ∀ e t, Leaves s t s.chat.disk ∨
      Leaves s t { s.chat.disk with data := (s.saved recovery since message).data } → H e t) :
    wp (saveRecovery recovery since message) Q H s := by
  unfold saveRecovery
  simp only [wp_bind, wp_self]
  apply wp_commit
  · intro calls
    exact hdone _ ⟨rfl, rfl, rfl, (List.append_nil _).symm, rfl, rfl, rfl⟩
  · rintro e t (ht | ht)
    · exact hhalt _ _ (.inl ht.leaves)
    · exact hhalt _ _ (.inr ht.leaves)

/-- What `flush` does with a message the runner takes at once, or as a later native turn. -/
def Conf.delivered (s : Conf) (runner : Handle) (message : PendingMessage)
    (rest : List PendingMessage) (delivery : Delivery) : Delta :=
  let event := s.chat.logged (s.chat.opening message delivery)
  let queued : Bool := delivery = .nextTurn ∧ s.chat.inTurn
  { desk := { s.chat.desk with
      outbox := rest
      unanswered := remembered s.chat.unanswered message.text queued
      nextTurns := if queued then s.chat.nextTurns + 1 else s.chat.nextTurns
      turn := max s.chat.turn event.turn
      turnRecorded := true
      inTurn := true }
    data := s.chat.meta_.data.complete message.id
    rest := s.chat.offDesk
    events := [event]
    obs :=
      (if queued || !s.chat.inTurn then [.opened runner event.seq, .shared runner event.seq]
        else [.shared runner event.seq]) ++ [.sent runner message (some delivery) s.chat.usable] }

/-- What `flush` does with a message the runner will echo. -/
def Conf.written (s : Conf) (runner : Handle) (message : PendingMessage)
    (rest : List PendingMessage) : Delta where
  desk := { s.chat.desk with
    awaiting := s.chat.awaiting ++ [message], outbox := rest, inTurn := true }
  data := s.chat.meta_.data
  rest := s.chat.offDesk
  obs := [.sent runner message (some .echoed) s.chat.usable]

/-- The state of the conductor when `flush` has this message to hand to this runner. -/
structure Conf.Delivering (s : Conf) (runner : Handle) (message : PendingMessage)
    (rest : List PendingMessage) : Prop where
  outbox : s.chat.outbox = message :: rest
  runner : s.chat.runner = some runner
  free : s.chat.holdsBack message = false

theorem wp_deliver {Q : List Call → Conf → Prop}
    (hidle : Q [] s)
    (hrefused : ∀ runner message rest why t, s.Delivering runner message rest →
      Took s t { desk := s.chat.desk, data := s.chat.meta_.data, rest := s.chat.offDesk
                 obs := [.sent runner message none s.chat.usable] } → Q [.refused why] t)
    (hechoed : ∀ runner message rest t, s.Delivering runner message rest →
      Took s t (s.written runner message rest) → Q [.deliver] t)
    (hopened : ∀ runner message rest delivery t, s.Delivering runner message rest →
      delivery ≠ .echoed → Took s t (s.delivered runner message rest delivery) → Q [.deliver] t)
    (hhalt : ∀ runner message rest delivery e t, s.Delivering runner message rest →
      (let event := s.chat.logged (s.chat.opening message delivery)
       Leaves s t s.chat.disk ∨ Leaves s t (s.chat.disk.append event) ∨
        Leaves s t ((s.chat.disk.append event).edit (·.complete message.id))) → H e t) :
    wp deliver Q H s := by
  unfold deliver
  simp only [wp_bind, wp_self]
  split
  next message rest runner ho hr =>
    split
    next => exact hidle
    next hfree =>
      have hd : s.Delivering runner message rest := ⟨ho, hr, by simpa using hfree⟩
      simp only [wp_bind, wp_asks, wp_note]
      split
      next why hs =>
        refine hrefused runner message rest why _ hd ⟨rfl, rfl, rfl, ?_, ?_, rfl, rfl⟩
        · exact (List.append_nil _).symm
        · rw [hs]
          rfl
      next hs =>
        refine hechoed runner message rest _ hd ⟨rfl, rfl, rfl, ?_, ?_, rfl, rfl⟩
        · exact (List.append_nil _).symm
        · rw [hs]
          rfl
      next delivery hne hs =>
        have hnot : ∀ o ∈ [Obs.sent runner message (s.env.send s.calls runner).toOption s.chat.usable],
            o.isPlain := by simp [Obs.isPlain]
        rw [wp_bind]
        apply wp_record
        · simp only [wp_bind, wp_notes, wp_change, rememberRunnerTurn, completeMessage]
          apply wp_commit
          · intro calls
            refine hopened runner message rest delivery _ hd hne ⟨rfl, rfl, rfl, rfl, ?_, rfl, rfl⟩
            rw [hs]
            simp only [Conf.delivered]
            split <;> rfl
          · intro e t ht
            have hshared : ∀ o ∈ (if (decide (delivery = .nextTurn ∧
                s.chat.inTurn = true) || !s.chat.inTurn) = true then
                  [Obs.opened runner (s.chat.logged (s.chat.opening message delivery)).seq,
                    .shared runner (s.chat.logged (s.chat.opening message delivery)).seq]
                else [.shared runner (s.chat.logged (s.chat.opening message delivery)).seq]),
                o.isPlain := by
              split <;> simp [Obs.isPlain]
            have hsent : Later s (Conf.recorded { s with
                trace := .sent runner message (s.env.send s.calls runner).toOption s.chat.usable :: s.trace
                calls := s.calls + 1 } (s.chat.opening message delivery)) :=
              ⟨le_rfl, le_rfl, rfl, [_], rfl, hnot⟩
            refine hhalt runner message rest delivery e t hd ?_
            rcases ht with ht | ht
            · exact .inr (.inl (ht.leaves.after
                (hsent.trans ⟨le_rfl, le_rfl, rfl, _, rfl, hshared⟩)))
            · exact .inr (.inr (ht.leaves.after
                (hsent.trans ⟨le_rfl, le_rfl, rfl, _, rfl, hshared⟩)))
        · intro e t ht
          refine hhalt runner message rest delivery e t hd ?_
          rcases ht with ht | ht
          · exact .inl (ht.leaves.after ⟨le_rfl, le_rfl, rfl, [_], rfl, hnot⟩)
          · exact .inr (.inl (ht.leaves.after ⟨le_rfl, le_rfl, rfl, [_], rfl, hnot⟩))
  next => exact hidle

variable [Host]

/-- What `enqueue` does with a message. -/
def Conf.enqueued (s : Conf) (message : PendingMessage) : Delta where
  desk := { s.chat.desk with outbox := s.chat.outbox ++ [message] }
  data := s.chat.meta_.data.enqueue message
  rest := s.chat.offDesk
  obs := [.accepted message]
  drawn := 1

theorem wp_enqueue {Q : List Call → Conf → Prop} {text : String}
    (hdone : ∀ t, Took s t (s.enqueued { id := Host.uuid s.ids, text }) → Q [] t)
    (hhalt : ∀ e t, Leaves (s.drawn 1) t s.chat.disk ∨
      Leaves (s.drawn 1) t (s.chat.disk.edit (·.enqueue { id := Host.uuid s.ids, text })) →
        H e t) :
    wp (enqueue text) Q H s := by
  unfold enqueue
  simp only [wp_bind, wp_newId]
  apply wp_commit
  · intro calls
    exact hdone _ ⟨rfl, rfl, rfl, (List.append_nil _).symm, rfl, rfl, rfl⟩
  · intro e t ht
    rcases ht with ht | ht
    · exact hhalt _ _ (.inl ht.leaves)
    · exact hhalt _ _ (.inr ht.leaves)

/-- `s` with a message of recovery's own written, and not saved yet. -/
def Conf.synthesizing (s : Conf) (text : String) : Conf :=
  { s with ids := s.ids + 1, trace := .synthesized { id := Host.uuid s.ids, text } :: s.trace }

/-- What `recovery_message` does once the ground is clear. -/
def Conf.queuedRecovery (s : Conf) (stage : RecoveryStage) (text : String) (fresh : Bool) : Delta :=
  let message : PendingMessage := { id := Host.uuid s.ids, text }
  let recovery : Recovery :=
    { stage, messageId := message.id, retry := if stage = .retrying then text else "" }
  let d := s.saved (some recovery) (if fresh then some (s.chat.store.seq + 1) else none)
    (some message)
  { d with
    desk := { d.desk with turnFailed := none }
    obs := [.synthesized message]
    drawn := 1 }

theorem wp_queueRecovery {Q : Unit → Conf → Prop} {stage : RecoveryStage} {text : String}
    {fresh : Bool}
    (hdone : ∀ t, Took s t (s.queuedRecovery stage text fresh) → Q () t)
    (hhalt : ∀ e t, Leaves (s.synthesizing text) t s.chat.disk ∨
      Leaves (s.synthesizing text) t
        { s.chat.disk with data := (s.queuedRecovery stage text fresh).data } → H e t) :
    wp (queueRecovery stage text fresh) Q H s := by
  unfold queueRecovery
  simp only [wp_bind, wp_newId, wp_note, wp_self]
  apply wp_saveRecovery
  · intro t ht
    apply hdone
    exact {
      desk := by
        have h := ht.desk
        show { t.chat.desk with turnFailed := none } = _
        rw [h]
        rfl
      data := ht.data
      rest := ht.rest
      log := ht.log
      trace := ht.trace
      ids := ht.ids
      built := ht.built }
  · exact hhalt

end
end SiliconOmni
