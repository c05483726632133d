import SiliconOmni.Chat.Owners
import SiliconOmni.Chat.Settings
import SiliconOmni.Chat.Waits

/-! In the log every turn that was opened is closed by one END before the next is opened. -/
namespace SiliconOmni
open Lib

/-- An END of the runner that was attached, or one the conductor wrote itself. -/
def Event.closes (e : Event) : Bool := e.is .end_ && !e.late

/-- The native turns opened and not ended yet, after one more event. -/
def Event.opens (n : ℕ) (e : Event) : ℕ :=
  if e.is .start then n + 1
  else if e.is .injected then
    if (e.extra.lookup "landed").bind Value.asStr = some "next_turn" then n + 1 else max n 1
  else if e.closes then n - 1
  else n

/-- How many native turns the log has opened and not ended. -/
def unended (log : List Event) : ℕ := log.foldl Event.opens 0

/-- Whether the last START of the log is still open. -/
def startOpen (log : List Event) : Bool :=
  log.foldl (fun before e => e.is .start || (before && !e.closes)) false

/-- Between any two START events an END closes the first. -/
def Alternates (log : List Event) : Prop :=
  ∀ before between after first second, log = before ++ first :: between ++ second :: after →
    first.is .start = true → second.is .start = true → ∃ e ∈ between, e.closes = true

theorem unended_concat (log : List Event) (e : Event) :
    unended (log ++ [e]) = e.opens (unended log) := by
  simp [unended]

theorem startOpen_concat (log : List Event) (e : Event) :
    startOpen (log ++ [e]) = (e.is .start || (startOpen log && !e.closes)) := by
  simp [startOpen]

/-- Events that open and close nothing. -/
def Event.isIdle (e : Event) : Bool := !e.is .start && !e.is .injected && !e.closes

theorem Event.isIdle_of_isBookkeeping {e : Event} (h : e.eventType.isBookkeeping) : e.isIdle := by
  unfold isIdle closes Event.is
  cases htype : e.eventType <;> first | rfl | (rw [htype] at h; cases h)

theorem unended_append {log es : List Event} (idle : ∀ e ∈ es, e.isIdle) :
    unended (log ++ es) = unended log := by
  induction es generalizing log with
  | nil => rw [List.append_nil]
  | cons e es ih =>
    have none_ := idle e List.mem_cons_self
    simp only [Event.isIdle, Bool.and_eq_true, Bool.not_eq_true'] at none_
    rw [← List.singleton_append, ← List.append_assoc, ih fun k hk => idle k (List.mem_cons_of_mem _ hk),
      unended_concat]
    simp [Event.opens, none_]

theorem startOpen_append {log es : List Event} (idle : ∀ e ∈ es, e.isIdle) :
    startOpen (log ++ es) = startOpen log := by
  induction es generalizing log with
  | nil => rw [List.append_nil]
  | cons e es ih =>
    have none_ := idle e List.mem_cons_self
    simp only [Event.isIdle, Bool.and_eq_true, Bool.not_eq_true'] at none_
    rw [← List.singleton_append, ← List.append_assoc, ih fun k hk => idle k (List.mem_cons_of_mem _ hk),
      startOpen_concat]
    simp [none_]

theorem alternates_nil : Alternates [] := by
  intro before between after first second heq
  simp at heq

/-- A START that nothing closes afterwards is open. -/
theorem startOpen_of_start {before between : List Event} {first : Event}
    (start : first.is .start = true) (never : ∀ e ∈ between, e.closes = false) :
    startOpen (before ++ first :: between) = true := by
  have kept (log : List Event) (opened : startOpen log = true) : startOpen (log ++ between) = true := by
    induction between generalizing log with
    | nil => rwa [List.append_nil]
    | cons e es ih =>
      rw [← List.singleton_append, ← List.append_assoc]
      refine ih (fun k hk => never k (List.mem_cons_of_mem _ hk)) _ ?_
      rw [startOpen_concat, opened, never e List.mem_cons_self]
      simp
  rw [← List.singleton_append, ← List.append_assoc]
  refine kept _ ?_
  rw [startOpen_concat, start]
  rfl

theorem Alternates.concat {log : List Event} {e : Event} (h : Alternates log)
    (next : e.is .start = true → startOpen log = false) : Alternates (log ++ [e]) := by
  intro before between after first second heq hfirst hsecond
  rcases List.eq_nil_or_concat after with rfl | ⟨more, last, rfl⟩
  · obtain ⟨hlog, hlast⟩ := List.append_inj' heq rfl
    obtain rfl := (List.cons.inj hlast).1
    by_contra never
    simp only [not_exists, not_and, Bool.not_eq_true] at never
    have opened : startOpen log = true := hlog ▸ startOpen_of_start hfirst never
    rw [next hsecond] at opened
    cases opened
  · refine h before between more first second ?_ hfirst hsecond
    have hsplit : log ++ [e] = (before ++ first :: between ++ second :: more) ++ [last] := by
      rw [heq]
      simp
    exact (List.append_inj' hsplit rfl).1

theorem Alternates.append {log es : List Event} (h : Alternates log) (idle : ∀ e ∈ es, e.isIdle) :
    Alternates (log ++ es) := by
  induction es generalizing log with
  | nil => rwa [List.append_nil]
  | cons e es ih =>
    rw [← List.singleton_append, ← List.append_assoc]
    refine ih (h.concat fun start => ?_) fun k hk => idle k (List.mem_cons_of_mem _ hk)
    have none_ := idle e List.mem_cons_self
    simp [Event.isIdle, start] at none_

/-- The desk knows of every turn the log has open. -/
structure Paired (d : Desk) (log : List Event) : Prop where
  alternates : Alternates log
  opened : startOpen log = true → d.turnRecorded = true
  busy : d.turnRecorded = true → d.inTurn = true
  counted : d.nextTurns + d.turnRecorded.toNat ≤ unended log

namespace Paired
variable {d d' : Desk} {log es : List Event} {e : Event}

theorem append (h : Paired d log) (idle : ∀ e ∈ es, e.isIdle) : Paired d (log ++ es) where
  alternates := h.alternates.append idle
  opened := by
    rw [startOpen_append idle]
    exact h.opened
  busy := h.busy
  counted := by
    rw [unended_append idle]
    exact h.counted

/-- Fewer turns are queued, and the open one is the same. -/
theorem keep (h : Paired d log) (same : d'.turnRecorded = d.turnRecorded)
    (open_ : d.inTurn = true → d'.inTurn = true) (fewer : d'.nextTurns ≤ d.nextTurns) :
    Paired d' log where
  alternates := h.alternates
  opened := fun start => same.trans (h.opened start)
  busy := fun recorded => open_ (h.busy (same.symm.trans recorded))
  counted := by
    rw [same]
    exact (Nat.add_le_add_right fewer _).trans h.counted

/-- A turn with nothing recorded is not open in the log. -/
theorem drop (h : Paired d log) (idle : d.turnRecorded = false) (recorded : d'.turnRecorded = false)
    (fewer : d'.nextTurns ≤ d.nextTurns) : Paired d' log where
  alternates := h.alternates
  opened := fun start => by cases idle.symm.trans (h.opened start)
  busy := by
    rw [recorded]
    rintro ⟨⟩
  counted := by
    have before := h.counted
    rw [recorded]
    exact fewer.trans ((Nat.le_add_right _ _).trans before)

/-- An END closes the turn. -/
theorem close (h : Paired d log) (isEnd : e.is .end_ = true) (closes : e.closes = true)
    (given : d.turnRecorded = true ∨ d'.nextTurns = 0) (recorded : d'.turnRecorded = false)
    (fewer : d'.nextTurns ≤ d.nextTurns) : Paired d' (log ++ [e]) where
  alternates := by
    refine h.alternates.concat fun start => ?_
    have ends : e.eventType = .end_ := of_decide_eq_true isEnd
    simp [Event.is, ends] at start
  opened := by
    have ends : e.eventType = .end_ := of_decide_eq_true isEnd
    rw [startOpen_concat, closes]
    simp [Event.is, ends]
  busy := by
    rw [recorded]
    rintro ⟨⟩
  counted := by
    have ends : e.eventType = .end_ := of_decide_eq_true isEnd
    have before := h.counted
    rw [unended_concat, recorded]
    simp only [Event.opens, Event.is, ends, closes, reduceCtorEq, decide_false, Bool.false_eq_true,
      if_false, if_true, Bool.toNat_false]
    rcases given with given | none_
    · rw [given] at before
      simp only [Bool.toNat_true] at before
      omega
    · omega

/-- A START opens one where none is open. -/
theorem start (h : Paired d log) (isStart : e.is .start = true) (idle : d.turnRecorded = false)
    (recorded : d'.turnRecorded = true) (open_ : d'.inTurn = true) (next : d'.nextTurns = d.nextTurns) :
    Paired d' (log ++ [e]) where
  alternates := by
    refine h.alternates.concat fun _ => ?_
    by_contra opened
    cases idle.symm.trans (h.opened (by simpa using opened))
  opened := fun _ => recorded
  busy := fun _ => open_
  counted := by
    have before := h.counted
    rw [idle] at before
    rw [unended_concat, recorded, next]
    simp only [Event.opens, isStart, if_true, Bool.toNat_true]
    simp only [Bool.toNat_false] at before
    omega

/-- A message joins the open turn, or opens one to come. -/
theorem inject (h : Paired d log) (isInjected : e.is .injected = true)
    (later : d.turnRecorded = true ∧ d'.nextTurns = d.nextTurns + 1 ∧
        (e.extra.lookup "landed").bind Value.asStr = some "next_turn" ∨
      (d.turnRecorded = true ∨ d.nextTurns = 0) ∧ d'.nextTurns = d.nextTurns ∧
        (e.extra.lookup "landed").bind Value.asStr ≠ some "next_turn")
    (recorded : d'.turnRecorded = true) (open_ : d'.inTurn = true) : Paired d' (log ++ [e]) where
  alternates := by
    have injected : e.eventType = .injected := of_decide_eq_true isInjected
    exact h.alternates.concat fun start => by simp [Event.is, injected] at start
  opened := fun _ => recorded
  busy := fun _ => open_
  counted := by
    have injected : e.eventType = .injected := of_decide_eq_true isInjected
    have before := h.counted
    rw [unended_concat, recorded]
    simp only [Event.opens, Event.is, injected, reduceCtorEq, decide_false, Bool.false_eq_true, if_false,
      decide_true, if_true, Bool.toNat_true]
    rcases later with ⟨given, next, landed⟩ | ⟨given | none_, next, landed⟩
    · rw [given] at before
      rw [landed, next, if_pos rfl]
      simp only [Bool.toNat_true] at before
      omega
    · rw [given] at before
      rw [if_neg landed, next]
      simp only [Bool.toNat_true] at before
      omega
    · rw [if_neg landed, next, none_]
      omega

end Paired

section steps
variable {s t : Conf}

theorem idle_of_bookkeeping {es : List Event} (h : ∀ e ∈ es, e.eventType.isBookkeeping) :
    ∀ e ∈ es, e.isIdle := fun e member => Event.isIdle_of_isBookkeeping (h e member)

theorem Quiet.paired (quiet : Quiet s t) (desk : t.chat.desk = s.chat.desk)
    (h : Paired s.chat.desk s.chat.store.events) : Paired t.chat.desk t.chat.store.events := by
  obtain ⟨es, hlog, -, hes⟩ := quiet.log
  rw [desk, hlog]
  exact h.append (idle_of_bookkeeping hes)

theorem Gave.paired {d : Delta} (gave : Gave s t d)
    (h : Paired d.desk (s.chat.store.events ++ d.events)) :
    Paired t.chat.desk t.chat.store.events := by
  obtain ⟨es, hlog, -, hes⟩ := gave.log
  rw [gave.desk, hlog]
  exact h.append (idle_of_bookkeeping hes)

/-- A change of the desk that opens and closes no turn. -/
theorem Gave.pairs {d : Delta} (gave : Gave s t d) (h : Paired s.chat.desk s.chat.store.events)
    (events : d.events = []) (same : d.desk.turnRecorded = s.chat.turnRecorded)
    (open_ : s.chat.inTurn = true → d.desk.inTurn = true) (fewer : d.desk.nextTurns ≤ s.chat.nextTurns) :
    Paired t.chat.desk t.chat.store.events := by
  refine gave.paired ?_
  rw [events, List.append_nil]
  exact h.keep same open_ fewer

theorem Ends.alternates {disk : Disk} (h : Ends s t disk) (log : Alternates disk.log) :
    Alternates t.chat.store.events := by
  obtain ⟨es, hlog, -, hes⟩ := h.log
  rw [hlog]
  exact log.append (idle_of_bookkeeping hes)

variable [Host]

theorem takenIn_idle (c : Chat) (epoch : ℕ) (report : Report) {late : Bool}
    (open_ : late = true ∨ report.type ≠ .end_) :
    (c.logged (c.takenIn epoch report late)).isIdle = true := by
  have marked : (c.logged (c.takenIn epoch report late)).late = late := takenIn_late c epoch report late
  have type : (c.logged (c.takenIn epoch report late)).eventType = report.type.eventType := rfl
  unfold Event.isIdle Event.closes Event.is
  rw [marked, type]
  rcases open_ with rfl | other
  · cases report.type <;> rfl
  · cases htype : report.type <;> first | rfl | exact absurd htype other

theorem takenIn_closes (c : Chat) (epoch : ℕ) {report : Report} (ends : report.type = .end_) :
    (c.logged (c.takenIn epoch report false)).closes = true := by
  have marked : (c.logged (c.takenIn epoch report false)).late = false := takenIn_late c epoch report false
  have type : (c.logged (c.takenIn epoch report false)).eventType = report.type.eventType := rfl
  unfold Event.closes Event.is
  rw [marked, type, ends]
  rfl

omit [Host] in
theorem closing_closes (c : Chat) (provider : String) {extra : Fields}
    (plain : extra.lookup "late" = none) : (c.closing provider extra).closes = true := by
  have marked : (c.closing provider extra).late = false := by
    show decide ((extra.lookup "late").bind Value.asBool = some true) = false
    rw [plain]
    rfl
  unfold Event.closes
  rw [marked]
  rfl

omit [Host] in
theorem stopEnd_closes (c : Chat) : c.stopEnd.closes = true := by
  have marked : c.stopEnd.late = false := rfl
  unfold Event.closes
  rw [marked]
  rfl

end steps

section calls
variable [Host] {s t : Conf} {call : Call} {calls : List Call}

/-- What a call may find: an acknowledgement says that a turn starts only where none is open and
recorded; a message or an END that names no such turn finds none queued either; and recovery takes
no refused send for the END of one. -/
def Conf.TakesTurns (s : Conf) : Call → Prop
  | .deliver => s.chat.inTurn = true → s.chat.turnRecorded = true ∨ s.echoing = true
  | .absorb epoch report => s.chat.runnerEpoch = some epoch →
      ((s.chat.takenIn epoch report false).confirmedAs = some .start → s.chat.turnRecorded = false) ∧
      ((s.chat.takenIn epoch report false).confirmedAs = some .injected ∨ report.type = .end_ →
        s.chat.turnRecorded = true ∨ s.chat.nextTurns = 0)
  | .recoveryEnded _ => s.chat.turnRecorded = false
  | _ => True

def System.TurnTaking (s : System) : Move → Prop
  | .advance => ∀ call ∈ s.stack.head?, s.conf.TakesTurns call
  | .reopen .. => startOpen s.conf.chat.store.events = false
  | _ => True

theorem paired_closed (h : Paired s.chat.desk s.chat.store.events) (provider : String) {extra : Fields}
    {retry : Bool} (plain : extra.lookup "late" = none) :
    Paired (s.closed provider extra retry).desk
      (s.chat.store.events ++ (s.closed provider extra retry).events) := by
  cases recorded : s.chat.turnRecorded with
  | true =>
    have open_ : s.chat.inTurn = true := h.busy recorded
    have events : (s.closed provider extra retry).events = [s.chat.closing provider extra] := by
      simp [Conf.closed, open_, recorded]
    rw [events]
    refine h.close rfl (closing_closes _ _ plain) (.inl recorded) ?_ (Nat.zero_le _)
    show (s.chat.turnRecorded && !s.chat.inTurn) = false
    rw [open_]
    exact Bool.and_false _
  | false =>
    have events : (s.closed provider extra retry).events = [] := by
      simp [Conf.closed, recorded]
    rw [events, List.append_nil]
    refine h.drop recorded ?_ (Nat.zero_le _)
    show (s.chat.turnRecorded && !s.chat.inTurn) = false
    rw [recorded]
    rfl

omit [Host] in
theorem paired_opening (h : Paired s.chat.desk s.chat.store.events) {runner : Handle}
    {message : PendingMessage} {rest : List PendingMessage} {delivery : Delivery}
    (recorded : s.chat.inTurn = true → s.chat.turnRecorded = true) :
    Paired (s.delivered runner message rest delivery).desk
      (s.chat.store.events ++ [s.chat.logged (s.chat.opening message delivery)]) := by
  cases open_ : s.chat.inTurn with
  | false =>
    have idle : s.chat.turnRecorded = false := by
      by_contra recorded
      cases open_.symm.trans (h.busy (Bool.eq_true_of_not_eq_false recorded))
    refine h.start ?_ idle rfl rfl ?_
    · simp [Chat.opening, open_, Event.is, Event.with_, Event.saying, Event.new]
    · simp only [Conf.delivered, open_]
      simp
      rfl
  | true =>
    have recorded := recorded open_
    have landed : ((s.chat.logged (s.chat.opening message delivery)).extra.lookup "landed").bind
        Value.asStr = some (if delivery = .nextTurn then "next_turn" else "same_turn") := by
      simp [Chat.opening, open_, Event.with_]
      rfl
    refine h.inject ?_ ?_ rfl rfl
    · simp [Chat.opening, open_, Event.is, Event.with_, Event.saying, Event.new]
    · cases delivery with
      | nextTurn =>
        refine .inl ⟨recorded, ?_, landed⟩
        simp only [Conf.delivered, open_]
        rfl
      | immediate | echoed =>
        exact .inr ⟨.inl recorded, rfl, by rw [landed]; decide⟩

theorem paired_confirmation (h : Paired s.chat.desk s.chat.store.events) {epoch : ℕ} {report : Report}
    {message : PendingMessage} {rest : List PendingMessage} {opening : EventType}
    (confirming : s.Confirming (s.chat.takenIn epoch report false) message rest opening)
    (takes : s.TakesTurns (.absorb epoch report)) (attached : s.chat.runnerEpoch = some epoch) :
    Paired (s.confirmed message rest (s.chat.takenIn epoch report false) opening).desk
      (s.chat.store.events ++ [s.chat.logged
        (s.chat.confirmation (s.chat.takenIn epoch report false) message opening)]) := by
  obtain ⟨starts, joins⟩ := takes attached
  rcases Event.confirmedAs_isOpening confirming.opens with rfl | rfl
  · exact h.start rfl (starts confirming.opens) rfl rfl rfl
  · refine h.inject rfl (.inr ⟨joins (.inl confirming.opens), rfl, ?_⟩) rfl rfl
    have landed : (s.chat.logged (s.chat.confirmation (s.chat.takenIn epoch report false) message
        .injected)).extra.lookup "landed" = some (.string "same_turn") := by
      simp [Chat.confirmation]
    rw [landed]
    decide

omit [Host] in
/-- What a recorded event does to the open turn and those queued. -/
theorem Reacted.turns {d d' : Desk} {autoremove : Bool} {e : Event} {obs : List Obs}
    (reacted : Reacted d autoremove e calls d' obs) :
    d'.nextTurns ≤ d.nextTurns ∧
      (e.eventType = .end_ → d'.turnRecorded = false) ∧
      (e.eventType ≠ .end_ → d'.turnRecorded = d.turnRecorded ∧ d'.inTurn = d.inTurn) := by
  cases reacted with
  | drainedEnd _ isEnd => exact ⟨Nat.zero_le _, fun _ => rfl, fun other => absurd isEnd other⟩
  | endedRecovering _ isEnd | endedFull _ isEnd | endedFailed _ isEnd | endedDone _ isEnd =>
    exact ⟨le_rfl, fun _ => rfl, fun other => absurd isEnd other⟩
  | drained _ other | heard _ _ other | fatalCompacting _ other | fatalRecovering _ other
  | lostLogin _ other | crashed _ other =>
    exact ⟨le_rfl, fun isEnd => absurd isEnd other, fun _ => ⟨rfl, rfl⟩⟩

theorem paired_ran (h : Paired s.chat.desk s.chat.store.events) (takes : s.TakesTurns call)
    (delivers : call = .deliver → s.chat.inTurn = true → s.chat.turnRecorded = false →
      t.chat.turnRecorded = false) (ran : Ran s call calls t) :
    Paired t.chat.desk t.chat.store.events := by
  cases ran with
  | moved _ still => exact still.quiet.paired still.desk h
  | replaced _ desk quiet => exact quiet.paired desk h
  | enqueued gave | written _ gave => exact gave.pairs h rfl rfl (fun _ => by first | rfl | assumption) le_rfl
  | delivered delivering _ gave =>
    refine gave.paired (paired_opening h fun open_ => ?_)
    by_contra fresh
    have none_ := delivers rfl open_ (Bool.eq_false_of_not_eq_true fresh)
    have some_ : t.chat.turnRecorded = true := congrArg Desk.turnRecorded gave.desk
    cases none_.symm.trans some_
  | refusedFull _ gave | refusedMidTurn _ _ gave | refolded _ _ _ gave =>
    exact gave.pairs h rfl rfl id le_rfl
  | late event other gave =>
    refine gave.paired (h.append fun e member => ?_)
    rw [List.mem_singleton.mp member, event]
    exact takenIn_idle _ _ _ (.inl rfl)
  | @reacted epoch report e _ _ _ _ event attached other reacted gave =>
    obtain ⟨fewer, ended, other⟩ := reacted.turns
    have type : e.eventType = report.type.eventType := event ▸ rfl
    refine gave.paired ?_
    by_cases ends : report.type = .end_
    · have isEnd : e.eventType = .end_ := type.trans (ends ▸ rfl)
      have given := (takes attached).2 (.inr ends)
      refine h.close (decide_eq_true isEnd) (event ▸ takenIn_closes _ _ ends) ?_ (ended isEnd) fewer
      refine given.imp_right fun (none_ : s.chat.desk.nextTurns = 0) => ?_
      rw [none_] at fewer
      exact Nat.le_zero.mp fewer
    · have notEnd : e.eventType ≠ .end_ := by
        rw [type]
        cases htype : report.type <;> first | exact absurd htype ends | decide
      obtain ⟨same, open_⟩ := other notEnd
      refine (h.append fun k member => ?_).keep same (fun before => open_.trans before) fewer
      rw [List.mem_singleton.mp member, event]
      exact takenIn_idle _ _ _ (.inr ends)
  | confirmed attached confirming gave => exact gave.paired (paired_confirmation h confirming takes attached)
  | closed _ _ gave plain => exact gave.paired (paired_closed h _ plain)
  | compacting _ _ gave => exact gave.pairs h rfl rfl (fun _ => rfl) le_rfl
  | notCompacting _ gave | queued gave => exact gave.pairs h rfl rfl id le_rfl
  | queuedFresh closed gave plain | gaveUp closed gave plain =>
    exact gave.pairs (closed.paired (paired_closed h _ plain)) rfl rfl id le_rfl
  | nothingToEnd _ gave | proceeded _ _ gave | advanced _ _ gave =>
    refine gave.paired ?_
    have none_ : s.chat.turnRecorded = false := takes
    simp only [Conf.turned, Conf.saved, List.append_nil]
    exact h.drop none_ rfl le_rfl
  | nextTurn later gave =>
    refine gave.paired ?_
    simp only [Conf.turned, List.append_nil]
    refine ⟨h.alternates, fun _ => rfl, fun _ => rfl, ?_⟩
    have before : s.chat.nextTurns + s.chat.turnRecorded.toNat ≤ unended s.chat.store.events := h.counted
    show s.chat.nextTurns - 1 + 1 ≤ _
    omega
  | awaited _ _ gave => exact gave.pairs h rfl rfl (fun _ => rfl) le_rfl
  | finished _ _ _ gave | shutting gave => exact gave.pairs h rfl rfl id le_rfl
  | stopped _ gave =>
    refine gave.paired ?_
    cases recorded : s.chat.turnRecorded with
    | true =>
      have open_ : s.chat.inTurn = true := h.busy recorded
      simp only [Conf.stopping, open_, recorded, and_self, if_true]
      exact h.close rfl (stopEnd_closes _) (.inl recorded) rfl (Nat.zero_le _)
    | false =>
      simp only [Conf.stopping, recorded, Bool.false_eq_true, and_false, if_false, List.append_nil]
      exact h.drop recorded rfl (Nat.zero_le _)

omit [Host] in
theorem startOpen_of_opening (h : Paired s.chat.desk s.chat.store.events) {message : PendingMessage}
    {delivery : Delivery} (start : (s.chat.logged (s.chat.opening message delivery)).is .start = true) :
    startOpen s.chat.store.events = false := by
  cases open_ : s.chat.inTurn with
  | true => simp [Chat.opening, open_, Event.is, Event.with_, Event.saying, Event.new] at start
  | false =>
    by_contra before
    cases open_.symm.trans (h.busy (h.opened (Bool.eq_true_of_not_eq_false before)))

/-- However a call halts, the log alternates. -/
theorem alternates_died (h : Paired s.chat.desk s.chat.store.events) (takes : s.TakesTurns call)
    (died : Died s call t) : Alternates t.chat.store.events := by
  have closes {e : Event} (ends : e.eventType = .end_) : Alternates (s.chat.store.events ++ [e]) :=
    h.alternates.concat fun start => by simp [Event.is, ends] at start
  have closed {provider : String} {extra : Fields} {retry : Bool} {u : Conf}
      (gave : Gave s u (s.closed provider extra retry)) : Alternates u.chat.store.events := by
    obtain ⟨es, hlog, -, hes⟩ := gave.log
    rw [hlog]
    refine Alternates.append ?_ (idle_of_bookkeeping hes)
    simp only [Conf.closed]
    split
    · exact closes rfl
    · exact (List.append_nil _).symm ▸ h.alternates
  cases died with
  | opened delivering ends | delivered delivering ends =>
    exact ends.alternates (h.alternates.concat fun start => startOpen_of_opening h start)
  | heard other ends =>
    refine ends.alternates (h.alternates.concat fun start => ?_)
    exact absurd (of_decide_eq_true start) (takenIn_not_start _ _ _ _)
  | confirming confirming ends attached | confirmed confirming ends attached =>
    exact ends.alternates (paired_confirmation h confirming takes attached).alternates
  | closing _ _ ends => exact ends.alternates (closes rfl)
  | closed _ gave ends => exact ends.alternates (closed gave)
  | drawingFresh gave ends | queuedFresh gave ends | gaveUp gave ends => exact ends.alternates (closed gave)
  | stopped _ ends => exact ends.alternates (closes rfl)
  | stoppedClosed gave ends =>
    refine ends.alternates ?_
    obtain ⟨es, hlog, -, hes⟩ := gave.log
    show Alternates _
    rw [Chat.disk, hlog]
    refine Alternates.append ?_ (idle_of_bookkeeping hes)
    simp only [Conf.stopping]
    split
    · exact closes rfl
    · exact (List.append_nil _).symm ▸ h.alternates
  | _ =>
    rename_i ends
    exact ends.alternates h.alternates

/-- No END is written between `s` and `t` unless the open turn was recorded. -/
def Unended (s t : Conf) : Prop :=
  ∃ es, t.chat.store.events = s.chat.store.events ++ es ∧
    (s.chat.turnRecorded = false → ∀ e ∈ es, e.is .end_ = false)

omit [Host] in
theorem not_end_of_bookkeeping {es : List Event} (h : ∀ e ∈ es, e.eventType.isBookkeeping) :
    ∀ e ∈ es, e.is .end_ = false := by
  intro e member
  have book := h e member
  unfold Event.is
  cases htype : e.eventType <;> first | rfl | (rw [htype] at book; cases book)

omit [Host] in
theorem Gave.unended {d : Delta} (gave : Gave s t d)
    (events : s.chat.turnRecorded = false → ∀ e ∈ d.events, e.is .end_ = false) : Unended s t := by
  obtain ⟨es, hlog, -, hes⟩ := gave.log
  refine ⟨d.events ++ es, by rw [hlog, List.append_assoc], fun fresh e member => ?_⟩
  rcases List.mem_append.mp member with member | member
  · exact events fresh e member
  · exact not_end_of_bookkeeping hes e member

omit [Host] in
theorem Unended.trans {u : Conf} (h : Unended s u) (gave : ∃ es, t.chat.store.events =
    u.chat.store.events ++ es ∧ ∀ e ∈ es, e.eventType.isBookkeeping) : Unended s t := by
  obtain ⟨es, hlog, hes⟩ := h
  obtain ⟨fs, glog, hfs⟩ := gave
  refine ⟨es ++ fs, by rw [glog, hlog, List.append_assoc], fun fresh e member => ?_⟩
  rcases List.mem_append.mp member with member | member
  · exact hes fresh e member
  · exact not_end_of_bookkeeping hfs e member

omit [Host] in
theorem Ends.unended {v : Conf} {disk : Disk} {new : List Event} (h : Ends v t disk)
    (log : disk.log = s.chat.store.events ++ new)
    (events : s.chat.turnRecorded = false → ∀ e ∈ new, e.is .end_ = false) : Unended s t := by
  obtain ⟨es, hlog, -, hes⟩ := h.log
  refine ⟨new ++ es, by rw [hlog, log, List.append_assoc], fun fresh e member => ?_⟩
  rcases List.mem_append.mp member with member | member
  · exact events fresh e member
  · exact not_end_of_bookkeeping hes e member

theorem closed_unended {provider : String} {extra : Fields} {retry : Bool}
    (fresh : s.chat.turnRecorded = false) :
    ∀ e ∈ (s.closed provider extra retry).events, e.is .end_ = false := by
  simp [Conf.closed, fresh]

omit [Host] in
theorem stopping_unended (fresh : s.chat.turnRecorded = false) :
    ∀ e ∈ s.stopping.events, e.is .end_ = false := by
  simp [Conf.stopping, fresh]

omit [Host] in
theorem opening_unended (message : PendingMessage) (delivery : Delivery) :
    ∀ e ∈ [s.chat.logged (s.chat.opening message delivery)], e.is .end_ = false := by
  intro e member
  rw [List.mem_singleton.mp member]
  cases open_ : s.chat.inTurn <;>
    simp [Chat.opening, open_, Event.is, Event.with_, Event.saying, Event.new]

/-- Only the runner's own END is written where no turn is recorded. -/
theorem Ran.unended (ran : Ran s call calls t) (other : ∀ epoch report, call ≠ .absorb epoch report) :
    Unended s t := by
  have none_ {d : Delta} (gave : Gave s t d) (events : d.events = []) : Unended s t :=
    gave.unended fun _ e member => by simp [events] at member
  cases ran with
  | moved _ still =>
    obtain ⟨es, hlog, -, hes⟩ := still.quiet.log
    exact ⟨es, hlog, fun _ => not_end_of_bookkeeping hes⟩
  | replaced _ _ quiet =>
    obtain ⟨es, hlog, -, hes⟩ := quiet.log
    exact ⟨es, hlog, fun _ => not_end_of_bookkeeping hes⟩
  | delivered _ _ gave => exact gave.unended fun _ => opening_unended _ _
  | late => exact absurd rfl (other _ _)
  | reacted => exact absurd rfl (other _ _)
  | confirmed => exact absurd rfl (other _ _)
  | closed _ _ gave _ => exact gave.unended closed_unended
  | queuedFresh closed gave _ | gaveUp closed gave _ =>
    obtain ⟨es, hlog, -, hes⟩ := gave.log
    refine (closed.unended closed_unended).trans ⟨es, ?_, hes⟩
    rw [hlog]
    exact congrArg (· ++ es) (List.append_nil _)
  | stopped _ gave => exact gave.unended stopping_unended
  | _ =>
    rename_i gave
    exact none_ gave rfl

theorem Died.unended (died : Died s call t) (other : ∀ epoch report, call ≠ .absorb epoch report) :
    Unended s t := by
  have same {v : Conf} {disk : Disk} (ends : Ends v t disk) (log : disk.log = s.chat.store.events) : Unended s t := by
    refine ends.unended (log.trans (List.append_nil _).symm) ?_
    simp
  have one {v : Conf} {disk : Disk} {e : Event} (ends : Ends v t disk) (log : disk.log = s.chat.store.events ++ [e])
      (recorded : s.chat.turnRecorded = true) : Unended s t :=
    ends.unended log fun fresh => by cases recorded.symm.trans fresh
  have later {u v : Conf} {disk : Disk} (before : Unended s u) (ends : Ends v t disk)
      (log : disk.log = u.chat.store.events) : Unended s t := by
    obtain ⟨es, hlog, -, hes⟩ := ends.log
    exact before.trans ⟨es, log ▸ hlog, hes⟩
  cases died with
  | opened _ ends | delivered _ ends => exact ends.unended rfl fun _ => opening_unended _ _
  | heard => exact absurd rfl (other _ _)
  | confirming => exact absurd rfl (other _ _)
  | confirmed => exact absurd rfl (other _ _)
  | closing _ recorded ends => exact one ends rfl recorded
  | closed _ gave ends => exact later (gave.unended closed_unended) ends rfl
  | drawingFresh closed ends | queuedFresh closed ends | gaveUp closed ends =>
    exact later (closed.unended closed_unended) ends rfl
  | stopped recorded ends => exact one ends rfl recorded
  | stoppedClosed gave ends => exact later (gave.unended stopping_unended) ends rfl
  | _ =>
    rename_i ends
    exact same ends rfl

end calls

section runs
variable [Host] {s t : System}

/-- A running conductor: its desk knows of every open turn, and a stop leaves none. -/
structure Pairing (s : Conf) (calls : List Call) : Prop where
  paired : Paired s.chat.desk s.chat.store.events
  order : s.chat.Poised calls ∨ s.chat.Over calls
  stops : s.chat.stopping = true ∨ Call.shutdown ∈ calls → Call.stopped ∈ calls ∨
    (startOpen s.chat.store.events = false ∧ ∀ call ∈ calls, call = .publish)

theorem Ran.published {s t : Conf} {calls : List Call} (ran : Ran s .publish calls t) :
    calls = [] ∧ startOpen t.chat.store.events = startOpen s.chat.store.events := by
  cases ran with
  | moved leads still =>
    cases leads
    obtain ⟨es, hlog, -, hes⟩ := still.quiet.log
    exact ⟨rfl, by rw [hlog, startOpen_append (idle_of_bookkeeping hes)]⟩
  | closed call_eq => rcases call_eq with ⟨_, _, h⟩ | ⟨_, h⟩ <;> cases h

theorem pairing_ran {s t : Conf} {call : Call} {calls rest : List Call} (h : Pairing s (call :: rest))
    (takes : s.TakesTurns call) (cleared : call.Cleared s.chat)
    (delivers : call = .deliver → s.chat.inTurn = true → s.chat.turnRecorded = false →
      t.chat.turnRecorded = false)
    (publishes : call = .publish → calls = [] ∧ t.chat.state = s.chat.state) (ran : Ran s call calls t) :
    Pairing t (calls ++ rest) := by
  have paired := paired_ran h.paired takes delivers ran
  by_cases stops : call = .stopped
  · subst stops
    rcases h.order with poised | ⟨-, -, only⟩
    · obtain ⟨-, rfl⟩ := poised.stops
      cases ran with
      | moved leads =>
        cases leads with
        | pause pauses => cases pauses
      | closed call_eq => rcases call_eq with ⟨_, _, h⟩ | ⟨_, h⟩ <;> cases h
      | stopped status gave =>
        have recorded : t.chat.turnRecorded = false := congrArg Desk.turnRecorded gave.desk
        have closed : startOpen t.chat.store.events = false := by
          by_contra opened
          cases recorded.symm.trans (paired.opened (Bool.eq_true_of_not_eq_false opened))
        have stopping : t.chat.stopping = s.chat.stopping := congrArg Desk.stopping gave.desk
        refine ⟨paired, .inr ⟨status, stopping.trans poised.stops.1, ?_⟩, fun _ => .inr ⟨closed, ?_⟩⟩
        · simp
        · simp
    · cases only _ List.mem_cons_self
  · have order : t.chat.Poised (calls ++ rest) ∨ t.chat.Over (calls ++ rest) := by
      rcases h.order with poised | ⟨status, stopping, only⟩
      · exact .inl (poised.next stops ran).2
      · obtain rfl := only _ List.mem_cons_self
        obtain ⟨rfl, same⟩ := publishes rfl
        refine .inr ⟨same ▸ status, ?_, fun k member => only k (List.mem_cons_of_mem _ member)⟩
        rcases ran.stopping with kept | ⟨⟨⟩, -⟩
        exact kept.trans stopping
    refine ⟨paired, order, fun now => ?_⟩
    have before : s.chat.stopping = true ∨ Call.shutdown ∈ call :: rest := by
      rcases now with stopping | member
      · rcases ran.stopping with kept | ⟨rfl, -⟩
        · exact .inl (kept.symm.trans stopping)
        · exact .inr List.mem_cons_self
      · rcases List.mem_append.mp member with member | member
        · exact absurd rfl (ran.spared cleared _ member)
        · exact .inr (List.mem_cons_of_mem _ member)
    rcases h.stops before with member | ⟨closed, only⟩
    · rcases List.mem_cons.mp member with same | member
      · exact absurd same.symm stops
      · exact .inl (List.mem_append_right _ member)
    · obtain rfl := only _ List.mem_cons_self
      obtain ⟨rfl, same⟩ := ran.published
      exact .inr ⟨same.trans closed, fun k member => only k (List.mem_cons_of_mem _ member)⟩

theorem takes_delivers {s : Conf} {call : Call} (takes : s.TakesTurns call) :
    wp (run call) (fun _ t => call = .deliver → s.chat.inTurn = true → s.chat.turnRecorded = false →
      t.chat.turnRecorded = false) (fun _ _ => True) s := by
  by_cases delivers : call = .deliver
  · subst delivers
    by_cases fresh : s.chat.inTurn = true ∧ s.chat.turnRecorded = false
    · have echoing := (takes fresh.1).resolve_left (by simp [fresh.2])
      exact wp_mono (deliver_unrecorded echoing) (fun _ _ ht _ _ idle => ht.trans idle) fun _ _ => id
    · exact wp_mono (run_ran .deliver) (fun _ _ _ _ open_ idle => absurd ⟨open_, idle⟩ fresh)
        fun _ _ _ => trivial
  · exact wp_mono (run_ran call) (fun _ _ _ heq => absurd heq delivers) fun _ _ _ => trivial

omit [Host] in
theorem wake_pairing {s : Conf} (h : Paired s.chat.desk s.chat.store.events)
    (live : s.chat.stopping = false) (wake : Wake) : Pairing s wake.calls where
  paired := h
  order := .inl (wake_poised wake s.chat)
  stops := by
    rintro (stopping | member)
    · cases live.symm.trans stopping
    · cases wake with
      | stop drained => exact .inl (List.mem_append_right _ List.mem_cons_self)
      | _ => simp [Wake.calls] at member

namespace System

/-- A running conductor pairs its turns; whatever is left of one that ended, its log alternates. -/
structure Pairs (s : System) : Prop where
  live : s.ended = false → Pairing s.conf s.stack
  log : Alternates s.conf.chat.store.events

theorem opening_pairs (past : Conf) (sound : past.books.Sound)
    (log : Alternates past.chat.store.events) (closed : startOpen past.chat.store.events = false)
    (providers : List String) (cwd : Option String) (env : Env) :
    (opening past.chat.sessionId past.chat.disk past providers cwd env).Pairs := by
  refine opening_cases sound providers cwd env (P := Pairs) (fun t opened => ?_) fun t failed _ => ?_
  · have same : t.chat.store.events = past.chat.store.events := opened.counted.log
    refine ⟨fun _ => ⟨?_, .inl (poised_of_patient (by simp) _), ?_⟩, same ▸ log⟩
    · rw [opened.desk, same]
      refine ⟨log, fun start => ?_, by rintro ⟨⟩, Nat.zero_le _⟩
      cases closed.symm.trans start
    · have live : t.chat.stopping = false := congrArg Desk.stopping opened.desk
      rintro (stopping | member)
      · cases live.symm.trans stopping
      · cases member
  · exact ⟨by rintro ⟨⟩, failed.counted.log ▸ log⟩

theorem advance_pairs (reach : Reach TurnTaking s) (h : s.Pairs) (allowed : s.TurnTaking .advance)
    (step : s.advance = some t) : t.Pairs := by
  have authority := (authority_invariant TurnTaking).holds reach
  obtain ⟨conf, stack, ended⟩ := s
  unfold System.advance at step
  cases ended with
  | true => cases step
  | false =>
    cases stack with
    | nil => cases step
    | cons call rest =>
      have takes : conf.TakesTurns call := allowed call rfl
      have cleared := (authority.live rfl).primed.1
      have live := h.live rfl
      have hwp := wp_and (run_ran call) (wp_and (takes_delivers takes) (publish_keeps conf call))
      unfold wp at hwp
      dsimp only at step
      cases hrun : run call conf with
      | ok calls u =>
        rw [hrun] at hwp step
        cases step
        obtain ⟨ran, delivers, publishes⟩ := hwp
        have next := pairing_ran live takes cleared delivers publishes ran
        exact ⟨fun _ => next, next.paired.alternates⟩
      | error e u =>
        rw [hrun] at hwp step
        have log := alternates_died live.paired takes hwp.1
        cases e <;> cases step <;> exact ⟨by rintro ⟨⟩, log⟩

theorem reach_pairs (reach : Reach TurnTaking s) : s.Pairs := by
  refine reach.invariant ?_ ?_
  · intro s hs
    obtain ⟨sessionId, providers, cwd, env, heq⟩ := hs
    rw [heq, fresh_eq]
    exact opening_pairs (Conf.blank sessionId env) (blank_sound sessionId env) alternates_nil rfl
      providers cwd env
  · intro s m t reach h allowed step
    cases m with
    | reopen providers cwd env =>
      cases step
      have sound : s.conf.books.Sound := by
        have holds := (accounted_invariant TurnTaking).holds reach
        cases gone : s.ended with
        | true => exact holds.dead gone
        | false => exact (holds.live gone).sound
      exact opening_pairs s.conf sound h.log allowed providers cwd env
    | receive wake env =>
      have running := ((authority_invariant TurnTaking).holds reach).running
      dsimp only [machine, System.step] at step
      split at step
      next able =>
        cases step
        obtain ⟨⟨stack, live⟩, -⟩ : (s.stack = [] ∧ s.ended = false) ∧ _ := by
          simpa [waiting] using able.1
        have pairing := wake_pairing (h.live live).paired (running live stack) wake
        exact ⟨fun _ => ⟨pairing.paired, pairing.order, pairing.stops⟩, h.log⟩
      next => cases step
    | deadline env =>
      have running := ((authority_invariant TurnTaking).holds reach).running
      dsimp only [machine, System.step] at step
      split at step
      next able =>
        cases step
        obtain ⟨stack, live, -⟩ : s.stack = [] ∧ s.ended = false ∧ _ := by simpa using able
        have still := running live stack
        refine ⟨fun _ => ⟨(h.live live).paired, .inl (poised_of_patient (by simp [Call.Patient]) _), ?_⟩, h.log⟩
        rintro (stopping | member)
        · cases still.symm.trans stopping
        · simp at member
      next => cases step
    | advance => exact advance_pairs reach h allowed step

/-- Turns pair up in the log. Between two START events there is an END; once a stop has gone through
every START has its END; and the conductor writes an END of its own only for a turn the log has open. -/
theorem turns_pair (reach : Reach TurnTaking s) :
    Alternates s.conf.chat.store.events ∧
    (s.ended = false → s.conf.chat.stopping = true → (∀ call ∈ s.stack, call ≠ .stopped) →
      startOpen s.conf.chat.store.events = false) ∧
    (∀ (call : Call) (rest : List Call) (t : System) (es : List Event), s.stack = call :: rest →
      (∀ epoch report, call ≠ .absorb epoch report) → machine.step s .advance = some t →
      t.conf.chat.store.events = s.conf.chat.store.events ++ es → (∃ e ∈ es, e.is .end_ = true) →
        0 < unended s.conf.chat.store.events) := by
  have pairs := reach_pairs reach
  refine ⟨pairs.log, fun live stopping past => ?_, ?_⟩
  · rcases (pairs.live live).stops (.inl stopping) with member | ⟨closed, -⟩
    · exact absurd rfl (past _ member)
    · exact closed
  · rintro call rest t es stack other step log ⟨e, member, ends⟩
    obtain ⟨conf, calls, ended⟩ := s
    dsimp only at stack log ⊢
    subst stack
    dsimp only [machine, System.step] at step
    unfold System.advance at step
    cases ended with
    | true => cases step
    | false =>
      have paired := (pairs.live rfl).paired
      have written : Unended conf t.conf := by
        have hwp : wp (run call) (fun calls u => Ran conf call calls u) (fun _ u => Died conf call u) conf :=
          run_ran call
        unfold wp at hwp
        dsimp only at step
        cases hrun : run call conf with
        | ok calls u =>
          rw [hrun] at hwp step
          cases step
          exact hwp.unended other
        | error e u =>
          rw [hrun] at hwp step
          cases e <;> cases step <;> exact hwp.unended other
      obtain ⟨fs, same, none_⟩ := written
      rw [List.append_cancel_left (log.symm.trans same)] at member
      have recorded : conf.chat.desk.turnRecorded = true := by
        by_contra fresh
        rw [none_ (Bool.eq_false_of_not_eq_true fresh) e member] at ends
        cases ends
      have counted := paired.counted
      rw [recorded] at counted
      simp only [Bool.toNat_true] at counted
      omega

end System
end runs

section samples
attribute [local instance] Host.ascii

instance (s : Conf) : (call : Call) → Decidable (s.TakesTurns call)
  | .deliver => inferInstanceAs
      (Decidable (s.chat.inTurn = true → s.chat.turnRecorded = true ∨ s.echoing = true))
  | .absorb epoch report => inferInstanceAs (Decidable (s.chat.runnerEpoch = some epoch →
      ((s.chat.takenIn epoch report false).confirmedAs = some .start → s.chat.turnRecorded = false) ∧
      ((s.chat.takenIn epoch report false).confirmedAs = some .injected ∨ report.type = .end_ →
        s.chat.turnRecorded = true ∨ s.chat.nextTurns = 0)))
  | .recoveryEnded _ => inferInstanceAs (Decidable (s.chat.turnRecorded = false))
  | .launchOnce | .enqueue _ | .dispatchQueued | .flush | .refused _ | .attempt .. | .replace ..
  | .unauthenticated _ | .failed .. | .recoverContext _ | .startHandoff | .recoveryMessage ..
  | .recoveryFailed _ | .resumeRecovery | .finishTurn | .settleIdle | .apply _ | .shutdown
  | .stopped | .publish => .isTrue trivial

instance (s : System) : (m : Move) → Decidable (s.TurnTaking m)
  | .advance => inferInstanceAs (Decidable (∀ call ∈ s.stack.head?, s.conf.TakesTurns call))
  | .reopen .. => inferInstanceAs (Decidable (startOpen s.conf.chat.store.events = false))
  | .receive .. | .deadline _ => .isTrue trivial

/-- Claude-code takes messages only to echo them. -/
def Env.echoing : Env := { Env.answering "claude-code" with send := fun _ _ => .ok .echoed }

/-- The runner with this epoch says that the message opened a turn. -/
def Wake.started (epoch : ℕ) (text : String) : Wake :=
  .heard epoch { type := .confirmed, text, extra := [(CONFIRMED_AS, .string "start")] }

namespace System

/-- Two turns, and a stop in the second. -/
def twoTurns : List Move :=
  .receive (.send "a") Env.echoing :: List.replicate 8 Move.advance ++
    .receive (.started 1 "a") Env.echoing :: List.replicate 2 Move.advance ++
    .receive (.heard 1 { type := .end_ }) Env.echoing :: List.replicate 6 Move.advance ++
    .receive (.send "b") Env.echoing :: List.replicate 6 Move.advance ++
    .receive (.started 1 "b") Env.echoing :: List.replicate 2 Move.advance ++
    .receive (.stop []) Env.echoing :: List.replicate 2 Move.advance

theorem turns_pair_stop :
    ∃ s t : System, (s.conf.chat.store.events.filter (·.is .start)).length = 2 ∧
      machine.step s .advance = some t ∧ Alternates t.conf.chat.store.events ∧
      0 < unended s.conf.chat.store.events ∧ t.conf.chat.stopping = true ∧
      startOpen t.conf.chat.store.events = false := by
  have run : ∃ s t, after "chat" ["claude-code"] Env.ascii (twoTurns.take 31) = some s ∧
      machine.step s .advance = some t ∧ (s.stack.head?.any fun call => call.drains && !call.mayPause) = true ∧
      (s.conf.chat.store.events.filter (·.is .start)).length = 2 ∧ t.ended = false ∧
      t.conf.chat.stopping = true ∧ t.stack.all Call.mayPause = true ∧
      t.conf.chat.store.events.take 5 = s.conf.chat.store.events ∧
      ∃ e ∈ t.conf.chat.store.events.drop 5, e.is .end_ = true :=
    ⟨_, _, Option.eq_some_of_isSome (by decide +kernel), Option.eq_some_of_isSome (by decide +kernel),
      by decide +kernel, by decide +kernel, by decide +kernel, by decide +kernel, by decide +kernel,
      by decide +kernel, by decide +kernel⟩
  obtain ⟨s, t, hs, step, stops, starts, live, stopping, pauses, log, ends⟩ := run
  have start : Reach TurnTaking (fresh "chat" ["claude-code"] none Env.ascii) :=
    .init ⟨"chat", ["claude-code"], none, Env.ascii, rfl⟩
  have along : machine.Along TurnTaking (fresh "chat" ["claude-code"] none Env.ascii)
      (twoTurns.take 31) := by decide +kernel
  have reach : Reach TurnTaking s := start.exec along hs
  cases stack : s.stack with
  | nil =>
    rw [stack] at stops
    cases stops
  | cons call rest =>
    rw [stack] at stops
    have other : ∀ epoch report, call ≠ .absorb epoch report := by
      rintro epoch report rfl
      cases stops
    have allowed : s.TurnTaking .advance := by
      intro k member
      rw [stack] at member
      obtain rfl : call = k := Option.some.inj member
      cases call <;> first | exact True.intro | cases stops
    have next : Reach TurnTaking t := reach.step allowed step
    have split_ : t.conf.chat.store.events = s.conf.chat.store.events ++ t.conf.chat.store.events.drop 5 := by
      rw [← log, List.take_append_drop]
    refine ⟨s, t, starts, step, (turns_pair next).1, ?_, stopping, ?_⟩
    · exact (turns_pair reach).2.2 call rest t _ stack other step split_ ends
    · refine (turns_pair next).2.1 live stopping fun k member => ?_
      rintro rfl
      cases List.all_eq_true.mp pauses _ member

/-- A turn is open with claude-code when it dies, and its successor opens another. -/
def diedAndStarted : List Move :=
  let gone : Env := { Env.echoing with alive := fun _ runner => runner.instance_ ≠ 0 }
  .receive (.send "a") Env.echoing :: List.replicate 8 Move.advance ++
    .receive (.started 1 "a") Env.echoing :: List.replicate 2 Move.advance ++
    .receive (.send "b") gone :: List.replicate 8 Move.advance ++
    .receive (.started 2 "b") gone :: List.replicate 2 Move.advance

/-- No runner ended a turn, and the log has two START events with nothing to close the first. -/
theorem turns_unpaired :
    ∃ s : System, Reachable s ∧ (s.conf.chat.store.events.filter (·.is .start)).length = 2 ∧
      (∀ e ∈ s.conf.chat.store.events, e.is .end_ = false) ∧ ¬Alternates s.conf.chat.store.events := by
  have run : ∃ s, after "chat" ["claude-code"] Env.ascii diedAndStarted = some s ∧
      (s.conf.chat.store.events.filter (·.is .start)).length = 2 ∧
      (s.conf.chat.store.events.all fun e => !e.is .end_) = true ∧
      s.conf.chat.store.events = s.conf.chat.store.events.take 2 ++ s.conf.chat.store.events.getD 2 default ::
        (s.conf.chat.store.events.drop 3).take 1 ++ s.conf.chat.store.events.getD 4 default :: [] ∧
      (s.conf.chat.store.events.getD 2 default).is .start = true ∧
      (s.conf.chat.store.events.getD 4 default).is .start = true :=
    ⟨_, Option.eq_some_of_isSome (by decide +kernel), by decide +kernel, by decide +kernel,
      by decide +kernel, by decide +kernel, by decide +kernel⟩
  obtain ⟨s, hs, starts, never, split_, hfirst, hsecond⟩ := run
  have none_ : ∀ e ∈ s.conf.chat.store.events, e.is .end_ = false := by
    intro e member
    simpa using List.all_eq_true.mp never e member
  refine ⟨s, reachable_after hs, starts, none_, fun alternates => ?_⟩
  obtain ⟨e, member, closes⟩ := alternates _ _ _ _ _ split_ hfirst hsecond
  have within : e ∈ s.conf.chat.store.events := List.mem_of_mem_drop (List.mem_of_mem_take member)
  simp [Event.closes, none_ e within] at closes

end System
end samples
end SiliconOmni
