import SiliconOmni.Chat.Accounts
import SiliconOmni.Chat.Tending

/-! The log numbers its events and its turns, and the conductor keeps both counts. -/
namespace SiliconOmni
open Lib Frame

/-- The turns that the STARTs of a log open. -/
def startTurns (log : List Event) : List ℤ := (log.filter (·.is .start)).map (·.turn)

/-- The STARTs are numbered from 0 up to `turn`, and no event belongs to a later turn. -/
def Numbered (log : List Event) (turn : ℤ) : Prop :=
  ∃ n : ℕ, startTurns log = (List.range n).map (fun i : ℕ => (i : ℤ)) ∧
    ({ events := log } : Store).turn = turn ∧ turn = n - 1

/-- The event may be logged in that turn: a START opens the next one. -/
def Timed (turn : ℤ) (event : Event) : Prop :=
  if event.eventType = .start then event.turn = turn + 1 else event.turn ≤ turn

namespace Numbered
variable {log : List Event} {turn : ℤ} {e : Event}

theorem nil : Numbered [] (-1) := ⟨0, rfl, rfl, rfl⟩

theorem lower (h : Numbered log turn) : -1 ≤ turn := by
  obtain ⟨n, -, -, hn⟩ := h
  omega

theorem append (h : Numbered log turn) (timed : Timed turn e) :
    Numbered (log ++ [e]) (max turn e.turn) := by
  obtain ⟨n, starts, hturn, hn⟩ := h
  have fold : ({ events := log ++ [e] } : Store).turn =
      if 0 ≤ e.turn then max turn e.turn else if e.is .start then turn + 1 else turn := by
    unfold Store.turn at hturn ⊢
    rw [List.foldl_append, hturn]
    rfl
  unfold Timed at timed
  unfold startTurns at starts
  by_cases hs : e.eventType = .start
  · rw [if_pos hs] at timed
    refine ⟨n + 1, ?_, ?_, ?_⟩
    · have one : [e].filter (·.is .start) = [e] := by simp [Event.is, hs]
      rw [startTurns, List.filter_append, one, List.map_append, starts, List.range_succ,
        List.map_append]
      simp only [List.map_cons, List.map_nil, List.append_cancel_left_eq, List.cons.injEq, and_true]
      omega
    · rw [fold, if_pos (by omega)]
    · push_cast
      omega
  · rw [if_neg hs] at timed
    have most : max turn e.turn = turn := max_eq_left timed
    refine ⟨n, ?_, ?_, by rw [most, hn]⟩
    · have none_ : [e].filter (·.is .start) = [] := by simp [Event.is, hs]
      rw [startTurns, List.filter_append, none_, List.append_nil, starts]
    · have plain : e.is .start = false := by simp [Event.is, hs]
      rw [fold, plain, most]
      simp

end Numbered

/-- A conductor that agrees with its log on what was logged last and on the turn. -/
structure Keeping (s : Conf) : Prop where
  numbered : Numbered s.chat.store.events s.chat.turn
  seq : s.chat.state.seq = s.chat.store.seq
  epochs : ∀ epoch turn, s.chat.epochTurns epoch = some turn → turn ≤ s.chat.turn
  above : ∀ e ∈ s.chat.store.events, -1 ≤ e.turn

/-- What a conductor that ended leaves: the events it acknowledged, and perhaps one more. -/
structure Remnant (t : Conf) (acked last : List Event) : Prop where
  log : t.chat.store.events = acked ++ last
  numbered : Numbered acked t.chat.turn
  seq : t.chat.state.seq = ({ events := acked } : Store).seq
  once : last.length ≤ 1
  timed : ∀ e ∈ last, Timed t.chat.turn e
  above : ∀ e ∈ t.chat.store.events, -1 ≤ e.turn

theorem Keeping.remnant {s : Conf} (h : Keeping s) : Remnant s s.chat.store.events [] where
  log := (List.append_nil _).symm
  numbered := h.numbered
  seq := h.seq
  once := Nat.zero_le _
  timed := fun _ he => by cases he
  above := h.above

/-- More of the same log, still counted. -/
structure Extends (s t : Conf) : Prop where
  keeping : Keeping t
  turn : s.chat.turn ≤ t.chat.turn
  log : s.chat.store.events <+: t.chat.store.events

/-- A halt that keeps the whole log. -/
def Quits (s t : Conf) : Prop :=
  ∃ acked last, Remnant t acked last ∧ s.chat.store.events <+: acked

namespace Extends
variable {s t u : Conf}

theorem refl (h : Keeping s) : Extends s s := ⟨h, le_rfl, List.prefix_refl _⟩

theorem trans (h : Extends s t) (h' : Extends t u) : Extends s u :=
  ⟨h'.keeping, h.turn.trans h'.turn, h.log.trans h'.log⟩

theorem trans_quits (h : Extends s t) (h' : Quits t u) : Quits s u := by
  obtain ⟨acked, last, hu, hlog⟩ := h'
  exact ⟨acked, last, hu, h.log.trans hlog⟩

theorem quits (h : Extends s t) : Quits s t := ⟨_, _, h.keeping.remnant, h.log⟩

end Extends

/-- Steps that only add to the log, and keep count of it. -/
def keeping : Frame Conf where
  live s t := Keeping s → Extends s t
  halted s t := Keeping s → Quits s t
  refl _ := Extends.refl
  trans h h' hs := (h hs).trans (h' (h hs).keeping)
  trans_halted h h' hs := (h hs).trans_quits (h' (h hs).keeping)

section primitives
variable {α : Type} {s t : Conf}

theorem Keeping.same (h : Keeping s) (counts : t.chat.counts = s.chat.counts) : Keeping t := by
  simp only [Chat.counts, Prod.mk.injEq] at counts
  obtain ⟨store, turn, epochTurns, seq⟩ := counts
  refine ⟨?_, ?_, ?_, ?_⟩
  · rw [store, turn]
    exact h.numbered
  · rw [seq, store]
    exact h.seq
  · rw [epochTurns, turn]
    exact h.epochs
  · rw [store]
    exact h.above

/-- A step that leaves the counts alone is within the frame. -/
theorem keeping_same (counts : t.chat.counts = s.chat.counts) : keeping.live s t := by
  intro h
  have log : t.chat.store = s.chat.store := congrArg Prod.fst counts
  have turn : t.chat.turn = s.chat.turn := congrArg (·.2.1) counts
  exact ⟨h.same counts, turn.ge, log ▸ List.prefix_refl _⟩

theorem halted_same (counts : t.chat.counts = s.chat.counts) : keeping.halted s t :=
  fun h => (keeping_same counts h).quits

/-- Only the states that keep count matter. -/
theorem holds_of_keeping {m : Conductor α}
    (hm : ∀ s, Keeping s → wp m (fun _ t => Extends s t) (fun _ t => Quits s t) s) :
    keeping.Holds m := by
  intro s
  by_cases h : Keeping s
  · exact wp_mono (hm s h) (fun _ _ ht _ => ht) fun _ _ ht _ => ht
  · unfold wp
    split
    · exact fun hs => absurd hs h
    · exact fun hs => absurd hs h

/-- From a state that keeps count, what stays in the frame goes on from there. -/
theorem wp_extends {m : Conductor α} (h : Extends s t) (hm : keeping.Holds m) :
    wp m (fun _ u => Extends s u) (fun _ u => Quits s u) t :=
  hm.wp (fun _ _ hu => h.trans (hu h.keeping)) fun _ _ hu => h.trans_quits (hu h.keeping)

theorem wp_extends_bind {β : Type} {m : Conductor α} {f : α → Conductor β} (h : Extends s t)
    (hm : keeping.Holds m)
    (hf : ∀ a u, Extends s u → wp (f a) (fun _ v => Extends s v) (fun _ v => Quits s v) u) :
    wp (m >>= f) (fun _ v => Extends s v) (fun _ v => Quits s v) t := by
  rw [wp_bind]
  exact wp_mono (wp_extends h hm) hf fun _ _ => id

theorem asks_keeping (question : Env → ℕ → α) : keeping.Holds (asks question) :=
  fun _ => keeping_same rfl

theorem notes_keeping (os : List Obs) : keeping.Holds (notes os) := fun _ => keeping_same rfl

theorem change_keeping {f : Chat → Chat} (h : ∀ c, (f c).counts = c.counts) :
    keeping.Holds (change f) := fun s => keeping_same (h s.chat)

theorem settle_keeping {f : Chat → Snapshot → Snapshot}
    (same : ∀ c state, (f c state).seq = state.seq) :
    keeping.Holds (change fun c => c.settle (f c)) :=
  change_keeping fun c => congrArg (fun seq => (c.store, c.turn, c.epochTurns, seq)) (same c c.state)

theorem throw_keeping (e : Halt) : keeping.Holds (throw e : Conductor α) :=
  fun _ => halted_same rfl

theorem persistenceFailed_keeping (action error : String) :
    keeping.Holds (persistenceFailed action error : Conductor α) := fun _ => halted_same rfl

theorem tryCommit_keeping (edit : MetaData → MetaData) : keeping.Holds (tryCommit edit) := by
  unfold tryCommit
  refine holds_bind Admits.holds_self fun c => ?_
  split
  · exact holds_pure _
  · refine holds_ite (holds_pure _) (holds_bind (asks_keeping _) fun answer => ?_)
    split
    · exact holds_bind (change_keeping fun _ => rfl) fun _ => holds_pure _
    · exact holds_pure _
    · exact holds_bind (change_keeping fun _ => rfl) fun _ => throw_keeping _

theorem commit_keeping (action : String) (edit : MetaData → MetaData) :
    keeping.Holds (commit action edit) := by
  unfold commit
  refine holds_bind (tryCommit_keeping _) fun answer => ?_
  split
  · exact holds_pure _
  · exact persistenceFailed_keeping _ _

/-- An event is logged under its own turn or under the conductor's. -/
theorem Keeping.above_logged (h : Keeping s) (event : Event) :
    ∀ e ∈ s.chat.store.events ++ [s.chat.logged event], -1 ≤ e.turn := by
  have lower := h.numbered.lower
  intro e he
  rcases List.mem_append.mp he with hold | hnew
  · exact h.above e hold
  · rw [List.mem_singleton.mp hnew]
    show -1 ≤ if event.turn < 0 then s.chat.turn else event.turn
    split <;> omega

/-- An event that fits the turn is logged, or it is the one event a halt may leave behind. -/
theorem wp_record_timed {Q : Event → Conf → Prop} {event : Event} (h : Keeping s)
    (timed : Timed s.chat.turn (s.chat.logged event))
    (hdone : Q (s.chat.logged event) (s.recorded event)) :
    wp (record event) Q (fun _ t => Quits s t) s := by
  have whole {t : Conf} (log : t.chat.store = s.chat.store.push (s.chat.logged event))
      (turn : t.chat.turn = s.chat.turn) (seq : t.chat.state.seq = s.chat.state.seq) :
      Quits s t := by
    refine ⟨s.chat.store.events, [s.chat.logged event], ⟨?_, ?_, ?_, le_rfl, ?_, ?_⟩,
      List.prefix_refl _⟩
    · rw [log]
      rfl
    · rw [turn]
      exact h.numbered
    · rw [seq]
      exact h.seq
    · rw [turn]
      simpa using timed
    · rw [log]
      exact h.above_logged event
  unfold record
  simp only [wp_bind, wp_self]
  split
  · exact halted_same (s := s) rfl h
  · simp only [wp_bind, wp_asks]
    split
    · exact hdone
    · exact halted_same (s := s) rfl h
    · exact whole rfl rfl rfl
    · exact whole rfl rfl rfl

/-- Once the turn is what the new event says, the count is right again. -/
theorem Keeping.recorded {event : Event} (h : Keeping s)
    (timed : Timed s.chat.turn (s.chat.logged event))
    (counts : t.chat.counts = { (s.recorded event).chat with
      turn := max s.chat.turn (s.chat.logged event).turn }.counts) : Extends s t := by
  simp only [Chat.counts, Prod.mk.injEq] at counts
  obtain ⟨store, turn, epochTurns, seq⟩ := counts
  have log : t.chat.store.events = s.chat.store.events ++ [s.chat.logged event] :=
    congrArg Store.events store
  refine ⟨⟨?_, ?_, ?_, log ▸ h.above_logged event⟩, ?_, ?_⟩
  · rw [log, turn]
    exact h.numbered.append timed
  · rw [seq, store]
    show s.chat.store.seq + 1 = (s.chat.store.push (s.chat.logged event)).seq
    unfold Store.push Store.seq
    rw [List.getLast?_concat]
    rfl
  · intro epoch owned known
    rw [epochTurns] at known
    rw [turn]
    exact (h.epochs _ _ known).trans (le_max_left _ _)
  · rw [turn]
    exact le_max_left _ _
  · rw [log]
    exact List.prefix_append _ _

/-- The turn of an event once it is stamped. -/
theorem logged_turn_le {event : Event} (turn : event.turn ≤ s.chat.turn) :
    (s.chat.logged event).turn ≤ s.chat.turn := by
  show (if event.turn < 0 then s.chat.turn else event.turn) ≤ s.chat.turn
  split
  · exact le_rfl
  · exact turn

theorem timed_other {event : Event} (other : event.eventType ≠ .start)
    (turn : event.turn ≤ s.chat.turn) : Timed s.chat.turn (s.chat.logged event) := by
  unfold Timed
  rw [if_neg (by exact other)]
  exact logged_turn_le turn

theorem wp_record_other {Q : Event → Conf → Prop} {event : Event} (h : Keeping s)
    (other : event.eventType ≠ .start) (turn : event.turn ≤ s.chat.turn)
    (hdone : Extends s (s.recorded event) → Q (s.chat.logged event) (s.recorded event)) :
    wp (record event) Q (fun _ t => Quits s t) s := by
  refine wp_record_timed h (timed_other other turn) (hdone ?_)
  refine h.recorded (timed_other other turn) ?_
  rw [max_eq_left (logged_turn_le turn)]
  rfl

/-- What the conductor logs of its own accord belongs to the turn at hand. -/
theorem record_keeping {event : Event} (other : event.eventType ≠ .start) (turn : event.turn = -1) :
    keeping.Holds (record event) :=
  holds_of_keeping fun _ h => wp_record_other h other (turn ▸ h.numbered.lower) id

/-- What is remembered of the runners' turns may change, within the turn at hand. -/
theorem keeping_epochs {epochTurns : ℕ → Option ℤ} {nextRunnerEpoch : ℕ}
    (known : Keeping s → ∀ epoch turn, epochTurns epoch = some turn → turn ≤ s.chat.turn) :
    keeping.live s { s with chat := { s.chat with epochTurns, nextRunnerEpoch } } :=
  fun h => ⟨⟨h.numbered, h.seq, known h, h.above⟩, le_rfl, List.prefix_refl _⟩

theorem Keeping.updated (h : Keeping s) (newest epoch : ℕ) (turn : ℤ)
    (known : Function.update s.chat.epochTurns newest (some s.chat.turn) epoch = some turn) :
    turn ≤ s.chat.turn := by
  by_cases he : epoch = newest
  · rw [he, Function.update_self] at known
    exact (Option.some.inj known).ge
  · rw [Function.update_of_ne he] at known
    exact h.epochs _ _ known

theorem keeping_man {f : Chat → Chat} (same : ∀ c, (f c).unmanned = c.unmanned) :
    keeping.Holds (change f) := by
  have counts (c : Chat) : (f c).unmanned.counts = c.unmanned.counts :=
    congrArg Chat.counts (same c)
  exact change_keeping counts

/-- Whatever is done to runners keeps count of the log. -/
theorem keeping_mans : Mans keeping where
  asks := asks_keeping
  notes _ := notes_keeping _
  change same _ := keeping_man same
  man := keeping_man
  settle := settle_keeping
  tryCommit _ := tryCommit_keeping _
  halt := persistenceFailed_keeping
  record := fun book turn => record_keeping (by
    intro start
    rw [Event.isBookkeeping, start] at book
    simp [EventType.isBookkeeping] at book) turn
  build _ := keeping_same rfl
  remember := by
    intro s
    refine keeping_epochs fun h => ?_
    cases s.chat.runnerEpoch with
    | none => exact h.epochs
    | some attached => exact h.updated attached
  number newest := fun s => keeping_epochs fun h => h.updated newest

end primitives

section calls

/-- So does whatever is done to messages. -/
theorem keeping_tends : Tends keeping where
  admits := keeping_mans.toAdmits
  notes := fun _ => notes_keeping _
  change := by
    intro f same _
    have counts (c : Chat) : (f c).untended.counts = c.untended.counts :=
      congrArg Chat.counts (same c)
    exact change_keeping counts
  commit _ := commit_keeping _ _
  launched := change_keeping fun _ => rfl
  draw _ _ := keeping_same rfl
  publish _ := keeping_same rfl
  record := record_keeping

variable [Host]

theorem unauthenticated_keeping (provider : String) : keeping.Holds (unauthenticated provider) := by
  have dial := keeping_mans.of_unmanned
  unfold unauthenticated
  refine holds_bind Admits.holds_self fun c => holds_bind (keeping_tends.closeTurn_holds _ _ _) fun _ => ?_
  refine holds_ite (holds_pure _) (holds_ite (holds_pure _) ?_)
  refine holds_bind (commit_keeping _ _) fun _ => holds_bind (change_keeping fun _ => rfl) fun _ => ?_
  refine holds_bind (dial.movedOn_holds _ _) fun _ => ?_
  exact holds_bind dial.anyoneLeft_holds fun left => holds_ite (holds_pure _) (holds_pure _)

theorem apply_keeping (changes : List Change) : keeping.Holds (apply changes) := by
  have set_ {key : String} {value : Value} {action : String} {f : Chat → Chat}
      {what : String × Fields} (hf : ∀ c, (f c).counts = c.counts) :
      keeping.Holds (do saveSetting key value action; change f; return what) :=
    holds_bind (commit_keeping _ _) fun _ => holds_bind (change_keeping hf) fun _ => holds_pure _
  have changed (change : Change) : keeping.Holds (applyChange change) := by
    cases change with
    | cwd path => exact holds_bind Admits.holds_self fun c => set_ fun _ => rfl
    | _ => exact set_ fun _ => rfl
  cases changes with
  | nil => exact holds_pure _
  | cons change rest =>
    unfold apply
    refine holds_bind (changed change) fun what => holds_bind (record_keeping (by rintro ⟨⟩) rfl) fun _ => ?_
    exact holds_bind keeping_mans.refresh_holds fun _ => holds_pure _

omit [Host] in
theorem opening_timed {s : Conf} (h : Keeping s) (message : PendingMessage)
    (delivery : Delivery) : Timed s.chat.turn (s.chat.logged (s.chat.opening message delivery)) := by
  cases hin : s.chat.inTurn with
  | true =>
    have hinjected : (s.chat.opening message delivery).eventType = .injected := by
      simp [Chat.opening, hin, Event.with_, Event.saying, Event.new]
    refine timed_other (by simp [hinjected]) ?_
    have turn : (s.chat.opening message delivery).turn = -1 := by
      simp [Chat.opening, hin, Event.with_, Event.saying, Event.new]
    rw [turn]
    exact h.numbered.lower
  | false =>
    have lower := h.numbered.lower
    have hstart : (s.chat.opening message delivery).eventType = .start := by
      simp [Chat.opening, hin, Event.with_, Event.saying, Event.new]
    have turn : (s.chat.opening message delivery).turn = s.chat.turn + 1 := by
      simp [Chat.opening, hin]
    unfold Timed
    rw [if_pos (by exact hstart)]
    show (if (s.chat.opening message delivery).turn < 0 then s.chat.turn
      else (s.chat.opening message delivery).turn) = s.chat.turn + 1
    rw [turn, if_neg (by omega)]

omit [Host] in
theorem deliver_keeping : keeping.Holds deliver := by
  refine holds_of_keeping fun s h => ?_
  unfold deliver
  rw [wp_bind, wp_self]
  split
  · refine (wp_ite _ _).mpr ⟨fun _ => Extends.refl h, fun _ => ?_⟩
    rw [wp_bind, wp_asks, wp_bind, wp_note]
    have asked {calls : ℕ} {trace : List Obs} : Extends s { s with calls, trace } :=
      keeping_same (t := { s with calls, trace }) rfl h
    split
    · exact asked
    · refine wp_extends asked (holds_bind (change_keeping fun _ => rfl) fun _ => ?_)
      exact holds_bind (keeping_mans.become_holds _) fun _ => holds_pure _
    · rw [wp_bind]
      refine wp_mono (wp_record_timed asked.keeping (opening_timed h _ _) ?_) (fun _ _ ht => ht)
        fun _ _ ht => asked.trans_quits ht
      rw [wp_bind, wp_notes, wp_bind, wp_change]
      refine wp_extends (h.recorded (opening_timed h _ _) rfl) ?_
      refine holds_bind keeping_mans.remember fun _ => holds_bind (commit_keeping _ _) fun _ => ?_
      refine holds_bind (change_keeping fun _ => rfl) fun _ => ?_
      refine holds_bind (change_keeping fun _ => rfl) fun _ => ?_
      exact holds_bind (keeping_mans.become_holds _) fun _ => holds_pure _
  · exact Extends.refl h

omit [Host] in
theorem confirm_extends {s t : Conf} {event : Event} (h : Extends s t)
    (turn : event.turn ≤ s.chat.turn) :
    wp (confirm event) (fun _ u => Extends s u) (fun _ u => Quits s u) t := by
  unfold confirm
  rw [wp_bind, wp_self]
  split
  next message rest opening _ opens =>
    refine (wp_ite _ _).mpr ⟨fun _ => ?_, fun _ => h⟩
    have timed : Timed t.chat.turn (t.chat.logged (t.chat.confirmation event message opening)) := by
      rcases Event.confirmedAs_isOpening opens with rfl | rfl
      · have lower := h.keeping.numbered.lower
        unfold Timed
        rw [if_pos (by rfl)]
        show (if t.chat.turn + 1 < 0 then t.chat.turn else t.chat.turn + 1) = t.chat.turn + 1
        rw [if_neg (by omega)]
      · exact timed_other (by rintro ⟨⟩) (turn.trans h.turn)
    rw [wp_bind]
    refine wp_mono (wp_record_timed h.keeping timed ?_) (fun _ _ ht => ht)
      fun _ _ ht => h.trans_quits ht
    rw [wp_bind, wp_notes, wp_bind, wp_change]
    refine wp_extends (h.trans (h.keeping.recorded timed rfl)) ?_
    refine holds_bind keeping_mans.remember fun _ => holds_bind (commit_keeping _ _) fun _ => ?_
    refine holds_bind (change_keeping fun _ => rfl) fun _ => ?_
    refine holds_bind (change_keeping fun _ => rfl) fun _ => ?_
    refine holds_bind (change_keeping fun _ => rfl) fun _ => ?_
    exact holds_bind (keeping_mans.become_holds _) fun _ => holds_pure _
  next => exact h

/-- A report belongs to the turn its runner last owned, or to the one at hand. -/
theorem takenIn_turn {s : Conf} (h : Keeping s) (epoch : ℕ) (report : Report) (late : Bool) :
    (s.chat.takenIn epoch report late).turn ≤ s.chat.turn := by
  have hlower := h.numbered.lower
  show (if (-1 : ℤ) < 0 then ((Event.epoch _).bind s.chat.epochTurns).getD (-1) else -1) ≤ _
  rw [if_pos (by decide)]
  cases known : (Event.epoch (report.heard epoch).reclassified).bind s.chat.epochTurns with
  | none => exact hlower
  | some turn =>
    obtain ⟨owner, -, owned⟩ := Option.bind_eq_some_iff.mp known
    exact h.epochs owner turn owned

theorem absorb_keeping (epoch : ℕ) (report : Report) : keeping.Holds (absorb epoch report) := by
  refine holds_of_keeping fun s h => ?_
  unfold absorb
  rw [wp_bind, wp_self]
  refine wp_extends_bind (.refl h) (keeping_tends.straggler_holds _) fun late t ht => ?_
  refine wp_extends_bind ht (keeping_tends.repeated_holds _) fun again u hu => ?_
  have turn := takenIn_turn h epoch report late
  refine (wp_ite _ _).mpr ⟨fun _ => hu, fun _ => (wp_ite _ _).mpr ⟨fun _ => ?_, fun _ => ?_⟩⟩
  · refine (wp_ite _ _).mpr ⟨fun _ => hu, fun _ => confirm_extends hu turn⟩
  · rw [wp_bind]
    refine wp_mono (wp_record_other hu.keeping ?_ (turn.trans hu.turn) fun hv => ?_)
      (fun _ _ ht => ht) fun _ _ ht => hu.trans_quits ht
    · show report.type.eventType ≠ .start
      cases report.type <;> rintro ⟨⟩
    refine wp_extends (hu.trans hv) (holds_bind Admits.holds_self fun d => holds_ite ?_ ?_)
    · exact holds_bind (change_keeping fun _ => rfl) fun _ => holds_pure _
    · exact holds_bind (notes_keeping _) fun _ => keeping_tends.react_holds _

/-- Every call keeps count of the log. -/
theorem run_keeping (call : Call) : keeping.Holds (run call) := by
  cases call with
  | deliver => exact deliver_keeping
  | absorb epoch report => exact absorb_keeping epoch report
  | unauthenticated provider => exact unauthenticated_keeping provider
  | apply changes => exact apply_keeping changes
  | shutdown => exact keeping_tends.shutdown_holds (change_keeping fun _ => rfl)
  | stopped => exact keeping_tends.stopped_holds (change_keeping fun _ => rfl)
  | replace rung why next => exact keeping_mans.attemptReplace_holds rung why next
  | _ => exact keeping_tends.run_holds rfl

end calls

section runs
variable {past s t : Conf}

/-- Whatever a halt left of it, the log still numbers its turns. -/
theorem Remnant.numbered_all {acked last : List Event} (h : Remnant t acked last) :
    ∃ turn, Numbered t.chat.store.events turn := by
  rw [h.log]
  cases last with
  | nil =>
    rw [List.append_nil]
    exact ⟨_, h.numbered⟩
  | cons e rest =>
    have none_ : rest = [] := List.length_eq_zero_iff.mp (by simpa using h.once)
    subst none_
    exact ⟨_, h.numbered.append (h.timed e List.mem_cons_self)⟩

/-- A session just opened counts on from what the log says. -/
theorem Counted.keeping {turn : ℤ} (h : Counted past t)
    (numbered : Numbered past.chat.store.events turn)
    (above : ∀ e ∈ past.chat.store.events, -1 ≤ e.turn) : Keeping t := by
  obtain ⟨n, starts, hturn, hn⟩ := numbered
  have log : ({ events := past.chat.store.events } : Store).turn = t.chat.store.turn := by
    rw [← h.log]
    rfl
  refine ⟨⟨n, ?_, ?_, ?_⟩, h.seq, ?_, h.log ▸ above⟩
  · rw [h.log]
    exact starts
  · rw [h.log, log, h.turn]
  · rw [h.turn, ← log, hturn, hn]
  · intro epoch owned known
    rw [h.epochs] at known
    cases known

variable [Host]

/-- A conductor whose books are right and that keeps count of its log. -/
structure Counting (s : Conf) : Prop where
  accounted : Accounted s.chat.desk s.books
  keeping : Keeping s

/-- What such a conductor leaves when it ends. -/
structure Leftover (s : Conf) : Prop where
  sound : s.books.Sound
  remnant : ∃ acked last, Remnant s acked last

theorem Leftover.of_counting (h : Counting s) : Leftover s :=
  ⟨h.accounted.sound, _, _, h.keeping.remnant⟩

theorem blank_remnant (sessionId : String) (env : Env) :
    Remnant (Conf.blank sessionId env) [] [] where
  log := rfl
  numbered := .nil
  seq := rfl
  once := Nat.zero_le _
  timed := fun _ he => by cases he
  above := fun _ he => by cases he

theorem counting_invariant (ok : System → Move → Prop) :
    System.Invariant ok (fun s _ => Counting s) Leftover where
  sound := Leftover.sound
  blank := fun sessionId env => ⟨blank_sound sessionId env, _, _, blank_remnant sessionId env⟩
  opened := by
    rintro past t ⟨sound, _, _, remnant⟩ opened
    obtain ⟨turn, numbered⟩ := remnant.numbered_all
    exact ⟨accounted_opened sound opened, opened.counted.keeping numbered remnant.above⟩
  failed := by
    rintro past t ⟨sound, _, _, remnant⟩ failed
    obtain ⟨turn, numbered⟩ := remnant.numbered_all
    exact ⟨sound_openFailed sound failed, _, _, (failed.counted.keeping numbered remnant.above).remnant⟩
  left := fun h _ => .of_counting h
  ended := fun h _ => .of_counting h
  wake := fun h _ _ _ => ⟨h.accounted, h.keeping.same rfl⟩
  deadline := fun h _ _ => ⟨h.accounted, h.keeping.same rfl⟩
  call := by
    intro s call rest _ _ h
    refine wp_mono (wp_and (wp_extends (.refl h.keeping) (run_keeping call)) (run_ran call)) ?_ ?_
    · rintro calls t ⟨extends_, ran⟩
      exact ⟨accounted_ran h.accounted ran, extends_.keeping⟩
    · rintro _ t ⟨⟨acked, last, remnant, -⟩, died⟩
      exact ⟨sound_died h.accounted died, acked, last, remnant⟩
  published := by
    rintro s ⟨sound, acked, last, remnant⟩
    exact ⟨sound.mono le_rfl rfl, acked, last, remnant.log, remnant.numbered, remnant.seq,
      remnant.once, remnant.timed, remnant.above⟩

end runs
end SiliconOmni
