import SiliconOmni.Chat.Steps

/-! The steps that only move runners about: they leave the queues and the open turn alone, and add
nothing but bookkeeping to the log. -/
namespace SiliconOmni
open Lib

/-- The queues, the open turn and the recovery under way. -/
structure Desk where
  outbox : List PendingMessage
  awaiting : List PendingMessage
  unanswered : List (List String)
  nextTurns : ℕ
  turn : ℤ
  turnRecorded : Bool
  inTurn : Bool
  turnFailed : Option ErrorKind
  recovery : Option Recovery
  historyStart : ℤ
  compactionDeadline : Bool
  stopping : Bool

def Chat.desk (c : Chat) : Desk where
  outbox := c.outbox
  awaiting := c.awaiting
  unanswered := c.unanswered
  nextTurns := c.nextTurns
  turn := c.turn
  turnRecorded := c.turnRecorded
  inTurn := c.inTurn
  turnFailed := c.turnFailed
  recovery := c.recovery
  historyStart := c.historyStart
  compactionDeadline := c.compactionDeadline
  stopping := c.stopping

/-- An event type that is neither conversation nor the boundary of a turn. -/
def EventType.isBookkeeping : EventType → Bool
  | .config | .error | .switchProvider | .newSession => true
  | _ => false

/-- What `record` may be given: an event of this schema, not yet stamped with a session. -/
structure Event.Recordable (event : Event) : Prop where
  v : event.v = SCHEMA_VERSION
  named : event.eventType.name ≠ ""
  session : event.session = ""

theorem logged_placed (c : Chat) {event : Event} (h : event.Recordable) :
    Placed c.sessionId c.store.events (c.logged event) where
  v := h.v
  named := h.named
  seq := c.store.seq_succ
  session := by
    show (if (c.stamp event).session = "" then c.sessionId else (c.stamp event).session) = _
    simp [Chat.stamp, h.session]

theorem EventType.named_of_isBookkeeping {type : EventType} (h : type.isBookkeeping) :
    type.name ≠ "" := by
  cases type <;> first | decide | cases h

/-- No message moved, and nothing said in the conversation. -/
def Obs.isQuiet : Obs → Bool
  | accepted _ | synthesized _ | sent _ _ (some _) _ | shared _ _ | opened _ _ | ended _
  | closed _ => false
  | _ => true

theorem Obs.isQuiet_of_isStop {o : Obs} (h : o.isStop) : o.isQuiet := by
  cases o <;> first | rfl | cases h

/-- `t` comes after `s`, with no message moved and nothing said in between. -/
structure Quiet (s t : Conf) : Prop where
  log : ∃ es, t.chat.store.events = s.chat.store.events ++ es ∧
    Follows s.chat.sessionId s.chat.store.events es ∧ ∀ e ∈ es, e.eventType.isBookkeeping
  pending : t.chat.meta_.data.pending = s.chat.meta_.data.pending
  top : t.chat.meta_.data.top = s.chat.meta_.data.top
  ids : t.ids = s.ids
  built : s.built ≤ t.built
  session : t.chat.sessionId = s.chat.sessionId
  trace : ∃ os, t.trace = os ++ s.trace ∧ ∀ o ∈ os, o.isQuiet

namespace Quiet
variable {s t u : Conf}

theorem of_disk (hd : t.chat.disk = s.chat.disk) (hi : t.ids = s.ids) (hb : s.built ≤ t.built)
    (hs : t.chat.sessionId = s.chat.sessionId)
    (ht : ∃ os, t.trace = os ++ s.trace ∧ ∀ o ∈ os, o.isQuiet) : Quiet s t where
  log := ⟨[], by rw [List.append_nil]; exact congrArg Disk.log hd, trivial, by simp⟩
  pending := congrArg (fun d => d.data.pending) hd
  top := congrArg (fun d => d.data.top) hd
  ids := hi
  built := hb
  session := hs
  trace := ht

theorem refl (s : Conf) : Quiet s s := of_disk rfl rfl le_rfl rfl ⟨[], rfl, by simp⟩

theorem trans (h : Quiet s t) (h' : Quiet t u) : Quiet s u where
  log := by
    obtain ⟨es, he, hfe, hes⟩ := h.log
    obtain ⟨fs, hf, hff, hfs⟩ := h'.log
    rw [h.session, he] at hff
    refine ⟨es ++ fs, by rw [hf, he, List.append_assoc], follows_append.mpr ⟨hfe, hff⟩, ?_⟩
    intro e hm
    rcases List.mem_append.mp hm with hm | hm
    · exact hes e hm
    · exact hfs e hm
  pending := h'.pending.trans h.pending
  top := h'.top.trans h.top
  ids := h'.ids.trans h.ids
  built := h.built.trans h'.built
  session := h'.session.trans h.session
  trace := by
    obtain ⟨os, ho, hos⟩ := h.trace
    obtain ⟨ps, hp, hps⟩ := h'.trace
    refine ⟨ps ++ os, by rw [hp, ho, List.append_assoc], ?_⟩
    intro o hm
    rcases List.mem_append.mp hm with hm | hm
    · exact hps o hm
    · exact hos o hm

theorem of_remains {disk : Disk} (h : Remains s t disk)
    (hl : ∃ es, disk.log = s.chat.store.events ++ es ∧
      Follows s.chat.sessionId s.chat.store.events es ∧ ∀ e ∈ es, e.eventType.isBookkeeping)
    (hp : disk.data.pending = s.chat.meta_.data.pending)
    (ht : disk.data.top = s.chat.meta_.data.top) : Quiet s t where
  log := by
    obtain ⟨es, he, hes⟩ := hl
    exact ⟨es, (congrArg Disk.log h.disk).trans he, hes⟩
  pending := (congrArg (fun d => d.data.pending) h.disk).trans hp
  top := (congrArg (fun d => d.data.top) h.disk).trans ht
  ids := h.ids
  built := h.built.ge
  session := h.session
  trace := by
    obtain ⟨os, ho, hos⟩ := h.trace
    exact ⟨os, ho, fun o hm => Obs.isQuiet_of_isStop (hos o hm)⟩

end Quiet

/-- Quiet steps that also keep what `view` shows of the chat. -/
def quietly {β : Type} (view : Chat → β) : Frame Conf where
  live s t := view t.chat = view s.chat ∧ Quiet s t
  halted := Quiet
  refl s := ⟨rfl, Quiet.refl s⟩
  trans h h' := ⟨h'.1.trans h.1, h.2.trans h'.2⟩
  trans_halted h h' := h.2.trans h'

/-- A view that shows neither the files nor what others read of the chat. -/
structure Blind {β : Type} (view : Chat → β) : Prop where
  store : ∀ c store, view { c with store } = view c
  data : ∀ c data, view { c with meta_.data := data } = view c
  state : ∀ c state, view { c with state } = view c
  unpublished : ∀ c unpublished, view { c with unpublished } = view c

/-- The chat less its files, what others read of it, its parked runners and its dial. -/
def Chat.seated (c : Chat) : Chat :=
  { c with
    store := {}, meta_ := {}, state := default, unpublished := []
    parked := [], current := none, announced := [], benched := [] }

/-- The chat less its files and everything about any runner. -/
def Chat.aside (c : Chat) : Chat :=
  { c.seated with
    runner := none, runnerEpoch := none, nextRunnerEpoch := 0, epochTurns := fun _ => none
    syncCeiling := none }

theorem Chat.seated_blind : Blind Chat.seated := by constructor <;> intros <;> rfl

theorem Chat.aside_blind : Blind Chat.aside := by constructor <;> intros <;> rfl

section primitives
variable {α β γ : Type} {view : Chat → β}

/-- What is kept of a finer view is kept of a coarser one. -/
theorem coarser {m : Conductor α} (h : (quietly view).Holds m) (f : β → γ) :
    (quietly fun c => f (view c)).Holds m :=
  fun _ => h.wp (fun _ _ ht => ⟨congrArg f ht.1, ht.2⟩) (fun _ _ ht => ht)

theorem self_quiet : (quietly view).Holds self := (quietly view).refl

theorem asks_quiet (question : Env → ℕ → α) : (quietly view).Holds (asks question) :=
  fun _ => ⟨rfl, Quiet.of_disk rfl rfl le_rfl rfl ⟨[], rfl, by simp⟩⟩

theorem notes_quiet {os : List Obs} (h : ∀ o ∈ os, o.isQuiet) : (quietly view).Holds (notes os) :=
  fun _ => ⟨rfl, Quiet.of_disk rfl rfl le_rfl rfl ⟨os, rfl, h⟩⟩

theorem change_quiet {f : Chat → Chat} (hv : ∀ c, view (f c) = view c)
    (hd : ∀ c, (f c).disk = c.disk) (hs : ∀ c, (f c).sessionId = c.sessionId) :
    (quietly view).Holds (change f) :=
  fun s => ⟨hv _, Quiet.of_disk (hd _) rfl le_rfl (hs _) ⟨[], rfl, by simp⟩⟩

theorem persistenceFailed_quiet (action error : String) :
    (quietly view).Holds (persistenceFailed action error : Conductor α) := by
  intro s
  rw [wp_persistenceFailed]
  exact Quiet.of_remains (Conf.abandoned_remains s _ _ _) ⟨[], by simp [Chat.disk], trivial, by simp⟩ rfl rfl

/-- Replacing metadata quietly: no message moves, no recovery state, no history boundary. -/
def KeepsMessages (edit : MetaData → MetaData) : Prop :=
  ∀ data, (edit data).pending = data.pending ∧ (edit data).top = data.top

theorem tryCommit_quiet (hb : Blind view) {edit : MetaData → MetaData} (h : KeepsMessages edit) :
    (quietly view).Holds (tryCommit edit) := by
  intro s
  apply wp_tryCommit
  · intro calls
    exact ⟨hb.data _ _, ⟨⟨[], by simp [Conf.edited], trivial, by simp⟩, (h _).1, (h _).2, rfl, le_rfl, rfl,
      [], rfl, by simp⟩⟩
  · intro why calls
    exact ⟨rfl, Quiet.of_disk rfl rfl le_rfl rfl ⟨[], rfl, by simp⟩⟩
  · intro t ht
    exact Quiet.of_remains ht ⟨[], by simp [Disk.edit, Chat.disk], trivial, by simp⟩ (h _).1 (h _).2

theorem commit_quiet (hb : Blind view) {action : String} {edit : MetaData → MetaData}
    (h : KeepsMessages edit) : (quietly view).Holds (commit action edit) := by
  unfold commit
  refine Frame.holds_bind (tryCommit_quiet hb h) fun answer => ?_
  split
  · exact Frame.holds_pure _
  · exact persistenceFailed_quiet _ _

/-- What a bookkeeping event built by the conductor looks like. -/
def Event.isBookkeeping (event : Event) : Bool :=
  event.v = SCHEMA_VERSION && event.session = "" && event.eventType.isBookkeeping

theorem record_quiet (hb : Blind view) {event : Event} (h : event.isBookkeeping) :
    (quietly view).Holds (record event) := by
  intro s
  simp only [Event.isBookkeeping, Bool.and_eq_true, decide_eq_true_eq] at h
  obtain ⟨⟨hv, hs⟩, ht⟩ := h
  have hp := logged_placed s.chat ⟨hv, EventType.named_of_isBookkeeping ht, hs⟩
  have hl : Follows s.chat.sessionId s.chat.store.events [s.chat.logged event] ∧
      ∀ e ∈ [s.chat.logged event], e.eventType.isBookkeeping := by
    exact ⟨⟨hp, trivial⟩, by simpa using ht⟩
  apply wp_record
  · refine ⟨?_, ⟨⟨_, rfl, hl⟩, rfl, rfl, rfl, le_rfl, rfl, [], rfl, by simp⟩⟩
    unfold Conf.recorded
    exact (hb.unpublished _ _).trans ((hb.state _ _).trans (hb.store _ _))
  · rintro e t (ht | ht)
    · exact Quiet.of_remains ht ⟨[], by simp [Chat.disk], trivial, by simp⟩ rfl rfl
    · exact Quiet.of_remains ht ⟨_, rfl, hl⟩ rfl rfl

/-- Replacing what the metadata says of native sessions, and nothing else. -/
structure OnlyNatives (edit : MetaData → MetaData) : Prop where
  keepsMessages : KeepsMessages edit
  settings : ∀ data, (edit data).settings = data.settings

theorem bind_onlyNatives (provider id : String) : OnlyNatives (·.bind provider id) :=
  ⟨fun _ => ⟨rfl, rfl⟩, fun _ => rfl⟩

theorem markSynced_onlyNatives (provider : String) (seq : ℤ) :
    OnlyNatives (·.markSynced provider seq) :=
  ⟨fun _ => ⟨rfl, rfl⟩, fun _ => rfl⟩

theorem setSetting_keepsMessages (key : String) (value : Value) :
    KeepsMessages (·.setSetting key value) :=
  fun _ => ⟨rfl, rfl⟩

end primitives
end SiliconOmni
