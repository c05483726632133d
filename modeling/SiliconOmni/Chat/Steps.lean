import SiliconOmni.Chat.System
import SiliconOmni.Lib.Program

/-! What each primitive step of the conductor makes of its state. -/
namespace SiliconOmni
open Lib

namespace Obs

/-- The runner was put down. -/
def isStop : Obs → Bool
  | interrupted _ | stopped _ => true
  | _ => false

end Obs

/-- The disk with one more event in the log. -/
def Disk.append (disk : Disk) (event : Event) : Disk := { disk with log := disk.log ++ [event] }

/-- The disk with its metadata replaced. -/
def Disk.edit (disk : Disk) (f : MetaData → MetaData) : Disk := { disk with data := f disk.data }

/-- What is left of `s` when the conductor ends with `disk`. -/
structure Remains (s t : Conf) (disk : Disk) : Prop where
  disk : t.chat.disk = disk
  ids : t.ids = s.ids
  built : t.built = s.built
  session : t.chat.sessionId = s.chat.sessionId
  trace : ∃ stops, t.trace = stops ++ s.trace ∧ ∀ o ∈ stops, o.isStop

namespace Conf

/-- `s` after `event` was recorded. -/
def recorded (s : Conf) (event : Event) : Conf :=
  let stored := s.chat.logged event
  let c := { s.chat with store := s.chat.store.push stored }
  { s with
    calls := s.calls + 1
    chat := { c.settle fun state => { state with seq := stored.seq } with
      unpublished := c.unpublished ++ [stored] } }

/-- `s` after its metadata was replaced, `calls` questions into the wake. -/
def edited (s : Conf) (calls : ℕ) (f : MetaData → MetaData) : Conf :=
  { s with calls, chat := { s.chat with meta_.data := f s.chat.meta_.data } }

/-- `s` with its conductor ended by a failed write. -/
def abandoned (s : Conf) (calls : ℕ) (action error : String) : Conf :=
  let interrupts := if s.chat.inTurn then s.chat.runner.toList.map Obs.interrupted else []
  { s with
    calls
    trace := (s.chat.running.map Obs.stopped).reverse ++ (interrupts ++ s.trace)
    chat := s.chat.abandoned action error }

theorem abandoned_remains (s : Conf) (calls : ℕ) (action error : String) :
    Remains s (s.abandoned calls action error) s.chat.disk where
  disk := rfl
  ids := rfl
  built := rfl
  session := rfl
  trace := by
    refine ⟨_, (List.append_assoc _ _ _).symm, ?_⟩
    intro o ho
    rcases List.mem_append.mp ho with ho | ho
    · obtain ⟨_, _, rfl⟩ := List.mem_map.mp (List.mem_reverse.mp ho)
      rfl
    · split at ho
      · obtain ⟨_, _, rfl⟩ := List.mem_map.mp ho
        rfl
      · cases ho

end Conf

section
variable {α : Type} {Q : α → Conf → Prop} {H : Halt → Conf → Prop} {s : Conf}

@[simp] theorem wp_self {Q : Chat → Conf → Prop} : wp self Q H s = Q s.chat s := rfl

@[simp] theorem wp_change {Q : Unit → Conf → Prop} (f : Chat → Chat) :
    wp (change f) Q H s = Q () { s with chat := f s.chat } := rfl

@[simp] theorem wp_note {Q : Unit → Conf → Prop} (o : Obs) :
    wp (note o) Q H s = Q () { s with trace := o :: s.trace } := rfl

@[simp] theorem wp_notes {Q : Unit → Conf → Prop} (os : List Obs) :
    wp (notes os) Q H s = Q () { s with trace := os ++ s.trace } := rfl

@[simp] theorem wp_asks (question : Env → ℕ → α) :
    wp (asks question) Q H s = Q (question s.env s.calls) { s with calls := s.calls + 1 } := rfl

@[simp] theorem wp_newId [Host] {Q : String → Conf → Prop} :
    wp newId Q H s = Q (Host.uuid s.ids) { s with ids := s.ids + 1 } := rfl

@[simp] theorem wp_stop {Q : Unit → Conf → Prop} (runner : Handle) :
    wp (stop runner) Q H s = Q () { s with trace := .stopped runner :: s.trace } := rfl

@[simp] theorem wp_stopAll {Q : Unit → Conf → Prop} (runners : List Handle) :
    wp (stopAll runners) Q H s =
      Q () { s with trace := (runners.map Obs.stopped).reverse ++ s.trace } := rfl

@[simp] theorem wp_settle {Q : Unit → Conf → Prop} (f : Snapshot → Snapshot) :
    wp (settle f) Q H s = Q () { s with chat := s.chat.settle f } := rfl

@[simp] theorem wp_become {Q : Unit → Conf → Prop} (status : Status) :
    wp (become status) Q H s =
      Q () { s with chat := s.chat.settle fun state => { state with status } } := rfl

@[simp] theorem wp_refresh {Q : Unit → Conf → Prop} :
    wp refresh Q H s = Q () { s with chat := s.chat.refresh } := rfl

@[simp] theorem wp_persistenceFailed (action error : String) :
    wp (persistenceFailed action error : Conductor α) Q H s =
      H .failed (s.abandoned s.calls action error) := rfl

theorem wp_tryCommit {Q : Except String Unit → Conf → Prop} {edit : MetaData → MetaData}
    (hok : ∀ calls, Q (.ok ()) (s.edited calls edit))
    (herror : ∀ why calls, Q (.error why) { s with calls })
    (hcut : ∀ t, Remains s t (s.chat.disk.edit edit) → H .cut t) :
    wp (tryCommit edit) Q H s := by
  unfold tryCommit
  simp only [wp_bind, wp_self]
  split
  · exact herror _ s.calls
  · split
    next hsame =>
      have h := hok s.calls
      rw [show s.edited s.calls edit = s by unfold Conf.edited; rw [hsame]] at h
      exact h
    next =>
      simp only [wp_bind, wp_asks]
      split
      · exact hok _
      · exact herror _ _
      · exact hcut _ ⟨rfl, rfl, rfl, rfl, [], rfl, by simp⟩

theorem wp_commit {Q : Unit → Conf → Prop} {action : String} {edit : MetaData → MetaData}
    (hdone : ∀ calls, Q () (s.edited calls edit))
    (hhalt : ∀ e t, Remains s t s.chat.disk ∨ Remains s t (s.chat.disk.edit edit) → H e t) :
    wp (commit action edit) Q H s := by
  unfold commit
  rw [wp_bind]
  refine wp_tryCommit hdone ?_ ?_
  · intro why calls
    simp only [wp_persistenceFailed]
    have hr := Conf.abandoned_remains { s with calls } calls action why
    exact hhalt _ _ (.inl ⟨hr.disk, hr.ids, hr.built, hr.session, hr.trace⟩)
  · intro t ht
    exact hhalt _ _ (.inr ht)

theorem wp_record {Q : Event → Conf → Prop} {event : Event}
    (hdone : Q (s.chat.logged event) (s.recorded event))
    (hhalt : ∀ e t, Remains s t s.chat.disk ∨
      Remains s t (s.chat.disk.append (s.chat.logged event)) → H e t) :
    wp (record event) Q H s := by
  unfold record
  simp only [wp_bind, wp_self]
  split
  · simp only [wp_persistenceFailed]
    exact hhalt _ _ (.inl (Conf.abandoned_remains s _ _ _))
  · simp only [wp_bind, wp_asks]
    split
    · exact hdone
    · simp only [wp_bind, wp_persistenceFailed]
      have hr := Conf.abandoned_remains { s with calls := s.calls + 1 } (s.calls + 1)
      exact hhalt _ _ (.inl ⟨(hr _ _).disk, (hr _ _).ids, (hr _ _).built, (hr _ _).session,
        (hr _ _).trace⟩)
    · simp only [wp_bind, wp_change, wp_persistenceFailed]
      have hr := Conf.abandoned_remains { s with
        calls := s.calls + 1
        chat := { s.chat with store := s.chat.store.push (s.chat.logged event) } } (s.calls + 1)
      exact hhalt _ _ (.inr ⟨(hr _ _).disk, (hr _ _).ids, (hr _ _).built, (hr _ _).session,
        (hr _ _).trace⟩)
    · simp only [wp_bind, wp_change, wp_throw]
      exact hhalt _ _ (.inr ⟨rfl, rfl, rfl, rfl, [], rfl, by simp⟩)

end
end SiliconOmni
