import Mathlib.Data.List.Induction
import SiliconOmni.Client.Calls

/-! Every subscription receives the frames of its session that arrive while it is registered. -/
namespace SiliconOmni.Client

/-- What one happening does to a subscription: whether it is registered, and what is due to it. -/
def attend (j : ℕ) (session : String) : Bool × List Frame → Happening → Bool × List Frame
  | (on, due), .frame f => (on, if on && f.session = session then due ++ [f] else due)
  | (on, due), .enrolled i => (on || i = j, due)
  | (on, due), .removed i => (on && i ≠ j, due)
  | (_, due), .cleared => (false, due)

/-- Whether subscription `j` is registered, and the frames of its session that came while it was. -/
def due (j : ℕ) (session : String) (history : List Happening) : Bool × List Frame :=
  history.foldl (attend j session) (false, [])

def SubPc.id? : SubPc → Option ℕ
  | .named id | .kept id | .dropping id => some id
  | .unborn | .gone => none

def Happening.frame? : Happening → Option Frame
  | .frame f => some f
  | _ => none

def Incoming.frame? : Incoming → Option Frame
  | .frame f => some f
  | .reply _ => none

/-- The frame the reader has read and not handed out yet. -/
def Reader.held : Reader → List Frame
  | .holding (.frame f) => [f]
  | _ => []

theorem due_concat (j : ℕ) (session : String) (history : List Happening) (h : Happening) :
    due j session (history ++ [h]) = attend j session (due j session history) h :=
  List.foldl_append

/-- A subscription that was never registered has nothing due to it. -/
theorem due_unborn {j : ℕ} {history : List Happening} (h : Happening.enrolled j ∉ history)
    (session : String) : due j session history = (false, []) := by
  induction history using List.reverseRecOn with
  | nil => rfl
  | append_singleton history last ih =>
    rw [due_concat, ih (fun hmem => h (List.mem_append_left _ hmem))]
    cases last with
    | enrolled i =>
      have hne : i ≠ j := by
        rintro rfl
        exact h (List.mem_append_right _ List.mem_cons_self)
      simp [attend, hne]
    | frame | removed | cleared => rfl

namespace Inner

def listenersOf (s : Inner) (session : String) : List (ℕ × ℕ) :=
  (s.subscribers.lookup session).getD []

structure Airs (s : Inner) : Prop where
  drawn : ∀ j id, (s.subs j).pc.id? = some id → id < s.nextSubscriber
  apart : ∀ i j id, (s.subs i).pc.id? = some id → (s.subs j).pc.id? = some id → i = j
  listed : ∀ session id j, (id, j) ∈ s.listenersOf session →
    (s.subs j).session = session ∧ (s.subs j).pc = .kept id
  received : ∀ j, (s.subs j).received ++ (s.subs j).queue =
    (due j (s.subs j).session s.history).2
  on : ∀ j, (due j (s.subs j).session s.history).1 = true ↔
    ∃ id, (id, j) ∈ s.listenersOf (s.subs j).session
  unborn : ∀ j, ((s.subs j).pc = .unborn ∨ ∃ id, (s.subs j).pc = .named id) →
    Happening.enrolled j ∉ s.history
  order : s.history.filterMap (·.frame?) ++ s.reader.held = s.wire.filterMap (·.frame?)

variable {s t : Inner} {j : ℕ} {sub : Sub} {m : Move}

theorem Airs.start : Airs {} where
  drawn j id h := by cases h
  apart i j id h := by cases h
  listed session id j h := absurd h List.not_mem_nil
  received j := rfl
  on j := by simp [due, listenersOf]
  unborn j _ := List.not_mem_nil
  order := rfl

/-- Nothing that the subscriptions depend on changes. -/
theorem Airs.quiet (h : s.Airs) (nextSubscriber : t.nextSubscriber = s.nextSubscriber)
    (subs : t.subs = s.subs) (subscribers : t.subscribers = s.subscribers)
    (history : t.history = s.history)
    (order : s.reader.held = t.reader.held ∧ t.wire = s.wire ∨
      s.reader.held = [] ∧ t.wire.filterMap (·.frame?) =
        s.wire.filterMap (·.frame?) ++ t.reader.held) : t.Airs where
  drawn := by
    rw [subs, nextSubscriber]
    exact h.drawn
  apart := by
    rw [subs]
    exact h.apart
  listed session := by
    rw [subs, listenersOf, subscribers]
    exact h.listed session
  received := by
    rw [subs, history]
    exact h.received
  on j := by
    rw [subs, history, listenersOf, subscribers]
    exact h.on j
  unborn := by
    rw [subs, history]
    exact h.unborn
  order := by
    have hold := h.order
    rcases order with ⟨hheld, hwire⟩ | ⟨hheld, hwire⟩
    · rw [history, ← hheld, hwire]
      exact hold
    · rw [hheld, List.append_nil] at hold
      rw [history, hwire, hold]

/-- The owner of one subscription takes a step that the subscribers see nothing of. -/
theorem Airs.setSub (h : s.Airs) (drawn : ∀ id, sub.pc.id? = some id → id < t.nextSubscriber)
    (more : s.nextSubscriber ≤ t.nextSubscriber) (subs : t.subs = Function.update s.subs j sub)
    (subscribers : t.subscribers = s.subscribers) (history : t.history = s.history)
    (reader : t.reader = s.reader) (wire : t.wire = s.wire)
    (apart : ∀ id, sub.pc.id? = some id → ∀ i ≠ j, (s.subs i).pc.id? ≠ some id)
    (listed : ∀ session id, (id, j) ∈ s.listenersOf session →
      sub.session = session ∧ sub.pc = .kept id)
    (received : sub.received ++ sub.queue = (due j sub.session s.history).2)
    (on : (due j sub.session s.history).1 = true ↔ ∃ id, (id, j) ∈ s.listenersOf sub.session)
    (unborn : (sub.pc = .unborn ∨ ∃ id, sub.pc = .named id) → Happening.enrolled j ∉ s.history) :
    t.Airs := by
  have hlisteners : ∀ session, t.listenersOf session = s.listenersOf session := by
    intro session
    rw [listenersOf, subscribers, listenersOf]
  have hself : t.subs j = sub := by rw [subs, Function.update_self]
  have hother : ∀ i ≠ j, t.subs i = s.subs i := fun i hi => by
    rw [subs, Function.update_of_ne hi]
  constructor
  · intro i id hid
    by_cases hi : i = j
    · subst hi
      exact drawn id (hself ▸ hid)
    · exact Nat.lt_of_lt_of_le (h.drawn i id (hother i hi ▸ hid)) more
  · intro i l id hiid hlid
    by_cases hi : i = j <;> by_cases hl : l = j
    · rw [hi, hl]
    · rw [hi, hself] at hiid
      exact absurd (hother l hl ▸ hlid) (apart id hiid l hl)
    · rw [hl, hself] at hlid
      exact absurd (hother i hi ▸ hiid) (apart id hlid i hi)
    · exact h.apart i l id (hother i hi ▸ hiid) (hother l hl ▸ hlid)
  · intro session id i hmem
    rw [hlisteners] at hmem
    by_cases hi : i = j
    · subst hi
      rw [hself]
      exact listed session id hmem
    · rw [hother i hi]
      exact h.listed session id i hmem
  · intro i
    rw [history]
    by_cases hi : i = j
    · subst hi
      rw [hself]
      exact received
    · rw [hother i hi]
      exact h.received i
  · intro i
    rw [history, hlisteners]
    by_cases hi : i = j
    · subst hi
      rw [hself]
      exact on
    · rw [hother i hi]
      exact h.on i
  · intro i
    rw [history]
    by_cases hi : i = j
    · subst hi
      rw [hself]
      exact unborn
    · rw [hother i hi]
      exact h.unborn i
  · rw [history, reader, wire]
    exact h.order

/-- Something happens under the lock of the subscribers. -/
theorem Airs.happen {x : Happening} (h : s.Airs) (history : t.history = s.history ++ [x])
    (nextSubscriber : t.nextSubscriber = s.nextSubscriber)
    (session : ∀ i, (t.subs i).session = (s.subs i).session)
    (ids : ∀ i, (t.subs i).pc.id? = (s.subs i).pc.id?)
    (listed : ∀ session id i, (id, i) ∈ t.listenersOf session →
      (t.subs i).session = session ∧ (t.subs i).pc = .kept id)
    (received : ∀ i, (t.subs i).received ++ (t.subs i).queue =
      (attend i (s.subs i).session (due i (s.subs i).session s.history) x).2)
    (on : ∀ i, (attend i (s.subs i).session (due i (s.subs i).session s.history) x).1 = true ↔
      ∃ id, (id, i) ∈ t.listenersOf (s.subs i).session)
    (unborn : ∀ i, ((t.subs i).pc = .unborn ∨ ∃ id, (t.subs i).pc = .named id) →
      ((s.subs i).pc = .unborn ∨ ∃ id, (s.subs i).pc = .named id) ∧ x ≠ .enrolled i)
    (order : s.history.filterMap (·.frame?) ++ x.frame?.toList ++ t.reader.held =
      t.wire.filterMap (·.frame?)) : t.Airs where
  drawn i id hid := by
    rw [nextSubscriber]
    exact h.drawn i id (ids i ▸ hid)
  apart i l id hi hl := h.apart i l id (ids i ▸ hi) (ids l ▸ hl)
  listed := listed
  received i := by
    rw [history, session, due_concat]
    exact received i
  on i := by
    rw [history, session, due_concat]
    exact on i
  unborn i hi hmem := by
    obtain ⟨hold, hne⟩ := unborn i hi
    rw [history] at hmem
    rcases List.mem_append.mp hmem with hin | hnew
    · exact h.unborn i hold hin
    · exact hne (List.mem_singleton.mp hnew).symm
  order := by
    rw [history, List.filterMap_append, ← order]
    cases hx : x.frame? <;> simp [hx]

theorem listenersOf_insert {session : String} {listeners : List (ℕ × ℕ)}
    (subscribers : t.subscribers = s.subscribers.insert session listeners) (other : String) :
    t.listenersOf other = if other = session then listeners else s.listenersOf other := by
  unfold listenersOf
  rw [subscribers]
  by_cases hother : other = session
  · rw [if_pos hother, hother, Entries.lookup_insert_self]
    rfl
  · rw [if_neg hother, Entries.lookup_insert_ne _ _ hother]

theorem listenersOf_remove {session : String}
    (subscribers : t.subscribers = s.subscribers.remove session) (other : String) :
    t.listenersOf other = if other = session then [] else s.listenersOf other := by
  unfold listenersOf
  rw [subscribers]
  by_cases hother : other = session
  · rw [if_pos hother, hother, Entries.lookup_remove_self]
    rfl
  · rw [if_neg hother, Entries.lookup_remove_ne _ hother]

/-- What is left of the listeners once subscription `j` is removed. -/
theorem listenersOf_removeSubscription (s : Inner) (j id : ℕ) (session : String) :
    (s.removeSubscription j id).listenersOf session =
      if session = (s.subs j).session then (s.listenersOf session).filter (·.1 ≠ id)
      else s.listenersOf session := by
  unfold Inner.removeSubscription
  dsimp only
  cases hlookup : s.subscribers.lookup (s.subs j).session with
  | none =>
    by_cases hsame : session = (s.subs j).session
    · rw [if_pos hsame, hsame]
      simp [listenersOf, hlookup]
    · rw [if_neg hsame]
      rfl
  | some listeners =>
    dsimp only
    have hlisteners : s.listenersOf (s.subs j).session = listeners := by simp [listenersOf, hlookup]
    by_cases hrest : listeners.filter (·.1 ≠ id) = []
    · rw [if_pos hrest, listenersOf_remove (s := s) rfl]
      by_cases hsame : session = (s.subs j).session
      · rw [if_pos hsame, if_pos hsame, hsame, hlisteners, hrest]
      · rw [if_neg hsame, if_neg hsame]
    · rw [if_neg hrest, listenersOf_insert (s := s) rfl]
      by_cases hsame : session = (s.subs j).session
      · rw [if_pos hsame, if_pos hsame, hsame, hlisteners]
      · rw [if_neg hsame, if_neg hsame]

theorem removeSubscription_same (s : Inner) (j id : ℕ) :
    (s.removeSubscription j id).subs = s.subs ∧
      (s.removeSubscription j id).history = s.history ++ [.removed j] ∧
      (s.removeSubscription j id).nextSubscriber = s.nextSubscriber ∧
      (s.removeSubscription j id).reader = s.reader ∧ (s.removeSubscription j id).wire = s.wire := by
  unfold Inner.removeSubscription
  dsimp only
  cases s.subscribers.lookup (s.subs j).session <;> exact ⟨rfl, rfl, rfl, rfl, rfl⟩

theorem Airs.remove {id : ℕ} (h : s.Airs) (kept : (s.subs j).pc = .kept id) :
    (s.removeSubscription j id).Airs := by
  obtain ⟨hsubs, hhistory, hnext, hreader, hwire⟩ := removeSubscription_same s j id
  have hown : ∀ i, i ≠ j → ∀ other, (other, i) ∈ s.listenersOf (s.subs i).session → other ≠ id := by
    rintro i hi other hmem rfl
    have hkept := (h.listed _ _ _ hmem).2
    exact hi (h.apart i j other (by rw [hkept]; rfl) (by rw [kept]; rfl))
  refine h.happen hhistory hnext (fun i => by rw [hsubs]) (fun i => by rw [hsubs]) ?_ ?_ ?_ ?_ ?_
  · intro session other i hmem
    rw [listenersOf_removeSubscription] at hmem
    rw [hsubs]
    split_ifs at hmem
    · exact h.listed session other i (List.mem_filter.mp hmem).1
    · exact h.listed session other i hmem
  · intro i
    rw [hsubs]
    exact h.received i
  · intro i
    rw [listenersOf_removeSubscription]
    by_cases hi : i = j
    · subst hi
      rw [if_pos rfl]
      refine iff_of_false (by simp [attend]) ?_
      rintro ⟨other, hmem⟩
      obtain ⟨hmem, hne⟩ := List.mem_filter.mp hmem
      have hkept := (h.listed _ _ _ hmem).2
      rw [kept] at hkept
      cases hkept
      simp at hne
    · have hon : (attend i (s.subs i).session (due i (s.subs i).session s.history)
          (.removed j)).1 = (due i (s.subs i).session s.history).1 := by
        simp [attend, Ne.symm hi]
      rw [hon, h.on i]
      by_cases hsession : (s.subs i).session = (s.subs j).session
      · rw [if_pos hsession]
        refine exists_congr fun other => ⟨fun hmem => ?_, fun hmem => (List.mem_filter.mp hmem).1⟩
        exact List.mem_filter.mpr ⟨hmem, by simpa using hown i hi other hmem⟩
      · rw [if_neg hsession]
  · intro i hi
    rw [hsubs] at hi
    exact ⟨hi, by rintro ⟨⟩⟩
  · rw [hreader, hwire]
    simpa [Happening.frame?] using h.order

theorem Airs.clear (h : s.Airs) (history : t.history = s.history ++ [.cleared])
    (nextSubscriber : t.nextSubscriber = s.nextSubscriber) (subs : t.subs = s.subs)
    (subscribers : t.subscribers = []) (reader : t.reader = s.reader) (wire : t.wire = s.wire) :
    t.Airs := by
  have hnone : ∀ session, t.listenersOf session = [] := by
    intro session
    rw [listenersOf, subscribers]
    rfl
  refine h.happen history nextSubscriber (fun i => by rw [subs]) (fun i => by rw [subs]) ?_ ?_ ?_ ?_ ?_
  · intro session other i hmem
    rw [hnone] at hmem
    exact absurd hmem List.not_mem_nil
  · intro i
    rw [subs]
    exact h.received i
  · intro i
    simp [attend, hnone]
  · intro i hi
    rw [subs] at hi
    exact ⟨hi, by rintro ⟨⟩⟩
  · rw [reader, wire]
    simpa [Happening.frame?] using h.order

theorem Airs.enrol {id : ℕ} (h : s.Airs) (named : (s.subs j).pc = .named id)
    (subs : t.subs = Function.update s.subs j { s.subs j with pc := .kept id })
    (subscribers : t.subscribers = s.subscribers.insert (s.subs j).session
      ((id, j) :: (s.listenersOf (s.subs j).session).filter (·.1 ≠ id)))
    (history : t.history = s.history ++ [.enrolled j])
    (nextSubscriber : t.nextSubscriber = s.nextSubscriber) (reader : t.reader = s.reader)
    (wire : t.wire = s.wire) : t.Airs := by
  have hself : t.subs j = { s.subs j with pc := .kept id } := by rw [subs, Function.update_self]
  have hother : ∀ i ≠ j, t.subs i = s.subs i := fun i hi => by
    rw [subs, Function.update_of_ne hi]
  have hsession : ∀ i, (t.subs i).session = (s.subs i).session := by
    intro i
    by_cases hi : i = j
    · rw [hi, hself]
    · rw [hother i hi]
  have hlisteners := listenersOf_insert subscribers
  have hnot : ∀ session other, (other, j) ∉ s.listenersOf session := by
    intro session other hmem
    have hkept := (h.listed session other j hmem).2
    rw [named] at hkept
    cases hkept
  have hids : ∀ session other i, (other, i) ∈ s.listenersOf session → other ≠ id := by
    rintro session other i hmem rfl
    have hkept := (h.listed session other i hmem).2
    have hij := h.apart i j other (by rw [hkept]; rfl) (by rw [named]; rfl)
    exact hnot session other (hij ▸ hmem)
  have hne : ∀ session other i, (other, i) ∈ s.listenersOf session → i ≠ j := by
    rintro session other i hmem rfl
    exact hnot session other hmem
  have hdue := due_unborn (h.unborn j (.inr ⟨id, named⟩)) (s.subs j).session
  refine h.happen history nextSubscriber hsession ?_ ?_ ?_ ?_ ?_ ?_
  · intro i
    by_cases hi : i = j
    · rw [hi, hself, named]
      rfl
    · rw [hother i hi]
  · intro session other i hmem
    rw [hlisteners] at hmem
    by_cases hsame : session = (s.subs j).session
    · rw [if_pos hsame] at hmem
      rcases List.mem_cons.mp hmem with heq | hmem
      · cases heq
        rw [hself]
        exact ⟨hsame.symm, rfl⟩
      · have hin := (List.mem_filter.mp hmem).1
        rw [hother i (hne _ _ _ hin), hsame]
        exact h.listed _ other i hin
    · rw [if_neg hsame] at hmem
      rw [hother i (hne _ _ _ hmem)]
      exact h.listed session other i hmem
  · intro i
    by_cases hi : i = j
    · have hreceived := h.received j
      rw [hi, hself]
      exact hreceived
    · rw [hother i hi]
      exact h.received i
  · intro i
    by_cases hi : i = j
    · rw [hi, hdue, hlisteners, if_pos rfl]
      exact iff_of_true (by simp [attend]) ⟨id, List.mem_cons_self⟩
    · have hon : (attend i (s.subs i).session (due i (s.subs i).session s.history)
          (.enrolled j)).1 = (due i (s.subs i).session s.history).1 := by
        simp [attend, Ne.symm hi]
      rw [hon, h.on i, hlisteners]
      by_cases hsame : (s.subs i).session = (s.subs j).session
      · rw [if_pos hsame]
        refine exists_congr fun other => ⟨fun hmem => ?_, fun hmem => ?_⟩
        · refine List.mem_cons_of_mem _ (List.mem_filter.mpr ⟨hsame ▸ hmem, ?_⟩)
          simpa using hids _ _ _ hmem
        · rcases List.mem_cons.mp hmem with heq | hmem
          · cases heq
            exact absurd rfl hi
          · exact hsame ▸ (List.mem_filter.mp hmem).1
      · rw [if_neg hsame]
  · intro i hi
    by_cases hij : i = j
    · rw [hij, hself] at hi
      rcases hi with hi | ⟨other, hi⟩ <;> cases hi
    · rw [hother i hij] at hi
      exact ⟨hi, fun heq => hij (Happening.enrolled.inj heq).symm⟩
  · rw [reader, wire]
    simpa [Happening.frame?] using h.order

theorem dispatchFrame_same (s : Inner) (frame : Frame) :
    (s.dispatchFrame frame).history = s.history ++ [.frame frame] ∧
      (s.dispatchFrame frame).nextSubscriber = s.nextSubscriber ∧
      (s.dispatchFrame frame).wire = s.wire := by
  unfold Inner.dispatchFrame
  dsimp only
  cases s.subscribers.lookup frame.session <;> exact ⟨rfl, rfl, rfl⟩

/-- A frame goes to the listeners of its session, and to nobody else. -/
theorem Airs.dispatchFrame_subs (h : s.Airs) (frame : Frame) (i : ℕ) :
    (∃ id, (id, i) ∈ s.listenersOf frame.session) ∧
        (s.dispatchFrame frame).subs i = { s.subs i with queue := (s.subs i).queue ++ [frame] } ∨
      (¬∃ id, (id, i) ∈ s.listenersOf frame.session) ∧
        (s.dispatchFrame frame).subs i = s.subs i := by
  unfold Inner.dispatchFrame
  dsimp only
  cases hlookup : s.subscribers.lookup frame.session with
  | none =>
    have hnone : s.listenersOf frame.session = [] := by simp [listenersOf, hlookup]
    rw [hnone]
    exact .inr ⟨by simp, rfl⟩
  | some listeners =>
    have hlisteners : s.listenersOf frame.session = listeners := by simp [listenersOf, hlookup]
    dsimp only
    by_cases hmem : ∃ id, (id, i) ∈ s.listenersOf frame.session
    · refine .inl ⟨hmem, if_pos ?_⟩
      obtain ⟨id, hid⟩ := hmem
      have hkept := (h.listed _ _ _ hid).2
      rw [hlisteners] at hid
      rw [Bool.and_eq_true_iff, List.any_eq_true, hkept]
      exact ⟨⟨_, hid, by simp⟩, rfl⟩
    · refine .inr ⟨hmem, if_neg ?_⟩
      rw [Bool.and_eq_true_iff, List.any_eq_true]
      rintro ⟨⟨⟨id, l⟩, hid, hl⟩, -⟩
      cases of_decide_eq_true hl
      exact hmem ⟨id, hlisteners ▸ hid⟩

theorem Airs.dispatchFrame_listeners (h : s.Airs) (frame : Frame) (session : String) :
    (s.dispatchFrame frame).listenersOf session = s.listenersOf session := by
  unfold Inner.dispatchFrame
  dsimp only
  cases hlookup : s.subscribers.lookup frame.session with
  | none => rfl
  | some listeners =>
    have hlisteners : s.listenersOf frame.session = listeners := by simp [listenersOf, hlookup]
    rw [listenersOf_insert (s := s) rfl]
    by_cases hsame : session = frame.session
    · rw [if_pos hsame, hsame, hlisteners, List.filter_eq_self]
      rintro ⟨id, i⟩ hmem
      rw [(h.listed frame.session id i (hlisteners ▸ hmem)).2]
      rfl
    · rw [if_neg hsame]

theorem Airs.dispatch {frame : Frame} (h : s.Airs) (holding : s.reader = .holding (.frame frame)) :
    ({ s.dispatchFrame frame with reader := .reading } : Inner).Airs := by
  obtain ⟨hhistory, hnext, hwire⟩ := dispatchFrame_same s frame
  have hsubs := h.dispatchFrame_subs frame
  have hlisteners := h.dispatchFrame_listeners frame
  have hpc : ∀ i, ((s.dispatchFrame frame).subs i).pc = (s.subs i).pc := by
    intro i
    rcases hsubs i with ⟨-, hi⟩ | ⟨-, hi⟩ <;> rw [hi]
  have hsession : ∀ i, ((s.dispatchFrame frame).subs i).session = (s.subs i).session := by
    intro i
    rcases hsubs i with ⟨-, hi⟩ | ⟨-, hi⟩ <;> rw [hi]
  refine h.happen hhistory hnext hsession (fun i => congrArg _ (hpc i)) ?_ ?_ ?_ ?_ ?_
  · intro session id i hmem
    have hold := h.listed session id i (hlisteners session ▸ hmem)
    exact ⟨(hsession i).trans hold.1, (hpc i).trans hold.2⟩
  · intro i
    change ((s.dispatchFrame frame).subs i).received ++ ((s.dispatchFrame frame).subs i).queue = _
    have hreceived := h.received i
    have hon := h.on i
    rcases hsubs i with ⟨⟨id, hid⟩, hi⟩ | ⟨hmem, hi⟩ <;> rw [hi]
    · have hframe := (h.listed _ _ _ hid).1
      have hdue := hon.mpr ⟨id, hframe.symm ▸ hid⟩
      rw [hframe] at hdue hreceived
      rw [← List.append_assoc, hreceived, hframe]
      simp [attend, hdue]
    · have hnot : ((due i (s.subs i).session s.history).1 &&
          decide (frame.session = (s.subs i).session)) = false := by
        by_cases hframe : frame.session = (s.subs i).session
        · have hoff : (due i (s.subs i).session s.history).1 = false := by
            rw [← Bool.not_eq_true, hon, ← hframe]
            exact hmem
          rw [hoff, Bool.false_and]
        · simp [hframe]
      rw [hreceived]
      simp only [attend, hnot, Bool.false_eq_true, if_false]
  · intro i
    change _ ↔ ∃ id, (id, i) ∈ (s.dispatchFrame frame).listenersOf _
    rw [hlisteners]
    exact h.on i
  · intro i hi
    refine ⟨?_, by rintro ⟨⟩⟩
    rw [← hpc i]
    exact hi
  · have horder := h.order
    rw [holding] at horder
    change _ = (s.dispatchFrame frame).wire.filterMap _
    rw [hwire, ← horder]
    simp [Happening.frame?, Reader.held]

theorem Airs.subStep (h : s.Airs) (step : s.subStep j m = some t) : t.Airs := by
  have hids : ∀ {id pc}, (s.subs j).pc = pc → pc.id? = some id → id < s.nextSubscriber ∧
      ∀ i ≠ j, (s.subs i).pc.id? ≠ some id := by
    rintro id _ rfl hid
    exact ⟨h.drawn j id hid, fun i hi hiid => hi (h.apart i j id hiid hid)⟩
  cases m with
  | subscribe _ session =>
    simp only [Inner.subStep] at step
    split at step
    · next hpc =>
      cases step
      have hdue := due_unborn (h.unborn j (.inl hpc)) session
      have hnot : ∀ session id, (id, j) ∉ s.listenersOf session := by
        intro session id hmem
        have hkept := (h.listed session id j hmem).2
        rw [hpc] at hkept
        cases hkept
      refine h.setSub ?_ (Nat.le_succ _) rfl rfl rfl rfl rfl ?_ ?_ ?_ ?_ ?_
      · rintro _ ⟨rfl⟩
        exact Nat.lt_succ_self _
      · rintro _ ⟨rfl⟩ i - hiid
        exact Nat.lt_irrefl _ (h.drawn i _ hiid)
      · exact fun session id hmem => absurd hmem (hnot session id)
      · rw [hdue]
        rfl
      · rw [hdue]
        refine iff_of_false Bool.false_ne_true ?_
        rintro ⟨id, hmem⟩
        exact hnot _ id hmem
      · exact fun _ => h.unborn j (.inl hpc)
    · cases step
  | enrol _ =>
    simp only [Inner.subStep] at step
    split at step
    · next id hpc =>
      cases step
      exact h.enrol hpc rfl rfl rfl rfl rfl rfl
    · cases step
  | detach _ =>
    simp only [Inner.subStep] at step
    split at step
    · next id hpc =>
      cases step
      exact h.remove hpc
    · cases step
  | drop _ =>
    simp only [Inner.subStep] at step
    split at step
    · next id hpc =>
      cases step
      have hremoved := h.remove hpc
      have hsubs := (removeSubscription_same s j id).1
      have hnot : ∀ session other, (other, j) ∉ (s.removeSubscription j id).listenersOf session := by
        intro session other hmem
        rw [listenersOf_removeSubscription] at hmem
        by_cases hsame : session = (s.subs j).session
        · rw [if_pos hsame] at hmem
          obtain ⟨hmem, hne⟩ := List.mem_filter.mp hmem
          have hkept := (h.listed _ _ _ hmem).2
          rw [hpc] at hkept
          cases hkept
          simp at hne
        · rw [if_neg hsame] at hmem
          exact hsame (h.listed session other j hmem).1.symm
      have hreceived := hremoved.received j
      have hon := hremoved.on j
      rw [hsubs] at hreceived hon
      refine hremoved.setSub ?_ (Nat.le_refl _) rfl rfl rfl rfl rfl ?_ ?_ hreceived hon ?_
      · rintro _ ⟨rfl⟩
        change id < (s.removeSubscription j id).nextSubscriber
        rw [(removeSubscription_same s j id).2.2.1]
        exact (hids hpc rfl).1
      · rintro _ ⟨rfl⟩
        rw [hsubs]
        exact (hids hpc rfl).2
      · exact fun session other hmem => absurd hmem (hnot session other)
      · rintro (hun | ⟨_, hun⟩) <;> cases hun
    · cases step
  | hangUp _ =>
    simp only [Inner.subStep] at step
    split at step
    · next id hpc =>
      cases step
      refine h.setSub ?_ (Nat.le_refl _) rfl rfl rfl rfl rfl ?_ ?_ (h.received j) (h.on j) ?_
      · exact fun _ hid => by cases hid
      · exact fun _ hid => by cases hid
      · intro session other hmem
        have hkept := (h.listed _ _ _ hmem).2
        rw [hpc] at hkept
        cases hkept
      · rintro (hun | ⟨_, hun⟩) <;> cases hun
    · cases step
  | recv _ =>
    simp only [Inner.subStep] at step
    split at step
    · next frame rest hqueue =>
      cases step
      have hreceived := h.received j
      rw [hqueue] at hreceived
      refine h.setSub ?_ (Nat.le_refl _) rfl rfl rfl rfl rfl ?_ ?_ ?_ (h.on j) (h.unborn j)
      · exact h.drawn j
      · exact fun id hid i hi hiid => hi (h.apart i j id hiid hid)
      · exact fun session id => h.listed session id j
      · rw [← hreceived, List.append_assoc]
        rfl
    · cases step
  | _ => cases step

theorem Airs.readStep (h : s.Airs) (step : s.readStep m = some t) : t.Airs := by
  cases m with
  | read line =>
    simp only [Inner.readStep] at step
    split at step
    · next line hreader =>
      cases step
      refine h.quiet rfl rfl rfl rfl (.inr ⟨by rw [hreader]; rfl, ?_⟩)
      cases line <;> simp [Reader.held, Incoming.frame?]
    · cases step
      exact h
    · cases step
  | route =>
    simp only [Inner.readStep] at step
    split at step
    · next reply hreader =>
      split at step
      · cases step
        exact h.quiet rfl rfl rfl rfl (.inl ⟨by rw [hreader]; rfl, rfl⟩)
      · cases step
        exact h.quiet rfl rfl rfl rfl (.inl ⟨by rw [hreader]; rfl, rfl⟩)
    · next frame hreader =>
      cases step
      exact h.dispatch hreader
    · cases step
  | settle =>
    simp only [Inner.readStep] at step
    split at step
    · next reply k hreader =>
      cases step
      exact h.quiet rfl rfl rfl rfl (.inl ⟨by rw [hreader]; rfl, rfl⟩)
    · cases step
  | eof =>
    simp only [Inner.readStep] at step
    split at step
    · next hreader =>
      cases step
      have hswap : s.swap.subs = s.subs ∧ s.swap.subscribers = s.subscribers ∧
          s.swap.history = s.history ∧ s.swap.nextSubscriber = s.nextSubscriber ∧
          s.swap.wire = s.wire := by
        unfold Inner.swap
        split_ifs <;> exact ⟨rfl, rfl, rfl, rfl, rfl⟩
      obtain ⟨hsubs, hsubscribers, hhistory, hnext, hwire⟩ := hswap
      exact h.quiet hnext hsubs hsubscribers hhistory (.inl ⟨by rw [hreader]; rfl, hwire⟩)
    · cases step
  | _ => cases step

theorem callStep_same {k : ℕ} (step : s.callStep k m = some t) :
    t.subs = s.subs ∧ t.subscribers = s.subscribers ∧ t.history = s.history ∧
      t.nextSubscriber = s.nextSubscriber ∧ t.reader = s.reader ∧ t.wire = s.wire := by
  have hswap : s.swap.subs = s.subs ∧ s.swap.subscribers = s.subscribers ∧
      s.swap.history = s.history ∧ s.swap.nextSubscriber = s.nextSubscriber ∧
      s.swap.reader = s.reader ∧ s.swap.wire = s.wire := by
    unfold Inner.swap
    split_ifs <;> exact ⟨rfl, rfl, rfl, rfl, rfl, rfl⟩
  cases m <;> simp only [Inner.callStep] at step
  all_goals repeat' split at step
  all_goals first
    | (cases step; exact ⟨rfl, rfl, rfl, rfl, rfl, rfl⟩)
    | (cases step; exact hswap)
    | cases step

end Inner
end SiliconOmni.Client
