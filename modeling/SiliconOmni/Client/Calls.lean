import SiliconOmni.Client.Connection

/-! Every call gets its own reply or an error, and none is left waiting by a disconnect. -/
namespace SiliconOmni.Client

/-- The id a call has drawn. -/
def CallPc.id? : CallPc → Option ℤ
  | .idle => none
  | .named id | .registered id | .checked id | .broken id _ | .closing id _ | .failing id _
  | .waiting id | .timedOut id | .returned id _ => some id

/-- The call is registered and may come to wait. -/
def CallPc.Expects (id : ℤ) : CallPc → Prop
  | .registered i | .checked i | .waiting i => i = id
  | _ => False

/-- An error that no reply brings. -/
def Error.isLocal : Error → Bool
  | .daemon _ => false
  | _ => true

def CallPc.error? : CallPc → Option Error
  | .broken _ e | .closing _ e | .failing _ e => some e
  | _ => none

/-- How far a call comes that began with the connection down. -/
def CallPc.Late : CallPc → Prop
  | .named _ | .registered _ => True
  | .failing _ e => e = .disconnected
  | .returned _ result => result = .error .disconnected
  | _ => False

/-- `pending` has been emptied for good. -/
def Phase.drained : Phase → Bool
  | .waking _ | .cleared | .down => true
  | _ => false

namespace Inner

/-- Somebody will put an answer into the channel of call `k`, or the reader may. -/
def Covers (s : Inner) (k : ℕ) (id : ℤ) : Prop :=
  (id, k) ∈ s.pending ∨ (∃ reply, s.reader = .settling reply k) ∨
    ∃ waiters, s.phase = .waking waiters ∧ k ∈ waiters

/-- A result is what a reply with the call's own id means, or an error of the client's. -/
def Own (s : Inner) (op : String) (id : ℤ) (result : Except Error Value) : Prop :=
  (∃ reply, Incoming.reply reply ∈ s.wire ∧ reply.id = id ∧ result = outcome op reply) ∨
    ∃ error, result = .error error ∧ error.isLocal

/-- What holds of call `k`. -/
structure Fine (s : Inner) (k : ℕ) (call : Call) : Prop where
  drawn : ∀ id, call.pc.id? = some id → id < s.nextId
  replied : ∀ reply, .ok reply ∈ call.answers →
    call.pc.id? = some reply.id ∧ Incoming.reply reply ∈ s.wire
  told : ∀ error, .error error ∈ call.answers → error = .disconnected
  covered : ∀ id, call.pc.Expects id → call.answers ≠ [] ∨ s.Covers k id
  fault : ∀ error, call.pc.error? = some error → error.isLocal
  returned : ∀ id result, call.pc = .returned id result → s.Own call.op id result
  late : call.late = true → s.alive = false ∧ call.pc.Late

structure Routes (s : Inner) : Prop where
  calls : ∀ k, s.Fine k (s.calls k)
  apart : ∀ k l id, (s.calls k).pc.id? = some id → (s.calls l).pc.id? = some id → k = l
  pending : ∀ id k, (id, k) ∈ s.pending → (s.calls k).pc.id? = some id
  drained : s.phase.drained → ∀ id k, (id, k) ∈ s.pending →
    (s.calls k).pc = .registered id ∨ (s.calls k).pc = .failing id .disconnected
  up : s.phase = .up ↔ s.alive = true
  holding : ∀ line, s.reader = .holding line → line ∈ s.wire
  settling : ∀ reply k, s.reader = .settling reply k →
    (s.calls k).pc.id? = some reply.id ∧ Incoming.reply reply ∈ s.wire

variable {s t : Inner} {k : ℕ} {c : Call}

theorem Routes.start : Routes {} where
  calls k := by constructor <;> simp [CallPc.id?, CallPc.Expects, CallPc.error?]
  apart k l id hk := by cases hk
  pending id k hk := absurd hk List.not_mem_nil
  drained hdrained := by cases hdrained
  up := by simp
  holding line hline := by cases hline
  settling reply k hsettling := by cases hsettling

theorem Routes.down (h : s.Routes) (phase : s.phase ≠ .up) : s.alive = false := by
  cases halive : s.alive with
  | false => rfl
  | true => exact absurd (h.up.mpr halive) phase

theorem Own.mono {op : String} {id : ℤ} {result : Except Error Value} (h : s.Own op id result)
    (wire : s.wire ⊆ t.wire) : t.Own op id result := by
  rcases h with ⟨reply, hwire, hid, hresult⟩ | hlocal
  · exact .inl ⟨reply, wire hwire, hid, hresult⟩
  · exact .inr hlocal

/-- A call that takes no step itself stays as fine as it was. -/
theorem Fine.keep (h : s.Fine k c) (nextId : s.nextId ≤ t.nextId) (wire : s.wire ⊆ t.wire)
    (alive : t.alive = true → s.alive = true)
    (covers : ∀ id, c.pc.Expects id → s.Covers k id → t.Covers k id) : t.Fine k c where
  drawn id hid := Int.lt_of_lt_of_le (h.drawn id hid) nextId
  replied reply hreply := ⟨(h.replied reply hreply).1, wire (h.replied reply hreply).2⟩
  told := h.told
  covered id hid := (h.covered id hid).imp_right (covers id hid)
  fault := h.fault
  returned id result hpc := (h.returned id result hpc).mono wire
  late hlate := by
    obtain ⟨halive, hpc⟩ := h.late hlate
    refine ⟨?_, hpc⟩
    cases hup : t.alive with
    | false => rfl
    | true => exact absurd (alive hup) (by simp [halive])

/-- One call takes a step, and the others see nothing of it. -/
theorem Routes.setCall (h : s.Routes) (fine : t.Fine k c)
    (calls : t.calls = Function.update s.calls k c) (nextId : s.nextId ≤ t.nextId)
    (wire : t.wire = s.wire) (alive : t.alive = true → s.alive = true)
    (reader : t.reader = s.reader ∨ t.reader = .reading)
    (covers : ∀ l ≠ k, ∀ id, (s.calls l).pc.Expects id → s.Covers l id → t.Covers l id)
    (apart : ∀ l ≠ k, ∀ id, c.pc.id? = some id → (s.calls l).pc.id? ≠ some id)
    (same : ∀ id, (s.calls k).pc.id? = some id → c.pc.id? = some id)
    (pending : ∀ id l, (id, l) ∈ t.pending → (t.calls l).pc.id? = some id)
    (drained : t.phase.drained → ∀ id l, (id, l) ∈ t.pending →
      (t.calls l).pc = .registered id ∨ (t.calls l).pc = .failing id .disconnected)
    (up : t.phase = .up ↔ t.alive = true) : t.Routes where
  calls l := by
    rw [calls]
    by_cases hl : l = k
    · subst hl
      rwa [Function.update_self]
    · rw [Function.update_of_ne hl]
      exact (h.calls l).keep nextId (wire ▸ List.Subset.refl _) alive (covers l hl)
  apart l m id hlid hmid := by
    rw [calls] at hlid hmid
    by_cases hl : l = k <;> by_cases hm : m = k
    · rw [hl, hm]
    · rw [hl, Function.update_self] at hlid
      rw [Function.update_of_ne hm] at hmid
      exact absurd hmid (apart m hm id hlid)
    · rw [hm, Function.update_self] at hmid
      rw [Function.update_of_ne hl] at hlid
      exact absurd hlid (apart l hl id hmid)
    · rw [Function.update_of_ne hl] at hlid
      rw [Function.update_of_ne hm] at hmid
      exact h.apart l m id hlid hmid
  pending := pending
  drained := drained
  up := up
  holding line hline := by
    rw [wire]
    rcases reader with hreader | hreader <;> rw [hreader] at hline
    · exact h.holding line hline
    · cases hline
  settling reply l hsettling := by
    rcases reader with hreader | hreader <;> rw [hreader] at hsettling
    swap
    · cases hsettling
    obtain ⟨hid, hwire⟩ := h.settling reply l hsettling
    rw [wire, calls]
    refine ⟨?_, hwire⟩
    by_cases hl : l = k
    · subst hl
      rw [Function.update_self]
      exact same _ hid
    · rwa [Function.update_of_ne hl]

/-- A call moves on under the id it has. -/
theorem Fine.setPc {pc : CallPc} (h : s.Fine k c) (same : pc.id? = c.pc.id?)
    (covered : ∀ id, pc.Expects id → c.pc.Expects id)
    (fault : ∀ error, pc.error? = some error → error.isLocal)
    (returned : ∀ id result, pc = .returned id result → s.Own c.op id result)
    (late : s.alive = false → c.pc.Late → pc.Late) : s.Fine k { c with pc } where
  drawn id hid := h.drawn id (same ▸ hid)
  replied reply hreply := by
    rw [same]
    exact h.replied reply hreply
  told := h.told
  covered id hid := h.covered id (covered id hid)
  fault := fault
  returned := returned
  late hlate := ⟨(h.late hlate).1, late (h.late hlate).1 (h.late hlate).2⟩

/-- A call takes a step under the id it has, and touches nothing else. -/
theorem Routes.moveOn (h : s.Routes) (fine : s.Fine k c)
    (same : c.pc.id? = (s.calls k).pc.id?)
    (drained : ∀ id, s.phase.drained → (id, k) ∈ s.pending →
      c.pc = .registered id ∨ c.pc = .failing id .disconnected) : (s.setCall k c).Routes := by
  have hcalls : (s.setCall k c).calls = Function.update s.calls k c := rfl
  refine h.setCall (fine.keep (Int.le_refl _) (List.Subset.refl _) id fun _ _ => id) hcalls
    (Int.le_refl _) rfl id (.inl rfl) (fun _ _ _ _ => id) ?_ (fun id hid => same.trans hid) ?_ ?_ h.up
  · intro l hl id hid hlid
    exact hl (h.apart l k id hlid (same ▸ hid))
  · intro id l hl
    rw [hcalls]
    by_cases hlk : l = k
    · subst hlk
      rw [Function.update_self]
      exact same.trans (h.pending id l hl)
    · rw [Function.update_of_ne hlk]
      exact h.pending id l hl
  · intro hdrained id l hl
    rw [hcalls]
    by_cases hlk : l = k
    · subst hlk
      rw [Function.update_self]
      exact drained id hdrained hl
    · rw [Function.update_of_ne hlk]
      exact h.drained hdrained id l hl

/-- Taking one call out of `pending` changes nothing for the others. -/
theorem covers_forget {id other : ℤ} {l : ℕ} (hne : other ≠ id) (h : s.Covers l other) :
    (s.forgetCall id).Covers l other := by
  rcases h with hmem | hrest
  · refine .inl (List.mem_filter.mpr ⟨hmem, ?_⟩)
    simpa using hne
  · exact .inr hrest

/-- A call that no longer waits takes itself out of `pending` and returns. -/
theorem Routes.forget {id : ℤ} {result : Except Error Value} (h : s.Routes)
    (pc : (s.calls k).pc.id? = some id) (own : s.Own (s.calls k).op id result)
    (late : (s.calls k).pc.Late → result = .error .disconnected) :
    ((s.forgetCall id).setPc k (.returned id result)).Routes := by
  have hcalls : ((s.forgetCall id).setPc k (.returned id result)).calls =
      Function.update s.calls k { s.calls k with pc := .returned id result } := rfl
  have hrest : ∀ other l, (other, l) ∈ (s.forgetCall id).pending →
      (other, l) ∈ s.pending ∧ l ≠ k := by
    intro other l hl
    obtain ⟨hmem, hne⟩ := List.mem_filter.mp hl
    refine ⟨hmem, ?_⟩
    rintro rfl
    have hother := h.pending other l hmem
    rw [pc] at hother
    cases hother
    simp at hne
  have hfine : s.Fine k { s.calls k with pc := .returned id result } := by
    refine (h.calls k).setPc pc.symm (fun _ => False.elim) (fun _ => by rintro ⟨⟩) ?_ fun _ => late
    rintro _ _ ⟨rfl, rfl⟩
    exact own
  refine h.setCall (hfine.keep (Int.le_refl _) (List.Subset.refl _) (fun h => h) fun _ => False.elim) hcalls
    (Int.le_refl _) rfl (fun h => h) (.inl rfl) ?_ ?_ ?_ ?_ ?_ h.up
  · intro l hl other hexpects hcovers
    refine covers_forget ?_ hcovers
    rintro rfl
    refine hl (h.apart l k other ?_ pc)
    cases hpc : (s.calls l).pc <;> rw [hpc] at hexpects <;> first
      | exact congrArg some hexpects
      | exact hexpects.elim
  · intro l hl other hother hlid
    cases hother
    exact hl (h.apart l k id hlid pc)
  · exact fun other hother => pc.symm.trans hother
  · intro other l hl
    obtain ⟨hmem, hlk⟩ := hrest other l hl
    rw [hcalls, Function.update_of_ne hlk]
    exact h.pending other l hmem
  · intro hdrained other l hl
    obtain ⟨hmem, hlk⟩ := hrest other l hl
    rw [hcalls, Function.update_of_ne hlk]
    exact h.drained hdrained other l hmem

/-- No call takes a step. -/
theorem Routes.keep (h : s.Routes) (calls : t.calls = s.calls) (nextId : s.nextId ≤ t.nextId)
    (wire : s.wire ⊆ t.wire) (alive : t.alive = true → s.alive = true)
    (covers : ∀ k id, s.Covers k id → t.Covers k id) (pending : t.pending ⊆ s.pending)
    (drained : t.phase.drained → s.phase.drained ∨ t.pending = [])
    (up : t.phase = .up ↔ t.alive = true) (holding : ∀ line, t.reader = .holding line → line ∈ t.wire)
    (settling : ∀ reply k, t.reader = .settling reply k →
      (s.calls k).pc.id? = some reply.id ∧ Incoming.reply reply ∈ t.wire) : t.Routes where
  calls k := by
    rw [calls]
    exact (h.calls k).keep nextId wire alive fun id _ => covers k id
  apart := by
    rw [calls]
    exact h.apart
  pending id k hk := by
    rw [calls]
    exact h.pending id k (pending hk)
  drained hdrained id k hk := by
    rw [calls]
    rcases drained hdrained with hold | hnone
    · exact h.drained hold id k (pending hk)
    · rw [hnone] at hk
      exact absurd hk List.not_mem_nil
  up := up
  holding := holding
  settling reply k hsettling := by
    rw [calls]
    exact settling reply k hsettling

/-- Nothing that the calls depend on changes. -/
theorem Routes.quiet (h : s.Routes) (calls : t.calls = s.calls) (nextId : s.nextId ≤ t.nextId)
    (wire : t.wire = s.wire) (alive : t.alive = s.alive) (pending : t.pending = s.pending)
    (phase : t.phase = s.phase) (reader : t.reader = s.reader) : t.Routes := by
  refine h.keep calls nextId (wire ▸ List.Subset.refl _) (fun h => alive ▸ h) ?_
    (pending ▸ List.Subset.refl _) ?_ ?_ ?_ ?_
  · intro k id hcovers
    rwa [Covers, pending, reader, phase]
  · exact fun hdrained => .inl (phase ▸ hdrained)
  · rw [phase, alive]
    exact h.up
  · rw [reader, wire]
    exact h.holding
  · rw [reader, wire]
    exact h.settling

@[simp] theorem swap_reader (s : Inner) : s.swap.reader = s.reader := by
  unfold Inner.swap
  split_ifs <;> rfl

@[simp] theorem swap_calls (s : Inner) : s.swap.calls = s.calls := by
  unfold Inner.swap
  split_ifs <;> rfl

theorem Routes.swap (h : s.Routes) : s.swap.Routes := by
  unfold Inner.swap
  by_cases halive : s.alive
  · rw [if_pos halive]
    have hup := h.up.mpr halive
    refine h.keep rfl (Int.le_refl _) (List.Subset.refl _) (by rintro ⟨⟩) ?_ (List.Subset.refl _) (by rintro ⟨⟩)
      ⟨by rintro ⟨⟩, by rintro ⟨⟩⟩ h.holding h.settling
    rintro k id (hmem | hreader | ⟨waiters, hwaking, -⟩)
    · exact .inl hmem
    · exact .inr (.inl hreader)
    · rw [hup] at hwaking
      cases hwaking
  · rwa [if_neg halive]

/-- A call is given an answer: the reply with its id, or that the connection is gone. -/
theorem Routes.tell {answer : Except Error Reply} (h : s.Routes)
    (replied : ∀ reply, answer = .ok reply →
      (s.calls k).pc.id? = some reply.id ∧ Incoming.reply reply ∈ s.wire)
    (told : ∀ error, answer = .error error → error = .disconnected)
    (calls : t.calls = s.calls) (nextId : t.nextId = s.nextId) (wire : t.wire = s.wire)
    (alive : t.alive = s.alive) (pending : t.pending = s.pending)
    (reader : t.reader = s.reader ∨ t.reader = .reading)
    (covers : ∀ l ≠ k, ∀ id, s.Covers l id → t.Covers l id)
    (drained : t.phase.drained → s.phase.drained) (up : t.phase = .up ↔ s.phase = .up) :
    (t.tell k answer).Routes := by
  have hcalls : (t.tell k answer).calls =
      Function.update s.calls k { s.calls k with answers := (s.calls k).answers ++ [answer] } := by
    rw [Inner.tell, Inner.setCall, calls]
  have hpc : ∀ l, ((t.tell k answer).calls l).pc = (s.calls l).pc := by
    intro l
    rw [hcalls]
    by_cases hl : l = k
    · rw [hl, Function.update_self]
    · rw [Function.update_of_ne hl]
  have hfine : (t.tell k answer).Fine k
      { s.calls k with answers := (s.calls k).answers ++ [answer] } := by
    have hold := h.calls k
    constructor
    · exact fun id hid => Int.lt_of_lt_of_le (hold.drawn id hid) (Int.le_of_eq nextId.symm)
    · intro reply hreply
      change _ ∧ _ ∈ t.wire
      rw [wire]
      rcases List.mem_append.mp hreply with hin | hnew
      · exact hold.replied reply hin
      · exact replied reply (List.mem_singleton.mp hnew).symm
    · intro error herror
      rcases List.mem_append.mp herror with hin | hnew
      · exact hold.told error hin
      · exact told error (List.mem_singleton.mp hnew).symm
    · exact fun id _ => .inl (by simp)
    · exact hold.fault
    · exact fun id result hresult =>
        (hold.returned id result hresult).mono (wire ▸ List.Subset.refl _)
    · intro hlate
      exact ⟨alive.trans (hold.late hlate).1, (hold.late hlate).2⟩
  refine h.setCall hfine hcalls (Int.le_of_eq nextId.symm) wire (fun hup => alive ▸ hup) reader
    (fun l hl id _ => covers l hl id) ?_ (fun id hid => hid) ?_ ?_ (up.trans (h.up.trans ?_))
  · exact fun l hl id hid hlid => hl (h.apart l k id hlid hid)
  · intro id l hl
    rw [hpc]
    exact h.pending id l (pending ▸ hl)
  · intro hdrained id l hl
    rw [hpc]
    exact h.drained (drained hdrained) id l (pending ▸ hl)
  · change _ ↔ t.alive = true
    rw [alive]

variable {m : Move}

theorem Routes.disconnectStep (h : s.Routes) (step : s.disconnectStep m = some t) : t.Routes := by
  cases m with
  | take =>
    obtain ⟨hphase, ⟨⟩⟩ := Option.ite_none_right_eq_some.mp step
    have hdown : s.alive = false := h.down (by simp [hphase])
    refine h.keep rfl (Int.le_refl _) (List.Subset.refl _) (fun h => h) ?_ (List.nil_subset _)
      (fun _ => .inr rfl) ?_ h.holding h.settling
    · rintro k id (hmem | hreader | ⟨waiters, hwaking, -⟩)
      · exact .inr (.inr ⟨_, rfl, List.mem_map_of_mem hmem⟩)
      · exact .inr (.inl hreader)
      · rw [hphase] at hwaking
        cases hwaking
    · simp [hdown]
  | wake k =>
    simp only [Inner.disconnectStep] at step
    split at step
    · next waiters hphase =>
      obtain ⟨hk, ⟨⟩⟩ := Option.ite_none_right_eq_some.mp step
      refine h.tell (by rintro _ ⟨⟩) ?_ rfl rfl rfl rfl rfl (.inl rfl) ?_ ?_ ?_
      · rintro _ ⟨rfl⟩
        rfl
      · rintro l hl id (hmem | hreader | ⟨others, hwaking, hmem⟩)
        · exact .inl hmem
        · exact .inr (.inl hreader)
        · rw [hphase] at hwaking
          cases hwaking
          exact .inr (.inr ⟨_, rfl, (List.mem_erase_of_ne hl).mpr hmem⟩)
      · rw [hphase]
        exact fun _ => rfl
      · rw [hphase]
        exact ⟨by rintro ⟨⟩, by rintro ⟨⟩⟩
    · cases step
  | clear =>
    obtain ⟨hphase, ⟨⟩⟩ := Option.ite_none_right_eq_some.mp step
    have hdown : s.alive = false := h.down (by simp [hphase])
    refine h.keep rfl (Int.le_refl _) (List.Subset.refl _) (fun h => h) ?_ (List.Subset.refl _)
      (fun _ => .inl (by rw [hphase]; rfl)) (by simp [hdown]) h.holding h.settling
    rintro k id (hmem | hreader | ⟨waiters, hwaking, hmem⟩)
    · exact .inl hmem
    · exact .inr (.inl hreader)
    · rw [hphase] at hwaking
      cases hwaking
      exact absurd hmem List.not_mem_nil
  | shutdown =>
    obtain ⟨hphase, ⟨⟩⟩ := Option.ite_none_right_eq_some.mp step
    have hdown : s.alive = false := h.down (by simp [hphase])
    refine h.keep rfl (Int.le_refl _) (List.Subset.refl _) (fun h => h) ?_ (List.Subset.refl _)
      (fun _ => .inl (by rw [hphase]; rfl)) (by simp [hdown]) h.holding h.settling
    rintro k id (hmem | hreader | ⟨waiters, hwaking, -⟩)
    · exact .inl hmem
    · exact .inr (.inl hreader)
    · rw [hphase] at hwaking
      cases hwaking
  | _ => cases step

theorem dispatchFrame_calls (s : Inner) (frame : Frame) :
    (s.dispatchFrame frame).calls = s.calls ∧ (s.dispatchFrame frame).pending = s.pending ∧
      (s.dispatchFrame frame).nextId = s.nextId ∧ (s.dispatchFrame frame).alive = s.alive ∧
      (s.dispatchFrame frame).phase = s.phase ∧ (s.dispatchFrame frame).wire = s.wire := by
  unfold Inner.dispatchFrame
  dsimp only
  cases s.subscribers.lookup frame.session <;> exact ⟨rfl, rfl, rfl, rfl, rfl, rfl⟩

/-- The reader goes back to the socket, with no reply in its hands. -/
theorem Routes.resume (h : s.Routes) (calls : t.calls = s.calls) (nextId : t.nextId = s.nextId)
    (wire : t.wire = s.wire) (alive : t.alive = s.alive) (pending : t.pending = s.pending)
    (phase : t.phase = s.phase) (reader : t.reader = .reading ∨ t.reader = .ended)
    (none_ : ∀ reply k, s.reader ≠ .settling reply k) : t.Routes := by
  refine h.keep calls (Int.le_of_eq nextId.symm) (wire ▸ List.Subset.refl _) (fun h => alive ▸ h) ?_
    (pending ▸ List.Subset.refl _) (fun hd => .inl (phase ▸ hd)) ?_ ?_ ?_
  · rintro k id (hmem | ⟨reply, hreader⟩ | hwaking)
    · exact .inl (pending ▸ hmem)
    · exact absurd hreader (none_ reply k)
    · exact .inr (.inr (phase ▸ hwaking))
  · rw [phase, alive]
    exact h.up
  · rcases reader with hreader | hreader <;> rw [hreader] <;> rintro _ ⟨⟩
  · rcases reader with hreader | hreader <;> rw [hreader] <;> rintro _ _ ⟨⟩

theorem Routes.readStep (h : s.Routes) (step : s.readStep m = some t) : t.Routes := by
  cases m with
  | read line =>
    simp only [Inner.readStep] at step
    split at step
    · next line hreader =>
      cases step
      refine h.keep rfl (Int.le_refl _) (List.subset_append_left _ _) (fun h => h) ?_
        (List.Subset.refl _) .inl h.up ?_ (fun _ _ => by rintro ⟨⟩)
      · rintro k id (hmem | ⟨reply, hsettling⟩ | hwaking)
        · exact .inl hmem
        · rw [hreader] at hsettling
          cases hsettling
        · exact .inr (.inr hwaking)
      · rintro _ ⟨rfl⟩
        exact List.mem_append_right _ List.mem_cons_self
    · cases step
      exact h
    · cases step
  | route =>
    simp only [Inner.readStep] at step
    split at step
    · next reply hreader =>
      have hnot : ∀ reply' k, s.reader ≠ .settling reply' k := by
        rw [hreader]
        rintro _ _ ⟨⟩
      split at step
      · next k hlookup =>
        cases step
        have hmem : (reply.id, k) ∈ s.pending := by
          obtain ⟨before, after, hsplit, -⟩ := List.lookup_eq_some_iff.mp hlookup
          rw [hsplit]
          exact List.mem_append_right _ List.mem_cons_self
        have hid := h.pending _ _ hmem
        refine h.keep rfl (Int.le_refl _) (List.Subset.refl _) (fun h => h) ?_
          (fun _ hin => (List.mem_filter.mp hin).1) .inl h.up (fun _ => by rintro ⟨⟩) ?_
        · rintro l id (hmem' | ⟨reply', hsettling⟩ | hwaking)
          · by_cases hsame : id = reply.id
            · subst hsame
              cases h.apart l k _ (h.pending _ _ hmem') hid
              exact .inr (.inl ⟨reply, rfl⟩)
            · exact .inl (List.mem_filter.mpr ⟨hmem', by simpa using hsame⟩)
          · exact absurd hsettling (hnot _ _)
          · exact .inr (.inr hwaking)
        · rintro _ _ ⟨rfl, rfl⟩
          exact ⟨hid, h.holding _ hreader⟩
      · cases step
        exact h.resume rfl rfl rfl rfl rfl rfl (.inl rfl) hnot
    · next frame hreader =>
      cases step
      obtain ⟨hcalls, hpending, hnextId, halive, hphase, hwire⟩ := dispatchFrame_calls s frame
      refine h.resume hcalls hnextId hwire halive hpending hphase (.inl rfl) ?_
      rw [hreader]
      rintro _ _ ⟨⟩
    · cases step
  | settle =>
    simp only [Inner.readStep] at step
    split at step
    · next reply k hreader =>
      cases step
      refine h.tell ?_ (by rintro _ ⟨⟩) rfl rfl rfl rfl rfl (.inr rfl) ?_ (fun h => h) Iff.rfl
      · rintro _ ⟨rfl⟩
        exact h.settling _ _ hreader
      · rintro l hl id (hmem | ⟨reply', hsettling⟩ | hwaking)
        · exact .inl hmem
        · rw [hreader] at hsettling
          cases hsettling
          exact absurd rfl hl
        · exact .inr (.inr hwaking)
    · cases step
  | eof =>
    simp only [Inner.readStep] at step
    split at step
    · next hreader =>
      cases step
      refine h.swap.resume rfl rfl rfl rfl rfl rfl (.inr rfl) ?_
      rw [swap_reader, hreader]
      rintro _ _ ⟨⟩
    · cases step
  | _ => cases step

/-- A call past its look at the connection is not in `pending` once that was emptied. -/
theorem Routes.drawn_out {id : ℤ} (h : s.Routes) (hdrained : s.phase.drained)
    (hmem : (id, k) ∈ s.pending) (notRegistered : ∀ id, (s.calls k).pc ≠ .registered id)
    (notFailing : ∀ id e, (s.calls k).pc ≠ .failing id e) : False := by
  rcases h.drained hdrained id k hmem with hpc | hpc
  · exact notRegistered _ hpc
  · exact notFailing _ _ hpc

theorem Routes.begin {op : String} (h : s.Routes) (idle : (s.calls k).pc = .idle) :
    ({ s with nextId := s.nextId + 1 }.setCall k
      { op, pc := .named s.nextId, late := !s.alive }).Routes := by
  have hnew : ∀ l, (s.calls l).pc.id? ≠ some s.nextId :=
    fun l hid => Int.lt_irrefl _ ((h.calls l).drawn _ hid)
  have hother : ∀ id l, (id, l) ∈ s.pending → l ≠ k := by
    rintro id l hmem rfl
    have hid := h.pending id l hmem
    rw [idle] at hid
    cases hid
  refine h.setCall ?_ rfl (Int.le_of_lt (Int.lt_succ _)) rfl (fun h => h) (.inl rfl)
    (fun _ _ _ _ h => h) ?_ ?_ ?_ ?_ h.up
  · constructor
    · rintro _ ⟨rfl⟩
      exact Int.lt_succ _
    · exact fun _ hin => absurd hin List.not_mem_nil
    · exact fun _ hin => absurd hin List.not_mem_nil
    · exact fun _ => False.elim
    · rintro _ ⟨⟩
    · rintro _ _ ⟨⟩
    · intro hlate
      exact ⟨(Bool.not_eq_true' _).mp hlate, trivial⟩
  · rintro l - _ ⟨rfl⟩
    exact hnew l
  · rw [idle]
    rintro _ ⟨⟩
  · intro id l hmem
    change (Function.update s.calls k _ l).pc.id? = some id
    rw [Function.update_of_ne (hother id l hmem)]
    exact h.pending id l hmem
  · intro hdrained id l hmem
    change (Function.update s.calls k _ l).pc = _ ∨ (Function.update s.calls k _ l).pc = _
    rw [Function.update_of_ne (hother id l hmem)]
    exact h.drained hdrained id l hmem

theorem Routes.register {id : ℤ} (h : s.Routes) (named : (s.calls k).pc = .named id) :
    ({ s with pending := (id, k) :: s.pending.filter (·.1 ≠ id) }.setPc k
      (.registered id)).Routes := by
  have hid : (s.calls k).pc.id? = some id := by rw [named]; rfl
  have hfine := h.calls k
  have hrest : ∀ other l, (other, l) ∈ s.pending.filter (·.1 ≠ id) →
      (other, l) ∈ s.pending ∧ l ≠ k := by
    intro other l hl
    obtain ⟨hmem, hne⟩ := List.mem_filter.mp hl
    refine ⟨hmem, ?_⟩
    rintro rfl
    have hother := h.pending other l hmem
    rw [hid] at hother
    cases hother
    simp at hne
  refine h.setCall ?_ rfl (Int.le_refl _) rfl (fun h => h) (.inl rfl) ?_ ?_ ?_ ?_ ?_ h.up
  · constructor
    · exact fun other hother => hfine.drawn other (hid.trans hother)
    · intro reply hreply
      obtain ⟨hown, hwire⟩ := hfine.replied reply hreply
      exact ⟨hid.symm.trans hown, hwire⟩
    · exact hfine.told
    · rintro _ rfl
      exact .inr (.inl List.mem_cons_self)
    · rintro _ ⟨⟩
    · rintro _ _ ⟨⟩
    · exact fun hlate => ⟨(hfine.late hlate).1, trivial⟩
  · rintro l hl other hexpects (hmem | hrest)
    · refine .inl (List.mem_cons_of_mem _ (List.mem_filter.mpr ⟨hmem, ?_⟩))
      have hne : other ≠ id := by
        rintro rfl
        exact hl (h.apart l k other (h.pending other l hmem) hid)
      simpa using hne
    · exact .inr hrest
  · rintro l hl _ ⟨rfl⟩ hlid
    exact hl (h.apart l k _ hlid hid)
  · exact fun other hother => hid.symm.trans hother
  · intro other l hl
    change (Function.update s.calls k _ l).pc.id? = some other
    rcases List.mem_cons.mp hl with heq | hl
    · cases heq
      rw [Function.update_self]
      rfl
    · obtain ⟨hmem, hlk⟩ := hrest other l hl
      rw [Function.update_of_ne hlk]
      exact h.pending other l hmem
  · intro hdrained other l hl
    change (Function.update s.calls k _ l).pc = _ ∨ (Function.update s.calls k _ l).pc = _
    rcases List.mem_cons.mp hl with heq | hl
    · cases heq
      rw [Function.update_self]
      exact .inl rfl
    · obtain ⟨hmem, hlk⟩ := hrest other l hl
      rw [Function.update_of_ne hlk]
      exact h.drained hdrained other l hmem

theorem Routes.receive {id : ℤ} {answer : Except Error Reply} {rest : List (Except Error Reply)}
    (h : s.Routes) (waiting : (s.calls k).pc = .waiting id)
    (answers : (s.calls k).answers = answer :: rest) :
    (s.setCall k { s.calls k with
      pc := .returned id (answered (s.calls k).op answer)
      answers := rest }).Routes := by
  have hid : (s.calls k).pc.id? = some id := by rw [waiting]; rfl
  have hfine := h.calls k
  have hrest : ∀ a ∈ rest, a ∈ (s.calls k).answers := by
    rw [answers]
    exact fun a ha => List.mem_cons_of_mem _ ha
  have hown : s.Own (s.calls k).op id (answered (s.calls k).op answer) := by
    cases answer with
    | ok reply =>
      obtain ⟨hreply, hwire⟩ := hfine.replied reply (answers ▸ List.mem_cons_self)
      rw [hid] at hreply
      exact .inl ⟨reply, hwire, (Option.some.inj hreply).symm, rfl⟩
    | error error =>
      have htold := hfine.told error (answers ▸ List.mem_cons_self)
      exact .inr ⟨error, rfl, by rw [htold]; rfl⟩
  refine h.moveOn ?_ (by rw [hid]; rfl) fun id' hdrained hmem => ?_
  · constructor
    · exact fun other hother => hfine.drawn other (hid.trans hother)
    · intro reply hreply
      obtain ⟨hown', hwire⟩ := hfine.replied reply (hrest _ hreply)
      exact ⟨hid.symm.trans hown', hwire⟩
    · exact fun error herror => hfine.told error (hrest _ herror)
    · exact fun _ => False.elim
    · rintro _ ⟨⟩
    · rintro _ _ ⟨rfl, rfl⟩
      exact hown
    · intro hlate
      have hnot := (hfine.late hlate).2
      rw [waiting] at hnot
      exact hnot.elim
  · exact (h.drawn_out hdrained hmem (by simp [waiting]) (by simp [waiting])).elim

theorem Routes.check {id : ℤ} (h : s.Routes) (registered : (s.calls k).pc = .registered id) :
    (s.setPc k (if s.alive then .checked id else .failing id .disconnected)).Routes := by
  have hk := h.calls k
  cases halive : s.alive with
  | true =>
    refine h.moveOn (hk.setPc (by rw [registered]; rfl) ?_ (fun _ => by rintro ⟨⟩)
      (fun _ _ => by rintro ⟨⟩) ?_) (by rw [registered]; rfl) ?_
    · rw [registered]
      exact fun _ h => h
    · exact fun hdown => absurd halive (by simp [hdown])
    · intro id' hdrained
      have hdown := h.down (by rintro hup; rw [hup] at hdrained; cases hdrained)
      exact absurd halive (by simp [hdown])
  | false =>
    refine h.moveOn (hk.setPc (by rw [registered]; rfl) (fun _ => False.elim) ?_
      (fun _ _ => by rintro ⟨⟩) fun _ _ => rfl) (by rw [registered]; rfl) ?_
    · rintro _ ⟨rfl⟩
      rfl
    · intro id' _ hmem
      have hid := h.pending id' k hmem
      rw [registered] at hid
      cases hid
      exact .inr rfl

theorem Routes.sent {id : ℤ} (h : s.Routes) (checked : (s.calls k).pc = .checked id) :
    (s.setPc k (.waiting id)).Routes := by
  refine h.moveOn ((h.calls k).setPc (by rw [checked]; rfl) ?_ (fun _ => by rintro ⟨⟩)
    (fun _ _ => by rintro ⟨⟩) ?_) (by rw [checked]; rfl) fun id' hdrained hmem => ?_
  · rw [checked]
    exact fun _ h => h
  · rw [checked]
    exact fun _ => False.elim
  · exact (h.drawn_out hdrained hmem (by simp [checked]) (by simp [checked])).elim

/-- A call that has passed its check, and that nobody waits for any more, goes on with an error of
its own or without one. -/
theorem Routes.fails {pc : CallPc} (h : s.Routes) (same : pc.id? = (s.calls k).pc.id?)
    (expects : ∀ id, ¬pc.Expects id) (fault : ∀ error, pc.error? = some error → error.isLocal)
    (running : ∀ id result, pc ≠ .returned id result)
    (early : ¬(s.calls k).pc.Late) (checked : ∀ id, (s.calls k).pc ≠ .registered id)
    (fine : ∀ id error, (s.calls k).pc ≠ .failing id error) : (s.setPc k pc).Routes :=
  h.moveOn ((h.calls k).setPc same (fun id hid => (expects id hid).elim) fault
      (fun id result hpc => (running id result hpc).elim) fun _ late => absurd late early) same
    fun _ hdrained hmem => (h.drawn_out hdrained hmem checked fine).elim

theorem Routes.wrote {id : ℤ} {written : Written} {op : String} (h : s.Routes)
    (checked : (s.calls k).pc = .checked id) :
    (s.setPc k (match written with
      | .sent => .waiting id
      | .unprintable message => .failing id (.json message)
      | .failed message => .broken id (.io ("could not send " ++ op ++ ": " ++ message)))).Routes := by
  have early : ¬(s.calls k).pc.Late := by
    rw [checked]
    exact False.elim
  cases written with
  | sent => exact h.sent checked
  | unprintable message | failed message =>
    refine h.fails (by rw [checked]; rfl) (fun _ => False.elim) ?_ (fun _ _ => by rintro ⟨⟩) early
      (by simp [checked]) (by simp [checked])
    rintro _ ⟨rfl⟩
    rfl

theorem Routes.breakOff {id : ℤ} {error : Error} {alive : Bool} (h : s.Routes)
    (broken : (s.calls k).pc = .broken id error) :
    (s.swap.setPc k (if alive then .closing id error else .failing id error)).Routes := by
  have local_ : error.isLocal := (h.calls k).fault error (by rw [broken]; rfl)
  have swapped : (s.swap.calls k).pc = .broken id error := by rw [swap_calls, broken]
  have early : ¬(s.swap.calls k).pc.Late := by
    rw [swapped]
    exact False.elim
  cases alive with
  | true | false =>
    refine h.swap.fails (by rw [swapped]; rfl) (fun _ => False.elim) ?_ (fun _ _ => by rintro ⟨⟩)
      early (by simp [broken]) (by simp [broken])
    rintro _ ⟨rfl⟩
    exact local_

theorem Routes.brokenOff {id : ℤ} {error : Error} (h : s.Routes)
    (closing : (s.calls k).pc = .closing id error) : (s.setPc k (.failing id error)).Routes := by
  refine h.fails (by rw [closing]; rfl) (fun _ => False.elim) ?_ (fun _ _ => by rintro ⟨⟩) ?_
    (by simp [closing]) (by simp [closing])
  · rintro _ ⟨rfl⟩
    exact (h.calls k).fault error (by rw [closing]; rfl)
  · rw [closing]
    exact False.elim

theorem Routes.timeout {id : ℤ} (h : s.Routes) (waiting : (s.calls k).pc = .waiting id) :
    (s.setPc k (.timedOut id)).Routes := by
  refine h.fails (by rw [waiting]; rfl) (fun _ => False.elim) (fun _ => by rintro ⟨⟩)
    (fun _ _ => by rintro ⟨⟩) ?_ (by simp [waiting]) (by simp [waiting])
  rw [waiting]
  exact False.elim

/-- Nobody is left to answer the call. -/
theorem Routes.unheld {id : ℤ} (h : s.Routes) (waiting : (s.calls k).pc = .waiting id) :
    (s.setPc k (.returned id (.error .disconnected))).Routes := by
  refine h.moveOn ((h.calls k).setPc (by rw [waiting]; rfl) (fun _ => False.elim)
    (fun _ => by rintro ⟨⟩) ?_ ?_) (by rw [waiting]; rfl) fun id' hdrained hmem => ?_
  · rintro _ _ ⟨rfl, rfl⟩
    exact .inr ⟨_, rfl, rfl⟩
  · rw [waiting]
    exact fun _ => False.elim
  · exact (h.drawn_out hdrained hmem (by simp [waiting]) (by simp [waiting])).elim

theorem Routes.callStep (h : s.Routes) (step : s.callStep k m = some t) : t.Routes := by
  cases m with
  | call _ op =>
    simp only [Inner.callStep] at step
    split at step
    · next idle =>
      cases step
      exact h.begin idle
    · cases step
  | register _ =>
    simp only [Inner.callStep] at step
    split at step
    · next named =>
      cases step
      exact h.register named
    · cases step
  | check _ =>
    simp only [Inner.callStep] at step
    split at step
    · next registered =>
      cases step
      exact h.check registered
    · cases step
  | write _ written =>
    simp only [Inner.callStep] at step
    split at step
    · next checked =>
      cases step
      exact h.wrote checked
    · cases step
  | breakOff _ =>
    simp only [Inner.callStep] at step
    split at step
    · next broken =>
      cases step
      exact h.breakOff broken
    · cases step
  | brokenOff _ =>
    simp only [Inner.callStep] at step
    split at step
    · next closing =>
      obtain ⟨-, ⟨⟩⟩ := Option.ite_none_right_eq_some.mp step
      exact h.brokenOff closing
    · cases step
  | forget _ =>
    simp only [Inner.callStep] at step
    split at step
    · next id error failing =>
      cases step
      have local_ : error.isLocal := (h.calls k).fault error (by rw [failing]; rfl)
      refine h.forget (by rw [failing]; rfl) (.inr ⟨error, rfl, local_⟩) ?_
      rw [failing]
      exact fun late => congrArg _ late
    · next id timedOut =>
      cases step
      refine h.forget (by rw [timedOut]; rfl) (.inr ⟨_, rfl, rfl⟩) ?_
      rw [timedOut]
      exact False.elim
    · cases step
  | receive _ =>
    simp only [Inner.callStep] at step
    split at step
    · next waiting =>
      split at step
      · next answers =>
        cases step
        exact h.receive waiting answers
      · obtain ⟨-, ⟨⟩⟩ := Option.ite_none_left_eq_some.mp step
        exact h.unheld waiting
    · cases step
  | timeout _ =>
    simp only [Inner.callStep] at step
    split at step
    · next waiting =>
      obtain ⟨-, ⟨⟩⟩ := Option.ite_none_right_eq_some.mp step
      exact h.timeout waiting
    · cases step
  | _ => cases step

end Inner
end SiliconOmni.Client
