import Mathlib.Tactic.Common

/-! Systems that take one labelled move after another, and what holds along their runs. -/
namespace SiliconOmni.Lib

/-- States a system may start in, and the one state a move leads to where it is enabled. -/
structure Machine (σ μ : Type) where
  init : σ → Prop
  step : σ → μ → Option σ

namespace Machine
variable {σ μ : Type} {M : Machine σ μ} {ok ok' : σ → μ → Prop} {s t : σ}

/-- The states reached by runs every move of which meets the condition `ok` in the state it is
taken from. -/
inductive Reach (M : Machine σ μ) (ok : σ → μ → Prop) : σ → Prop where
  | init {s : σ} : M.init s → Reach M ok s
  | step {s t : σ} {m : μ} : Reach M ok s → ok s m → M.step s m = some t → Reach M ok t

/-- What holds at the start and is kept by every allowed move holds along every run. -/
theorem Reach.invariant {I : σ → Prop} (h : Reach M ok s) (start : ∀ s, M.init s → I s)
    (kept : ∀ s m t, Reach M ok s → I s → ok s m → M.step s m = some t → I t) : I s := by
  induction h with
  | init hs => exact start _ hs
  | step hr hok hstep ih => exact kept _ _ _ hr ih hok hstep

theorem Reach.mono (h : Reach M ok s) (weaker : ∀ s m, ok s m → ok' s m) : Reach M ok' s := by
  induction h with
  | init hs => exact .init hs
  | step _ hok hstep ih => exact .step ih (weaker _ _ hok) hstep

/-- The state after a list of moves, where each is enabled in turn. -/
def exec (M : Machine σ μ) : σ → List μ → Option σ
  | s, [] => some s
  | s, m :: ms => (M.step s m).bind (M.exec · ms)

/-- Whether every move of the list meets the condition where it is taken. -/
def Along (M : Machine σ μ) (ok : σ → μ → Prop) : σ → List μ → Prop
  | _, [] => True
  | s, m :: ms => ok s m ∧ ∀ t ∈ M.step s m, M.Along ok t ms

instance Along.decidable [∀ s m, Decidable (ok s m)] :
    ∀ s ms, Decidable (M.Along ok s ms)
  | _, [] => .isTrue trivial
  | s, m :: ms =>
      match h : M.step s m with
      | none => decidable_of_iff (ok s m) (by simp [Along, h])
      | some t =>
          have := Along.decidable t ms
          decidable_of_iff (ok s m ∧ M.Along ok t ms) (by simp [Along, h])

theorem along_of_forall (h : ∀ s m, ok s m) (s : σ) (ms : List μ) : M.Along ok s ms := by
  induction ms generalizing s with
  | nil => trivial
  | cons m ms ih => exact ⟨h s m, fun t _ => ih t⟩

theorem along_of_mem {ms : List μ} (h : ∀ s, ∀ m ∈ ms, ok s m) (s : σ) : M.Along ok s ms := by
  induction ms generalizing s with
  | nil => trivial
  | cons m ms ih =>
    exact ⟨h s m List.mem_cons_self, fun t _ => ih (fun s m hm => h s m (List.mem_cons_of_mem _ hm)) t⟩

theorem Reach.exec {ms : List μ} (h : Reach M ok s) (along : M.Along ok s ms)
    (run : M.exec s ms = some t) : Reach M ok t := by
  induction ms generalizing s with
  | nil => exact Option.some.inj run ▸ h
  | cons m ms ih =>
    obtain ⟨u, hu, hrest⟩ := Option.bind_eq_some_iff.mp run
    exact ih (.step h along.1 hu) (along.2 u hu) hrest

end Machine
end SiliconOmni.Lib
