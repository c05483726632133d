import SiliconOmni.Lib.Program

/-! Programs that answer with the calls still to make: when all of them end up made, within a
budget. -/
namespace SiliconOmni.Lib

/-- From `s`, the calls on the stack and those they leave to be made are finitely many, and the
budget covers each of them; a call that halts is the last. `spend b k` is what making `k` leaves of
the budget `b`, where `b` covers it. -/
inductive Finishes {κ ε σ β : Type} (run : κ → EStateM ε σ (List κ)) (spend : β → κ → Option β) :
    β → List κ → σ → Prop where
  | done {b : β} {s : σ} : Finishes run spend b [] s
  | call {b c : β} {k : κ} {ks : List κ} {s : σ} (covered : spend b k = some c)
      (rest : ∀ more t, run k s = .ok more t → Finishes run spend c (more ++ ks) t) :
      Finishes run spend b (k :: ks) s

namespace Finishes
variable {κ ε σ β : Type} {run : κ → EStateM ε σ (List κ)} {spend : β → κ → Option β}
variable {b c : β} {k : κ} {ks rest : List κ} {s : σ}

/-- A call is made, and what it leaves to be made finishes. -/
theorem step (covered : spend b k = some c)
    (rest : wp (run k) (fun more t => Finishes run spend c (more ++ ks) t) (fun _ _ => True) s) :
    Finishes run spend b (k :: ks) s := by
  refine .call covered fun more t hrun => ?_
  unfold wp at rest
  rw [hrun] at rest
  exact rest

/-- Calls that finish from anywhere may wait for others to finish first. -/
theorem append (h : Finishes run spend b ks s)
    (after : ∀ c t, Finishes run spend c rest t) : Finishes run spend b (ks ++ rest) s := by
  induction h with
  | done => exact after _ _
  | call covered _ ih =>
    refine .call covered fun more t hrun => ?_
    have more := ih more t hrun
    rwa [List.append_assoc] at more

end Finishes
end SiliconOmni.Lib
