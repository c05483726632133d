import Mathlib.Order.Preorder.Finite
import Mathlib.Order.Lattice
import Mathlib.Data.Set.Finite.Basic

/-! Points with two coordinates, the greater the better in both: which of them no other beats. -/
namespace SiliconOmni.Lib.Frontier
variable {α β γ : Type}

/-- Every point of a finite list is matched or beaten by one that none of them beats. -/
theorem exists_unbeaten {Q : Type} [PartialOrder Q] (spot : α → Q) {points : List α} {p : α}
    (hp : p ∈ points) :
    ∃ m ∈ points, spot p ≤ spot m ∧ ∀ q ∈ points, ¬spot m < spot q := by
  have finite : (spot '' {q | q ∈ points}).Finite := (List.finite_toSet points).image spot
  obtain ⟨_, hle, ⟨m, hm, rfl⟩, hmax⟩ := finite.exists_le_maximal ⟨p, hp, rfl⟩
  exact ⟨m, hm, hle, fun q hq hlt => hlt.not_ge (hmax ⟨q, hq, rfl⟩ hlt.le)⟩

/-- Of two different points in lexicographic order, the later is worse in the first coordinate and
better in the second, or else the earlier beats it. -/
theorem descends [LinearOrder β] [LinearOrder γ] {p q : β × γ} (first : q.1 ≤ p.1)
    (second : q.1 = p.1 → q.2 ≤ p.2) (apart : q ≠ p) (unbeaten : ¬q < p) :
    q.1 < p.1 ∧ p.2 < q.2 := by
  have hsecond : p.2 < q.2 := by
    by_contra hle
    have hqp : q ≤ p := ⟨first, not_lt.mp hle⟩
    exact unbeaten (lt_of_le_of_ne hqp apart)
  refine ⟨lt_of_le_of_ne first fun heq => ?_, hsecond⟩
  exact absurd (second heq) (not_le.mpr hsecond)

/-- The first point on each spot, in order, but for those already seen. -/
def distinct {Q : Type} [DecidableEq Q] (spot : α → Q) : List Q → List α → List α
  | _, [] => []
  | seen, point :: later =>
      if seen.contains (spot point) then distinct spot seen later
      else point :: distinct spot (spot point :: seen) later

section distinct
variable {Q : Type} [DecidableEq Q] (spot : α → Q)

theorem distinct_sublist (seen : List Q) (points : List α) :
    (distinct spot seen points).Sublist points := by
  induction points generalizing seen with
  | nil => exact .slnil
  | cons point later ih =>
    rw [distinct]
    split_ifs
    · exact (ih seen).cons _
    · exact (ih _).cons_cons _

theorem distinct_fresh (seen : List Q) (points : List α) :
    ∀ q ∈ distinct spot seen points, spot q ∉ seen := by
  induction points generalizing seen with
  | nil => exact fun q hq => absurd hq List.not_mem_nil
  | cons point later ih =>
    rw [distinct]
    split_ifs with hseen
    · exact ih seen
    · intro q hq
      rcases List.mem_cons.mp hq with rfl | hlater
      · simpa using hseen
      · exact fun hmem => ih _ q hlater (List.mem_cons_of_mem _ hmem)

theorem distinct_pairwise (seen : List Q) (points : List α) :
    (distinct spot seen points).Pairwise fun p q => spot q ≠ spot p := by
  induction points generalizing seen with
  | nil => exact .nil
  | cons point later ih =>
    rw [distinct]
    split_ifs
    · exact ih seen
    · refine List.pairwise_cons.mpr ⟨?_, ih _⟩
      intro q hq heq
      exact distinct_fresh spot _ _ q hq (heq ▸ List.mem_cons_self)

theorem distinct_covers {seen : List Q} {points : List α} {p : α} (hp : p ∈ points) (new : spot p ∉ seen) :
    ∃ q ∈ distinct spot seen points, spot q = spot p := by
  induction points generalizing seen with
  | nil => exact absurd hp List.not_mem_nil
  | cons point later ih =>
    rw [distinct]
    by_cases heq : spot p = spot point
    · rw [if_neg (by simpa [← heq] using new)]
      exact ⟨point, List.mem_cons_self, heq.symm⟩
    · have hlater : p ∈ later := by
        rcases List.mem_cons.mp hp with rfl | hlater
        · exact absurd rfl heq
        · exact hlater
      split_ifs
      · exact ih hlater new
      · have hnew : spot p ∉ spot point :: seen := by
          rw [List.mem_cons, not_or]
          exact ⟨heq, new⟩
        obtain ⟨q, hq, hspot⟩ := ih hlater hnew
        exact ⟨q, List.mem_cons_of_mem _ hq, hspot⟩

end distinct
end SiliconOmni.Lib.Frontier
