import Mathlib.Data.List.Nodup
import SiliconOmni.Daemon.Registry

/-! The gates: one operation at a time on a session, although gates come and go. -/
namespace SiliconOmni.Daemon

/-- The gate a thread holds a clone of. -/
def Pc.clone : Pc → Option ℕ
  | waiting _ g _ | inside _ g _ _ | leaving g _ | left g _ => some g
  | _ => none

/-- The session a thread waits for or works on, and by which gate. -/
def Pc.claim : Pc → Option (ℕ × ℕ)
  | waiting name g _ | inside name g _ _ => some (name, g)
  | _ => none

/-- The gate a thread has locked. -/
def Pc.owned : Pc → Option ℕ
  | inside _ g _ _ | leaving g _ => some g
  | _ => none

theorem Pc.clone_of_claim {pc : Pc} {name g : ℕ} (h : pc.claim = some (name, g)) :
    pc.clone = some g := by
  cases pc <;> simp_all [claim, clone]

theorem Pc.claim_of_clone {pc : Pc} (h : pc.clone = none) : pc.claim = none := by
  cases pc <;> simp_all [claim, clone]

theorem Pc.owned_of_clone {pc : Pc} (h : pc.clone = none) : pc.owned = none := by
  cases pc <;> simp_all [owned, clone]

@[simp] theorem Registry.home_clone (op : Op) : (Registry.home op).clone = none := by
  cases op <;> rfl

@[simp] theorem Registry.home_claim (op : Op) : (Registry.home op).claim = none := by
  cases op <;> rfl

@[simp] theorem Registry.home_owned (op : Op) : (Registry.home op).owned = none := by
  cases op <;> rfl

namespace Registry
variable {s s' : Registry} {t u name g : ℕ}

/-- What ties the gate map, the locks and the clones to the threads. -/
structure Gates (s : Registry) : Prop where
  clones : ∀ t g, t ∈ s.clones g ↔ (s.pc t).clone = some g
  nodup : ∀ g, (s.clones g).Nodup
  current : ∀ t name g, (s.pc t).claim = some (name, g) → s.gates name = some g
  owner : ∀ t g, (s.pc t).owned = some g → s.owner g = some t
  known : ∀ name g, s.gates name = some g → g < s.gatesMade
  made : ∀ t g, (s.pc t).clone = some g → g < s.gatesMade

theorem Gates.init : Gates {} := by
  constructor <;> simp [Pc.clone, Pc.claim, Pc.owned]

/-- Two threads that work on one session are the same. -/
theorem Gates.exclusive {g' : ℕ} {op op' : Op} {st st' : Stage} (h : Gates s)
    (ht : s.pc t = .inside name g op st) (hu : s.pc u = .inside name g' op' st') : t = u := by
  have hgt := h.current t name g (by rw [ht]; rfl)
  have hgu := h.current u name g' (by rw [hu]; rfl)
  have hg : g = g' := Option.some.inj (hgt.symm.trans hgu)
  subst hg
  have hot := h.owner t g (by rw [ht]; rfl)
  have hou := h.owner u g (by rw [hu]; rfl)
  exact Option.some.inj (hot.symm.trans hou)

/-- Steps that leave the gates alone. -/
theorem Gates.congr (h : Gates s) (gates : s'.gates = s.gates) (made : s'.gatesMade = s.gatesMade)
    (owner : s'.owner = s.owner) (clones : s'.clones = s.clones)
    (clone : ∀ u, (s'.pc u).clone = (s.pc u).clone) (claim : ∀ u, (s'.pc u).claim = (s.pc u).claim)
    (owned : ∀ u, (s'.pc u).owned = (s.pc u).owned) : Gates s' := by
  constructor
  · intro u g
    rw [clones, clone]
    exact h.clones u g
  · intro g
    rw [clones]
    exact h.nodup g
  · intro u name g hu
    rw [gates]
    exact h.current u name g (claim u ▸ hu)
  · intro u g hu
    rw [owner]
    exact h.owner u g (owned u ▸ hu)
  · intro name g hg
    rw [made]
    exact h.known name g (gates ▸ hg)
  · intro u g hu
    rw [made]
    exact h.made u g (clone u ▸ hu)

/-- A thread moves on within the gate it holds. -/
theorem Gates.setPc {pc : Pc} (h : Gates s) (clone : pc.clone = (s.pc t).clone)
    (claim : pc.claim = (s.pc t).claim) (owned : pc.owned = (s.pc t).owned) :
    Gates (s.setPc t pc) := by
  have view {α : Type} (f : Pc → α) (ht : f pc = f (s.pc t)) (u : ℕ) :
      f ((s.setPc t pc).pc u) = f (s.pc u) := by
    by_cases hu : u = t
    · subst hu
      simpa [Registry.setPc] using ht
    · simp [Registry.setPc, hu]
  exact h.congr rfl rfl rfl rfl (view Pc.clone clone) (view Pc.claim claim) (view Pc.owned owned)

/-- A thread moves on outside the gates. -/
theorem Gates.move {pc : Pc} (h : Gates s) (ht : (s.pc t).clone = none) (hpc : pc.clone = none) :
    Gates (s.setPc t pc) :=
  h.setPc (hpc.trans ht.symm)
    ((Pc.claim_of_clone hpc).trans (Pc.claim_of_clone ht).symm)
    ((Pc.owned_of_clone hpc).trans (Pc.owned_of_clone ht).symm)

theorem Gates.gate {op : Op} (h : Gates s) (clone : (s.pc t).clone = none)
    (owned : (s.pc t).owned = none) : Gates (s.gate t name op) := by
  have notin (g : ℕ) : t ∉ s.clones g := by
    intro hmem
    rw [h.clones, clone] at hmem
    cases hmem
  have other {u : ℕ} (hu : u ≠ t) (pc : Pc) : Function.update s.pc t pc u = s.pc u :=
    Function.update_of_ne hu ..
  unfold Registry.gate
  split
  · rename_i g hg
    have self : Function.update s.pc t (.waiting name g op) t = .waiting name g op :=
      Function.update_self ..
    constructor
    · intro u k
      show u ∈ Function.update s.clones g (t :: s.clones g) k ↔ _
      by_cases hu : u = t
      · subst hu
        simp only [Registry.setPc, self, Pc.clone, Option.some.injEq]
        by_cases hk : k = g
        · simp [hk]
        · simp [hk, notin k, Ne.symm hk]
      · simp only [Registry.setPc, other hu, ← h.clones]
        by_cases hk : k = g
        · simp [hk, hu]
        · simp [hk]
    · intro k
      show (Function.update s.clones g (t :: s.clones g) k).Nodup
      by_cases hk : k = g
      · subst hk
        simpa using ⟨notin k, h.nodup k⟩
      · rw [Function.update_of_ne hk]
        exact h.nodup k
    · intro u name' k hk
      show s.gates name' = some k
      by_cases hu : u = t
      · subst hu
        simp only [Registry.setPc, self, Pc.claim, Option.some.injEq, Prod.mk.injEq] at hk
        rw [← hk.1, ← hk.2]
        exact hg
      · simp only [Registry.setPc, other hu] at hk
        exact h.current u name' k hk
    · intro u k hk
      by_cases hu : u = t
      · subst hu
        simp [Registry.setPc, Pc.owned] at hk
      · simp only [Registry.setPc, other hu] at hk
        exact h.owner u k hk
    · exact h.known
    · intro u k hk
      by_cases hu : u = t
      · subst hu
        simp only [Registry.setPc, self, Pc.clone, Option.some.injEq] at hk
        exact hk ▸ h.known name g hg
      · simp only [Registry.setPc, other hu] at hk
        exact h.made u k hk
  · rename_i hg
    have self (g : ℕ) : Function.update s.pc t (.waiting name g op) t = .waiting name g op :=
      Function.update_self ..
    have none (u : ℕ) : (s.pc u).clone ≠ some s.gatesMade := by
      intro hu
      exact absurd (h.made u _ hu) (Nat.lt_irrefl _)
    have free (u : ℕ) : u ∉ s.clones s.gatesMade := by
      intro hu
      exact none u ((h.clones u _).mp hu)
    constructor
    · intro u k
      show u ∈ Function.update s.clones s.gatesMade [t] k ↔ _
      by_cases hu : u = t
      · subst hu
        simp only [Registry.setPc, self, Pc.clone, Option.some.injEq]
        by_cases hk : k = s.gatesMade
        · simp [hk]
        · simp [hk, notin k, Ne.symm hk]
      · simp only [Registry.setPc, other hu]
        by_cases hk : k = s.gatesMade
        · simp [hk, hu, none u]
        · simp [hk, h.clones]
    · intro k
      show (Function.update s.clones s.gatesMade [t] k).Nodup
      by_cases hk : k = s.gatesMade
      · simp [hk]
      · rw [Function.update_of_ne hk]
        exact h.nodup k
    · intro u name' k hk
      show Function.update s.gates name (some s.gatesMade) name' = some k
      by_cases hu : u = t
      · subst hu
        simp only [Registry.setPc, self, Pc.claim, Option.some.injEq, Prod.mk.injEq] at hk
        rw [← hk.1, ← hk.2, Function.update_self]
      · simp only [Registry.setPc, other hu] at hk
        have hcur := h.current u name' k hk
        have hne : name' ≠ name := by
          rintro rfl
          rw [hg] at hcur
          cases hcur
        rw [Function.update_of_ne hne]
        exact hcur
    · intro u k hk
      by_cases hu : u = t
      · subst hu
        simp [Registry.setPc, Pc.owned] at hk
      · simp only [Registry.setPc, other hu] at hk
        exact h.owner u k hk
    · intro name' k hk
      change Function.update s.gates name (some s.gatesMade) name' = some k at hk
      show k < s.gatesMade + 1
      by_cases hn : name' = name
      · subst hn
        rw [Function.update_self] at hk
        cases hk
        exact Nat.lt_succ_self _
      · rw [Function.update_of_ne hn] at hk
        exact Nat.lt_succ_of_lt (h.known name' k hk)
    · intro u k hk
      show k < s.gatesMade + 1
      by_cases hu : u = t
      · subst hu
        simp only [Registry.setPc, self, Pc.clone, Option.some.injEq] at hk
        exact hk ▸ Nat.lt_succ_self _
      · simp only [Registry.setPc, other hu] at hk
        exact Nat.lt_succ_of_lt (h.made u k hk)

theorem Gates.enter {op : Op} (h : Gates s) (ht : s.pc t = .waiting name g op)
    (free : s.owner g = none) :
    Gates ({ s with owner := Function.update s.owner g (some t) }.setPc t
      (.inside name g op .begin)) := by
  have hlocked : Gates { s with owner := Function.update s.owner g (some t) } := by
    refine { h with owner := fun u k hk => ?_ }
    show Function.update s.owner g (some t) k = some u
    have hold := h.owner u k hk
    have hkg : k ≠ g := by
      rintro rfl
      rw [free] at hold
      cases hold
    rw [Function.update_of_ne hkg]
    exact hold
  have hclone : (s.pc t).clone = some g := by rw [ht]; rfl
  have hclaim : (s.pc t).claim = some (name, g) := by rw [ht]; rfl
  constructor
  · intro u k
    by_cases hu : u = t
    · subst hu
      have hold := h.clones u k
      rw [hclone] at hold
      simpa [Registry.setPc, Pc.clone] using hold
    · simpa [Registry.setPc, hu] using h.clones u k
  · exact h.nodup
  · intro u name' k hk
    by_cases hu : u = t
    · subst hu
      refine h.current u name' k ?_
      rw [hclaim]
      simpa [Registry.setPc, Pc.claim] using hk
    · exact h.current u name' k (by simpa [Registry.setPc, hu] using hk)
  · intro u k hk
    by_cases hu : u = t
    · subst hu
      have hgk : g = k := by simpa [Registry.setPc, Pc.owned] using hk
      subst hgk
      exact Function.update_self ..
    · exact hlocked.owner u k (by simpa [Registry.setPc, hu] using hk)
  · exact h.known
  · intro u k hk
    by_cases hu : u = t
    · subst hu
      refine h.made u k ?_
      rw [hclone]
      simpa [Registry.setPc, Pc.clone] using hk
    · exact h.made u k (by simpa [Registry.setPc, hu] using hk)

/-- The gate leaves the map only if no other thread refers to it. -/
theorem Gates.reclaim {op : Op} {st : Stage} (h : Gates s) (ht : s.pc t = .inside name g op st) :
    Gates ({ s with
      gates := if s.last name g then Function.update s.gates name none else s.gates }.setPc t
        (.leaving g op)) := by
  have hclone : (s.pc t).clone = some g := by rw [ht]; rfl
  have howned : (s.pc t).owned = some g := by rw [ht]; rfl
  have hgate : s.gates name = some g := h.current t name g (by rw [ht]; rfl)
  constructor
  · intro u k
    by_cases hu : u = t
    · subst hu
      have hold := h.clones u k
      rw [hclone] at hold
      simpa [Registry.setPc, Pc.clone] using hold
    · simpa [Registry.setPc, hu] using h.clones u k
  · exact h.nodup
  · intro u name' k hk
    by_cases hu : u = t
    · subst hu
      simp [Registry.setPc, Pc.claim] at hk
    · replace hk : (s.pc u).claim = some (name', k) := by simpa [Registry.setPc, hu] using hk
      have hcur := h.current u name' k hk
      show (if s.last name g then Function.update s.gates name none else s.gates) name' = some k
      split_ifs with hlast
      · have hne : name' ≠ name := by
          rintro rfl
          obtain rfl := Option.some.inj (hgate.symm.trans hcur)
          have hlen : (s.clones g).length = 1 := by
            simpa [last, hgate] using hlast
          obtain ⟨v, hv⟩ := List.length_eq_one_iff.mp hlen
          have hmemt := (h.clones t g).mpr hclone
          have hmemu := (h.clones u g).mpr (Pc.clone_of_claim hk)
          rw [hv, List.mem_singleton] at hmemt hmemu
          exact hu (hmemu.trans hmemt.symm)
        rw [Function.update_of_ne hne]
        exact hcur
      · exact hcur
  · intro u k hk
    by_cases hu : u = t
    · subst hu
      refine h.owner u k ?_
      rw [howned]
      simpa [Registry.setPc, Pc.owned] using hk
    · exact h.owner u k (by simpa [Registry.setPc, hu] using hk)
  · intro name' k hk
    refine h.known name' k ?_
    change (if s.last name g then Function.update s.gates name none else s.gates) name' = some k at hk
    split_ifs at hk with hlast
    · by_cases hn : name' = name
      · subst hn
        simp at hk
      · rwa [Function.update_of_ne hn] at hk
    · exact hk
  · intro u k hk
    by_cases hu : u = t
    · subst hu
      refine h.made u k ?_
      rw [hclone]
      simpa [Registry.setPc, Pc.clone] using hk
    · exact h.made u k (by simpa [Registry.setPc, hu] using hk)

theorem Gates.unlock {op : Op} (h : Gates s) (ht : s.pc t = .leaving g op) :
    Gates ({ s with owner := Function.update s.owner g none }.setPc t (.left g op)) := by
  have hclone : (s.pc t).clone = some g := by rw [ht]; rfl
  have howner := h.owner t g (by rw [ht]; rfl)
  constructor
  · intro u k
    by_cases hu : u = t
    · subst hu
      have hold := h.clones u k
      rw [hclone] at hold
      simpa [Registry.setPc, Pc.clone] using hold
    · simpa [Registry.setPc, hu] using h.clones u k
  · exact h.nodup
  · intro u name' k hk
    by_cases hu : u = t
    · subst hu
      simp [Registry.setPc, Pc.claim] at hk
    · exact h.current u name' k (by simpa [Registry.setPc, hu] using hk)
  · intro u k hk
    by_cases hu : u = t
    · subst hu
      simp [Registry.setPc, Pc.owned] at hk
    · have hold := h.owner u k (by simpa [Registry.setPc, hu] using hk)
      have hkg : k ≠ g := by
        rintro rfl
        exact hu (Option.some.inj (hold.symm.trans howner))
      show Function.update s.owner g none k = some u
      rw [Function.update_of_ne hkg]
      exact hold
  · exact h.known
  · intro u k hk
    by_cases hu : u = t
    · subst hu
      refine h.made u k ?_
      rw [hclone]
      simpa [Registry.setPc, Pc.clone] using hk
    · exact h.made u k (by simpa [Registry.setPc, hu] using hk)

theorem Gates.drop {op : Op} (h : Gates s) (ht : s.pc t = .left g op) :
    Gates ({ s with clones := Function.update s.clones g ((s.clones g).erase t) }.setPc t
      (home op)) := by
  have hclone : (s.pc t).clone = some g := by rw [ht]; rfl
  constructor
  · intro u k
    show u ∈ Function.update s.clones g ((s.clones g).erase t) k ↔ _
    by_cases hu : u = t
    · subst hu
      by_cases hk : k = g
      · subst hk
        simp [Registry.setPc, (h.nodup k).mem_erase_iff]
      · have hnot := h.clones u k
        rw [hclone] at hnot
        simp [Registry.setPc, hk, hnot, Ne.symm hk]
    · have hold := h.clones u k
      by_cases hk : k = g
      · subst hk
        simpa [Registry.setPc, hu, (h.nodup k).mem_erase_iff] using hold
      · simpa [Registry.setPc, hu, hk] using hold
  · intro k
    show (Function.update s.clones g ((s.clones g).erase t) k).Nodup
    by_cases hk : k = g
    · subst hk
      simpa using (h.nodup k).erase t
    · rw [Function.update_of_ne hk]
      exact h.nodup k
  · intro u name' k hk
    by_cases hu : u = t
    · subst hu
      simp [Registry.setPc] at hk
    · exact h.current u name' k (by simpa [Registry.setPc, hu] using hk)
  · intro u k hk
    by_cases hu : u = t
    · subst hu
      simp [Registry.setPc] at hk
    · exact h.owner u k (by simpa [Registry.setPc, hu] using hk)
  · exact h.known
  · intro u k hk
    by_cases hu : u = t
    · subst hu
      simp [Registry.setPc] at hk
    · exact h.made u k (by simpa [Registry.setPc, hu] using hk)

/-- An operation inside its gate touches nothing but sessions and conductors. -/
theorem body_frame {op : Op} {ok : Bool} {st st' : Stage}
    (h : s.body name op ok st = some (s', st')) :
    s' = { s with sessions := s'.sessions, lives := s'.lives, made := s'.made } := by
  cases st <;> simp only [body, stopLockedIf] at h <;>
    repeat' (first | (cases h; rfl) | cases h | split at h)

/-- Steps of threads that hold no clone of a gate, before and after. -/
theorem Gates.away {r : Registry} {pc pc' : Pc} (h : Gates s) (gates : r.gates = s.gates)
    (made : r.gatesMade = s.gatesMade) (owner : r.owner = s.owner) (clones : r.clones = s.clones)
    (threads : r.pc = s.pc) (ht : s.pc t = pc) (before : pc.clone = none)
    (after : pc'.clone = none) : Gates (r.setPc t pc') := by
  have hr : Gates r := h.congr gates made owner clones (fun u => by rw [threads])
    (fun u => by rw [threads]) (fun u => by rw [threads])
  exact hr.move (by rw [threads, ht]; exact before) after

theorem Gates.go {r : Registry} {op : Op} {ok : Bool} {st st' : Stage} (h : Gates s)
    (inside : s.pc t = .inside name g op st) (does : s.body name op ok st = some (r, st')) :
    Gates (r.setPc t (.inside name g op st')) := by
  have hframe := body_frame does
  have hr : Gates r := by
    rw [hframe]
    exact h.congr rfl rfl rfl rfl (fun _ => rfl) (fun _ => rfl) (fun _ => rfl)
  have hpc : r.pc = s.pc := by rw [hframe]
  exact hr.setPc (by rw [hpc, inside]; rfl) (by rw [hpc, inside]; rfl) (by rw [hpc, inside]; rfl)

theorem Gates.step {act : Act} (h : Gates s) (hstep : s.step act = some s') : Gates s' := by
  cases moves_of_step hstep with
  | call idle => exact h.gate (by rw [idle]; rfl) (by rw [idle]; rfl)
  | reap idle | shutdown idle | forget idle => exact h.away rfl rfl rfl rfl rfl idle rfl rfl
  | next reaping => exact h.gate (by rw [reaping]; rfl) (by rw [reaping]; rfl)
  | enter waiting free => exact h.enter waiting free
  | go inside does => exact h.go inside does
  | reclaim done => exact h.reclaim done
  | unlock leaving => exact h.unlock leaving
  | drop gone => exact h.drop gone
  | visit forgetting => exact h.away rfl rfl rfl rfl rfl forgetting rfl rfl
  | take closing => exact h.away rfl rfl rfl rfl rfl closing rfl rfl
  | put putting | emptied putting => exact h.away rfl rfl rfl rfl rfl putting rfl rfl
  | pass shutting | swap shutting => exact h.away rfl rfl rfl rfl rfl shutting rfl rfl
  | join joining => exact h.away rfl rfl rfl rfl rfl joining rfl rfl
  | reaped reaping => exact h.away rfl rfl rfl rfl rfl reaping rfl rfl
  | forgot forgetting => exact h.away rfl rfl rfl rfl rfl forgetting rfl rfl
  | detach | close | tick | stir | halt | exit =>
    exact h.congr rfl rfl rfl rfl (fun _ => rfl) (fun _ => rfl) (fun _ => rfl)

theorem reach_gates (h : machine.Reach (fun _ _ => True) s) : Gates s := by
  refine h.invariant ?_ fun _ _ _ _ hinv _ hstep => hinv.step hstep
  rintro _ rfl
  exact Gates.init

end Registry
end SiliconOmni.Daemon
