import Mathlib.Tactic.Common

/-! Reasoning about stateful programs that may halt: weakest preconditions and frames. -/
namespace SiliconOmni.Lib

variable {ε σ α β : Type}

/-- `m` started in `s` ends well in a state that satisfies `Q`, or halts in one that satisfies
`H`. -/
def wp (m : EStateM ε σ α) (Q : α → σ → Prop) (H : ε → σ → Prop) (s : σ) : Prop :=
  match m s with
  | .ok a t => Q a t
  | .error e t => H e t

variable {Q : α → σ → Prop} {R : β → σ → Prop} {H : ε → σ → Prop} {s : σ}

@[simp] theorem wp_pure (a : α) : wp (pure a) Q H s = Q a s := rfl

@[simp] theorem wp_bind (m : EStateM ε σ α) (f : α → EStateM ε σ β) :
    wp (m >>= f) R H s = wp m (fun a => wp (f a) R H) H s := by
  show (match EStateM.bind m f s with | .ok a t => R a t | .error e t => H e t) = _
  unfold EStateM.bind wp
  cases m s <;> rfl

@[simp] theorem wp_map (f : α → β) (m : EStateM ε σ α) :
    wp (f <$> m) R H s = wp m (fun a => R (f a)) H s := by
  show (match EStateM.map f m s with | .ok a t => R a t | .error e t => H e t) = _
  unfold EStateM.map wp
  cases m s <;> rfl

@[simp] theorem wp_get {Q : σ → σ → Prop} : wp (get : EStateM ε σ σ) Q H s = Q s s := rfl

@[simp] theorem wp_set {Q : PUnit → σ → Prop} (t : σ) :
    wp (set t : EStateM ε σ PUnit) Q H s = Q ⟨⟩ t := rfl

@[simp] theorem wp_modify {Q : PUnit → σ → Prop} (f : σ → σ) :
    wp (modify f : EStateM ε σ PUnit) Q H s = Q ⟨⟩ (f s) := rfl

@[simp] theorem wp_modifyGet (f : σ → α × σ) :
    wp (modifyGet f : EStateM ε σ α) Q H s = Q (f s).1 (f s).2 := rfl

@[simp] theorem wp_throw (e : ε) : wp (throw e : EStateM ε σ α) Q H s = H e s := rfl

theorem wp_ite {c : Prop} [Decidable c] (m n : EStateM ε σ α) :
    wp (if c then m else n) Q H s ↔ (c → wp m Q H s) ∧ (¬c → wp n Q H s) := by
  by_cases hc : c <;> simp [hc]

/-- A weaker demand on the outcome is met whenever the stronger one is. -/
theorem wp_mono {m : EStateM ε σ α} {Q' : α → σ → Prop} {H' : ε → σ → Prop}
    (h : wp m Q H s) (hQ : ∀ a t, Q a t → Q' a t) (hH : ∀ e t, H e t → H' e t) :
    wp m Q' H' s := by
  unfold wp at h ⊢
  split
  next a t hm => rw [hm] at h; exact hQ a t h
  next e t hm => rw [hm] at h; exact hH e t h

theorem wp_and {m : EStateM ε σ α} {Q' : α → σ → Prop} {H' : ε → σ → Prop}
    (h : wp m Q H s) (h' : wp m Q' H' s) :
    wp m (fun a t => Q a t ∧ Q' a t) (fun e t => H e t ∧ H' e t) s := by
  unfold wp at h h' ⊢
  cases hm : m s <;> rw [hm] at h h' <;> exact ⟨h, h'⟩

/-- What a program may do to its state: one relation for ending well, one for halting. -/
structure Frame (σ : Type) where
  live : σ → σ → Prop
  halted : σ → σ → Prop
  refl : ∀ s, live s s
  trans : ∀ {s t u}, live s t → live t u → live s u
  trans_halted : ∀ {s t u}, live s t → halted t u → halted s u

namespace Frame
variable {F : Frame σ}

/-- Every run of `m` stays inside the frame. -/
def Holds (F : Frame σ) (m : EStateM ε σ α) : Prop :=
  ∀ s, wp m (fun _ t => F.live s t) (fun _ t => F.halted s t) s

theorem Holds.wp {m : EStateM ε σ α} (h : F.Holds m)
    (hQ : ∀ a t, F.live s t → Q a t) (hH : ∀ e t, F.halted s t → H e t) : wp m Q H s :=
  wp_mono (h s) hQ hH

theorem holds_pure (a : α) : F.Holds (pure a : EStateM ε σ α) := fun s => F.refl s

theorem holds_get : F.Holds (get : EStateM ε σ σ) := fun s => F.refl s

theorem holds_bind {m : EStateM ε σ α} {f : α → EStateM ε σ β}
    (hm : F.Holds m) (hf : ∀ a, F.Holds (f a)) : F.Holds (m >>= f) := by
  intro s
  rw [wp_bind]
  refine hm.wp (fun a t hst => ?_) (fun _ _ h => h)
  exact (hf a).wp (fun _ _ htu => F.trans hst htu) (fun _ _ htu => F.trans_halted hst htu)

theorem holds_ite {c : Prop} [Decidable c] {m n : EStateM ε σ α}
    (hm : F.Holds m) (hn : F.Holds n) : F.Holds (if c then m else n) := by
  split
  · exact hm
  · exact hn

end Frame
end SiliconOmni.Lib
