import Mathlib.Data.List.SplitBy
import Mathlib.Data.List.Induction

/-! Lists in which neighbours with one key are merged into one item. -/
namespace SiliconOmni.Lib

/-- How two neighbours with the same key become one. -/
structure Merging (τ κ : Type) where
  key : τ → κ
  merge : τ → τ → τ
  key_merge : ∀ a b, key (merge a b) = key a
  assoc : ∀ a b c, merge (merge a b) c = merge a (merge b c)

namespace Merging
variable {τ κ : Type} [DecidableEq κ] (M : Merging τ κ)

/-- Two merged lists one after the other, merged where they meet. -/
def join (first second : List τ) : List τ :=
  match first.getLast?, second with
  | some last, next :: rest =>
      if M.key last = M.key next then first.dropLast ++ M.merge last next :: rest
      else first ++ second
  | _, _ => first ++ second

/-- A list merged item by item. -/
def merged (items : List τ) : List τ := items.foldl (fun out item => M.join out [item]) []

@[simp] theorem join_nil (first : List τ) : M.join first [] = first := by
  unfold join
  cases first.getLast? <;> simp

@[simp] theorem nil_join (second : List τ) : M.join [] second = second := rfl

theorem join_concat (first : List τ) (last next : τ) (rest : List τ) :
    M.join (first ++ [last]) (next :: rest) =
      if M.key last = M.key next then first ++ M.merge last next :: rest
      else first ++ last :: next :: rest := by
  simp [join]

/-- Merging at one seam does not disturb another. -/
theorem join_assoc (a b c : List τ) : M.join (M.join a b) c = M.join a (M.join b c) := by
  induction a using List.reverseRecOn with
  | nil => simp
  | append_singleton a x =>
    induction c with
    | nil => simp
    | cons z c =>
      cases b with
      | nil => simp
      | cons y b =>
        induction b using List.reverseRecOn with
        | nil =>
          have single : M.join [y] (z :: c) =
              if M.key y = M.key z then M.merge y z :: c else y :: z :: c := M.join_concat [] y z c
          rw [single, join_concat]
          by_cases hxy : M.key x = M.key y
          · rw [if_pos hxy, join_concat, M.key_merge]
            by_cases hyz : M.key y = M.key z
            · rw [if_pos hyz, if_pos (hxy.trans hyz), join_concat, M.key_merge, if_pos hxy, M.assoc]
            · rw [if_neg hyz, if_neg (hxy ▸ hyz), join_concat, if_pos hxy]
          · have hfar : a ++ [x, y] = (a ++ [x]) ++ [y] := by simp
            rw [if_neg hxy, hfar, join_concat]
            by_cases hyz : M.key y = M.key z
            · rw [if_pos hyz, if_pos hyz, join_concat, M.key_merge, if_neg hxy]
              simp
            · rw [if_neg hyz, if_neg hyz, join_concat, if_neg hxy]
              simp
        | append_singleton b y' =>
          have hb : y :: (b ++ [y']) = (y :: b) ++ [y'] := rfl
          have inner : M.join (y :: (b ++ [y'])) (z :: c) =
              y :: (b ++ if M.key y' = M.key z then M.merge y' z :: c else y' :: z :: c) := by
            rw [hb, join_concat]
            split_ifs <;> rfl
          rw [inner, join_concat, join_concat]
          by_cases hxy : M.key x = M.key y
          · rw [if_pos hxy, if_pos hxy]
            have hend : a ++ M.merge x y :: (b ++ [y']) = (a ++ M.merge x y :: b) ++ [y'] := by simp
            rw [hend, join_concat]
            split_ifs <;> simp
          · rw [if_neg hxy, if_neg hxy]
            have hend : a ++ x :: y :: (b ++ [y']) = (a ++ x :: y :: b) ++ [y'] := by simp
            rw [hend, join_concat]
            split_ifs <;> simp

@[simp] theorem merged_nil : M.merged [] = [] := rfl

theorem merged_concat (items : List τ) (item : τ) :
    M.merged (items ++ [item]) = M.join (M.merged items) [item] := by
  simp [merged]

/-- What is merged in two parts is the two joined. -/
theorem merged_append (items more : List τ) :
    M.merged (items ++ more) = M.join (M.merged items) (M.merged more) := by
  induction more using List.reverseRecOn with
  | nil => simp
  | append_singleton more item ih =>
    rw [← List.append_assoc, merged_concat, ih, merged_concat, join_assoc]

/-- What is merged in any number of parts is all of them joined in order. -/
theorem merged_flatten (parts : List (List τ)) :
    M.merged parts.flatten = (parts.map M.merged).foldl M.join [] := by
  induction parts using List.reverseRecOn with
  | nil => rfl
  | append_singleton parts part ih =>
    rw [List.flatten_append, List.flatten_singleton, merged_append, ih]
    simp

/-- Neighbours that remain have different keys. -/
theorem merged_chain (items : List τ) :
    (M.merged items).IsChain fun a b => M.key a ≠ M.key b := by
  induction items using List.reverseRecOn with
  | nil => exact .nil
  | append_singleton items item ih =>
    rw [merged_concat]
    induction hout : M.merged items using List.reverseRecOn with
    | nil => exact .singleton _
    | append_singleton out last _ =>
      rw [hout] at ih
      rw [join_concat]
      split_ifs with hkey
      · rw [List.isChain_append] at ih ⊢
        refine ⟨ih.1, .singleton _, ?_⟩
        intro a ha b hb
        obtain rfl : M.merge last item = b := by simpa using hb
        rw [M.key_merge]
        exact ih.2.2 a ha last rfl
      · have hend : out ++ [last, item] = (out ++ [last]) ++ [item] := by simp
        rw [hend, List.isChain_append]
        refine ⟨ih, .singleton _, ?_⟩
        intro a ha b hb
        obtain rfl : last = a := by simpa using ha
        obtain rfl : item = b := by simpa using hb
        exact hkey

/-- Two lists related item by item end in related items. -/
theorem forall₂_concat {α β : Type} {P : α → β → Prop} {out : List α} {last : α}
    {groups : List β} (h : List.Forall₂ P (out ++ [last]) groups) :
    ∃ before group, groups = before ++ [group] ∧ List.Forall₂ P out before ∧ P last group := by
  have hback : List.Forall₂ P (last :: out.reverse) groups.reverse := by
    simpa using List.forall₂_reverse_iff.mpr h
  obtain ⟨group, before, hgroup, hbefore, heq⟩ := List.forall₂_cons_left_iff.mp hback
  refine ⟨before.reverse, group, ?_, ?_, hgroup⟩
  · rw [← List.reverse_reverse groups, heq, List.reverse_cons]
  · rw [← List.reverse_reverse out]
    exact List.forall₂_reverse_iff.mpr hbefore

/-- A merged list stands for the items it was made of, in order: one group of them to an item, of
which `P` holds if it holds of an item alone and of what is merged. -/
theorem merged_groups (P : τ → List τ → Prop) (one : ∀ a, P a [a])
    (more : ∀ a group b, P a group → M.key a = M.key b → P (M.merge a b) (group ++ [b]))
    (items : List τ) :
    ∃ groups : List (List τ), groups.flatten = items ∧ List.Forall₂ P (M.merged items) groups := by
  induction items using List.reverseRecOn with
  | nil => exact ⟨[], rfl, .nil⟩
  | append_singleton items item ih =>
    obtain ⟨groups, rfl, hgroups⟩ := ih
    rw [merged_concat]
    induction hout : M.merged groups.flatten using List.reverseRecOn with
    | nil =>
      rw [hout, List.forall₂_nil_left_iff] at hgroups
      subst hgroups
      exact ⟨[[item]], rfl, .cons (one item) .nil⟩
    | append_singleton out last _ =>
      rw [hout] at hgroups
      obtain ⟨before, group, rfl, hbefore, hgroup⟩ := forall₂_concat hgroups
      rw [join_concat]
      split_ifs with hkey
      · refine ⟨before ++ [group ++ [item]], by simp, ?_⟩
        exact List.rel_append hbefore (.cons (more _ _ _ hgroup hkey) .nil)
      · refine ⟨before ++ [group, [item]], by simp, ?_⟩
        exact List.rel_append hbefore (.cons hgroup (.cons (one item) .nil))

end Merging
end SiliconOmni.Lib
