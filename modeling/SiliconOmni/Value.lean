import Mathlib.Data.List.Nodup
import Mathlib.Algebra.Group.Int.Defs
import Mathlib.Algebra.Group.Nat.Defs
import Mathlib.Tactic.Common

/-! JSON values as the session files hold them, and the string-keyed maps events carry. -/
namespace SiliconOmni

inductive Value where
  | null
  | bool (b : Bool)
  | number (n : Int)
  /-- A number that is not an integer, as serde prints it. -/
  | decimal (literal : String)
  | string (s : String)
  | array (items : List Value)
  | object (entries : List (String × Value))
  deriving Repr, Inhabited

namespace Value

mutual
def decEq : (a b : Value) → Decidable (a = b)
  | .null, .null => isTrue rfl
  | .bool a, .bool b =>
      if h : a = b then isTrue (by rw [h]) else isFalse (by simp [h])
  | .number a, .number b =>
      if h : a = b then isTrue (by rw [h]) else isFalse (by simp [h])
  | .decimal a, .decimal b =>
      if h : a = b then isTrue (by rw [h]) else isFalse (by simp [h])
  | .string a, .string b =>
      if h : a = b then isTrue (by rw [h]) else isFalse (by simp [h])
  | .array a, .array b =>
      match decEqItems a b with
      | isTrue h => isTrue (by rw [h])
      | isFalse h => isFalse (by simpa using h)
  | .object a, .object b =>
      match decEqEntries a b with
      | isTrue h => isTrue (by rw [h])
      | isFalse h => isFalse (by simpa using h)
  | .null, .bool _ | .null, .number _ | .null, .decimal _ | .null, .string _ | .null, .array _
  | .null, .object _ | .bool _, .null | .bool _, .number _ | .bool _, .decimal _
  | .bool _, .string _ | .bool _, .array _ | .bool _, .object _ | .number _, .null
  | .number _, .bool _ | .number _, .decimal _ | .number _, .string _ | .number _, .array _
  | .number _, .object _ | .decimal _, .null | .decimal _, .bool _ | .decimal _, .number _
  | .decimal _, .string _ | .decimal _, .array _ | .decimal _, .object _ | .string _, .null
  | .string _, .bool _ | .string _, .number _ | .string _, .decimal _ | .string _, .array _
  | .string _, .object _ | .array _, .null | .array _, .bool _ | .array _, .number _
  | .array _, .decimal _ | .array _, .string _ | .array _, .object _ | .object _, .null
  | .object _, .bool _ | .object _, .number _ | .object _, .decimal _ | .object _, .string _
  | .object _, .array _ => isFalse (by simp)

def decEqItems : (a b : List Value) → Decidable (a = b)
  | [], [] => isTrue rfl
  | [], _ :: _ | _ :: _, [] => isFalse (by simp)
  | a :: as, b :: bs =>
      match decEq a b, decEqItems as bs with
      | isTrue h, isTrue t => isTrue (by rw [h, t])
      | isFalse h, _ => isFalse (by simp [h])
      | _, isFalse t => isFalse (by simp [t])

def decEqEntries : (a b : List (String × Value)) → Decidable (a = b)
  | [], [] => isTrue rfl
  | [], _ :: _ | _ :: _, [] => isFalse (by simp)
  | (k, a) :: as, (l, b) :: bs =>
      if hk : k = l then
        match decEq a b, decEqEntries as bs with
        | isTrue h, isTrue t => isTrue (by rw [hk, h, t])
        | isFalse h, _ => isFalse (by simp [h])
        | _, isFalse t => isFalse (by simp [t])
      else isFalse (by simp [hk])
end

instance : DecidableEq Value := decEq

def asBool : Value → Option Bool
  | .bool b => some b
  | _ => none

def asStr : Value → Option String
  | .string s => some s
  | _ => none

def asArray : Value → Option (List Value)
  | .array items => some items
  | _ => none

def asStrings : Value → Option (List String)
  | .array items => items.mapM Value.asStr
  | _ => none

@[simp] theorem asStrings_strings (names : List String) :
    (Value.array (names.map .string)).asStrings = some names := by
  unfold Value.asStrings
  induction names with
  | nil => rfl
  | cons name rest ih =>
    dsimp only at ih ⊢
    rw [List.map_cons, List.mapM_cons, ih]
    rfl

def asObject : Value → Option (List (String × Value))
  | .object m => some m
  | _ => none

/-- An integer. What omni numbers itself (positions, turns, generations, the dial) is read back by
this one, and taken to fit its type. -/
def asInt : Value → Option ℤ
  | .number n => some n
  | _ => none

def asNat : Value → Option ℕ
  | .number n => if 0 ≤ n then some n.toNat else none
  | _ => none

/-- The number fits an `i64`. -/
abbrev FitsI64 (n : ℤ) : Prop := -2 ^ 63 ≤ n ∧ n < 2 ^ 63

def asI64 (value : Value) : Option ℤ := value.asInt.filter FitsI64

def asU64 (value : Value) : Option ℕ := value.asNat.filter (· < 2 ^ 64)

theorem asI64_number {n : ℤ} (fits : FitsI64 n) : (number n).asI64 = some n := by
  rw [asI64, asInt, Option.filter_some, if_pos (decide_eq_true fits)]

theorem asU64_number {n : ℕ} (fits : n < 2 ^ 64) : (number n).asU64 = some n := by
  simpa [asU64, asNat] using fits

def isNull : Value → Bool
  | .null => true
  | _ => false

theorem eq_null_of_isNull {value : Value} (h : value.isNull = true) : value = .null := by
  cases value with
  | null => rfl
  | _ => cases h

end Value

/-- A map with string keys: one entry for each key. -/
abbrev Entries (α : Type) := List (String × α)

/-- A `Map<String, Value>`. -/
abbrev Fields := Entries Value

namespace Entries
variable {α : Type}

/-- Replace the entry in place, or add one: a map never holds a key twice. -/
def insert : Entries α → String → α → Entries α
  | [], key, value => [(key, value)]
  | (k, v) :: rest, key, value =>
      if k = key then (key, value) :: rest else (k, v) :: insert rest key value

theorem mem_insert {m : Entries α} {key : String} {value : α} {entry : String × α}
    (h : entry ∈ insert m key value) : entry = (key, value) ∨ entry ∈ m := by
  induction m with
  | nil => exact .inl (List.mem_singleton.mp h)
  | cons head rest ih =>
    obtain ⟨k, v⟩ := head
    by_cases hk : k = key
    · rw [insert, if_pos hk] at h
      exact (List.mem_cons.mp h).imp_right (List.mem_cons_of_mem _)
    · rw [insert, if_neg hk] at h
      rcases List.mem_cons.mp h with rfl | h
      · exact .inr List.mem_cons_self
      · exact (ih h).imp_right (List.mem_cons_of_mem _)

def remove (m : Entries α) (key : String) : Entries α := m.filter (fun entry => entry.1 ≠ key)

@[simp] theorem lookup_insert_self (m : Entries α) (key : String) (value : α) :
    (insert m key value).lookup key = some value := by
  induction m with
  | nil => simp [insert]
  | cons entry rest ih =>
    obtain ⟨k, v⟩ := entry
    by_cases hk : k = key
    · simp [insert, hk]
    · have hne : (key == k) = false := by simp [Ne.symm hk]
      simpa [insert, hk, List.lookup_cons, hne] using ih

theorem mem_of_lookup {m : Entries α} {key : String} {value : α}
    (h : m.lookup key = some value) : (key, value) ∈ m := by
  induction m with
  | nil => cases h
  | cons head rest ih =>
    obtain ⟨k, v⟩ := head
    simp only [List.lookup_cons] at h
    split at h
    next heq =>
      cases h
      obtain rfl := LawfulBEq.eq_of_beq heq
      exact List.mem_cons_self
    next => exact List.mem_cons_of_mem _ (ih h)

theorem lookup_insert_ne (m : Entries α) {key other : String} (value : α) (h : other ≠ key) :
    (insert m key value).lookup other = m.lookup other := by
  induction m with
  | nil =>
    have hne : (other == key) = false := by simp [h]
    simp [insert, List.lookup_cons, hne]
  | cons entry rest ih =>
    obtain ⟨k, v⟩ := entry
    by_cases hk : k = key
    · subst hk
      have hne : (other == k) = false := by simp [h]
      simp [insert, List.lookup_cons, hne]
    · simp only [insert, hk, ↓reduceIte, List.lookup_cons]
      split
      · rfl
      · exact ih

theorem lookup_remove_ne (m : Entries α) {key other : String} (h : other ≠ key) :
    (remove m key).lookup other = m.lookup other := by
  induction m with
  | nil => rfl
  | cons entry rest ih =>
    obtain ⟨k, v⟩ := entry
    by_cases hk : k = key
    · subst hk
      have hne : (other == k) = false := by simp [h]
      simpa [remove, List.lookup_cons, hne] using ih
    · simp only [remove, ne_eq, hk, not_false_eq_true, decide_true, List.filter_cons_of_pos,
        List.lookup_cons]
      split
      · rfl
      · exact ih

@[simp] theorem lookup_remove_self (m : Entries α) (key : String) :
    (remove m key).lookup key = none := by
  induction m with
  | nil => rfl
  | cons entry rest ih =>
    obtain ⟨k, v⟩ := entry
    by_cases hk : k = key
    · simpa [remove, hk] using ih
    · have hne : (key == k) = false := by simp [Ne.symm hk]
      simpa [remove, hk, List.lookup_cons, hne] using ih

section
variable {β : Type} {m : Entries α} {key : String} {old value : α} {f : α → β}

/-- Replacing an entry by one with the same image changes no image. -/
theorem map_insert_of_lookup (found : m.lookup key = some old) (same : f value = f old) :
    (insert m key value).map (fun entry => f entry.2) = m.map fun entry => f entry.2 := by
  induction m with
  | nil => cases found
  | cons head rest ih =>
    obtain ⟨k, v⟩ := head
    by_cases hk : k = key
    · have hv : v = old := by simpa [List.lookup_cons, hk] using found
      simp [insert, hk, same, hv]
    · have hne : (key == k) = false := by simp [Ne.symm hk]
      rw [List.lookup_cons, hne] at found
      simpa [insert, hk] using ih found

theorem mem_map_insert {image : β} (h : image ∈ (insert m key value).map fun entry => f entry.2) :
    image = f value ∨ image ∈ m.map fun entry => f entry.2 := by
  obtain ⟨entry, hmem, rfl⟩ := List.mem_map.mp h
  rcases mem_insert hmem with rfl | hmem
  · exact .inl rfl
  · exact .inr (List.mem_map_of_mem hmem)

/-- A new image beside images that are all different. -/
theorem nodup_map_insert (nodup : (m.map fun entry => f entry.2).Nodup)
    (new : f value ∉ m.map fun entry => f entry.2) :
    ((insert m key value).map fun entry => f entry.2).Nodup := by
  induction m with
  | nil => simp [insert]
  | cons head rest ih =>
    obtain ⟨k, v⟩ := head
    rw [List.map_cons, List.nodup_cons] at nodup
    rw [List.map_cons, List.mem_cons, not_or] at new
    by_cases hk : k = key
    · simp only [insert, hk, ↓reduceIte, List.map_cons, List.nodup_cons]
      exact ⟨new.2, nodup.2⟩
    · simp only [insert, hk, ↓reduceIte, List.map_cons, List.nodup_cons]
      refine ⟨fun hmem => ?_, ih nodup.2 new.2⟩
      rcases mem_map_insert hmem with heq | hmem
      · exact new.1 heq.symm
      · exact nodup.1 hmem

/-- No key twice. -/
def Keyed (m : Entries α) : Prop := (m.map (·.1)).Nodup

theorem Keyed.insert (h : Keyed m) : Keyed (Entries.insert m key value) := by
  induction m with
  | nil => simp [Keyed, Entries.insert]
  | cons head rest ih =>
    obtain ⟨k, v⟩ := head
    rw [Keyed, List.map_cons, List.nodup_cons] at h
    by_cases hk : k = key
    · subst hk
      rw [Keyed, Entries.insert, if_pos rfl, List.map_cons, List.nodup_cons]
      exact h
    · rw [Keyed, Entries.insert, if_neg hk, List.map_cons, List.nodup_cons]
      refine ⟨fun hmem => ?_, ih h.2⟩
      obtain ⟨entry, hentry, hkey⟩ := List.mem_map.mp hmem
      rcases mem_insert hentry with rfl | hentry
      · exact hk hkey.symm
      · exact h.1 (List.mem_map.mpr ⟨entry, hentry, hkey⟩)

theorem Keyed.remove (h : Keyed m) : Keyed (Entries.remove m key) :=
  h.sublist (List.filter_sublist.map _)

theorem Keyed.lookup (h : Keyed m) (hmem : (key, value) ∈ m) : m.lookup key = some value := by
  induction m with
  | nil => cases hmem
  | cons head rest ih =>
    obtain ⟨k, v⟩ := head
    rw [Keyed, List.map_cons, List.nodup_cons] at h
    rcases List.mem_cons.mp hmem with heq | hrest
    · cases heq
      simp
    · have hne : key ≠ k := by
        rintro rfl
        exact h.1 (List.mem_map.mpr ⟨_, hrest, rfl⟩)
      have hbeq : (key == k) = false := by simp [hne]
      rw [List.lookup_cons, hbeq]
      exact ih h.2 hrest

/-- A key that no entry has goes to the end. -/
theorem insert_of_apart (value : α) (apart : ∀ entry ∈ m, entry.1 ≠ key) :
    insert m key value = m ++ [(key, value)] := by
  induction m with
  | nil => rfl
  | cons head rest ih =>
    obtain ⟨k, v⟩ := head
    have hk : k ≠ key := apart _ List.mem_cons_self
    rw [insert, if_neg hk, ih fun entry member => apart entry (List.mem_cons_of_mem _ member)]
    rfl

/-- Where no key stands twice, removing one takes away the entry found under it. -/
theorem perm_remove (keys : Keyed m) (found : m.lookup key = some value) :
    m.Perm ((key, value) :: remove m key) := by
  induction m with
  | nil => cases found
  | cons head rest ih =>
    obtain ⟨k, v⟩ := head
    rw [Keyed, List.map_cons, List.nodup_cons] at keys
    by_cases hk : k = key
    · subst hk
      have hv : v = value := by simpa [List.lookup_cons] using found
      have stay : remove ((k, v) :: rest) k = rest := by
        rw [remove, List.filter_cons_of_neg (by simp), List.filter_eq_self]
        intro entry member
        have apart : entry.1 ≠ k := by
          intro same
          exact keys.1 (List.mem_map.mpr ⟨entry, member, same⟩)
        simpa using apart
      rw [stay, hv]
    · have hne : (key == k) = false := by simp [Ne.symm hk]
      rw [List.lookup_cons, hne] at found
      have stay : remove ((k, v) :: rest) key = (k, v) :: remove rest key := by
        rw [remove, List.filter_cons_of_pos (by simp [hk])]
        rfl
      rw [stay]
      exact ((ih keys.2 found).cons _).trans (List.Perm.swap ..)

end
end Entries

namespace Value

def get? : Value → String → Option Value
  | .object m, key => m.lookup key
  | _, _ => none

/-- What is under a key, which is null where nothing is. -/
def at_ (value : Value) (key : String) : Value := (value.get? key).getD .null

def str? (value : Value) (key : String) : Option String := (value.get? key).bind asStr

def flag? (value : Value) (key : String) : Bool := ((value.get? key).bind asBool).getD false

end Value
end SiliconOmni
