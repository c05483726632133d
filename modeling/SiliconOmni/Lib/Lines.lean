import Mathlib.Data.List.Infix
import Mathlib.Tactic.Common

/-! Records on lines of their own, and a reader of a stream of them that may be cut anywhere. -/
namespace SiliconOmni.Lib.Lines
variable {α M : Type}

/-- The lines of a stream: every line with its separator, and last what has none. -/
def splitLines [DecidableEq α] (sep : α) : List α → List (List α)
  | [] => []
  | a :: rest =>
      if a = sep then [a] :: splitLines sep rest
      else match splitLines sep rest with
        | [] => [[a]]
        | line :: later => (a :: line) :: later

/-- The lines a reader is given of a stream: where it is broken, and does not just end, the last is
lost if its separator has not arrived. -/
def readLines [DecidableEq α] (broken : Bool) (sep : α) (stream : List α) : List (List α) :=
  let lines := splitLines sep stream
  if broken then lines.takeWhile (·.getLast? = some sep) else lines

section split
variable [DecidableEq α] {sep : α} {text rest : List α}

theorem splitLines_line (plain : sep ∉ text) :
    splitLines sep (text ++ sep :: rest) = (text ++ [sep]) :: splitLines sep rest := by
  induction text with
  | nil => simp [splitLines]
  | cons a text ih =>
    have ha : a ≠ sep := fun heq => plain (heq ▸ List.mem_cons_self)
    have ih := ih fun hmem => plain (List.mem_cons_of_mem _ hmem)
    rw [List.cons_append, splitLines, if_neg ha, ih]
    rfl

theorem splitLines_tail (plain : sep ∉ text) (some_ : text ≠ []) :
    splitLines sep text = [text] := by
  induction text with
  | nil => exact absurd rfl some_
  | cons a text ih =>
    have ha : a ≠ sep := fun heq => plain (heq ▸ List.mem_cons_self)
    have hrest : sep ∉ text := fun hmem => plain (List.mem_cons_of_mem _ hmem)
    rw [splitLines, if_neg ha]
    cases text with
    | nil => rfl
    | cons b text => rw [ih hrest (List.cons_ne_nil _ _)]

end split

/-- What one line comes to: what is made of it, and whether the reader goes on. -/
structure Verdict (M : Type) where
  made : List M := []
  goes : Bool := true
  deriving DecidableEq

/-- What a reader makes of the lines, one after another. -/
def hear (judge : List α → Verdict M) : List (List α) → List M
  | [] => []
  | line :: later => (judge line).made ++ if (judge line).goes then hear judge later else []

/-- A record is judged alike with and without its separator. -/
structure Judged (sep : α) (judge : List α → Verdict M) (text : List α) (verdict : Verdict M) :
    Prop where
  plain : sep ∉ text
  some_ : text ≠ []
  delimited : judge (text ++ [sep]) = verdict
  bare : (judge text).made = verdict.made

/-- The lines of a list of records. -/
def sentLines (sep : α) (records : List (List α × Verdict M)) : List α :=
  records.flatMap fun record => record.1 ++ [sep]

/-- What is made of a record that is torn: a reader never sees an empty line. -/
def scrapOf (judge : List α → Verdict M) (piece : List α) : List M :=
  if piece.isEmpty then [] else (judge piece).made

/-- What is made of the first `n` letters: of each record that is there whole, and of the `scrap`
of the one that is torn. -/
def heardOf (scrap : List α → List M) : ℕ → List (List α × Verdict M) → List M
  | _, [] => []
  | n, record :: later =>
      if record.1.length ≤ n then
        record.2.made ++
          if record.2.goes then heardOf scrap (n - (record.1.length + 1)) later else []
      else scrap (record.1.take n)

/-- What is made of the records that are there whole, with their separators where the stream is
broken. -/
def arrived (broken : Bool) : ℕ → List (List α × Verdict M) → List M
  | _, [] => []
  | n, record :: later =>
      if record.1.length + broken.toNat ≤ n then
        record.2.made ++
          if record.2.goes then arrived broken (n - (record.1.length + 1)) later else []
      else []

variable {sep : α} {judge : List α → Verdict M} {records : List (List α × Verdict M)}

theorem arrived_false (n : ℕ) (records : List (List α × Verdict M)) :
    arrived false n records = heardOf (fun _ => []) n records := by
  induction records generalizing n with
  | nil => rfl
  | cons record later ih => rw [arrived, heardOf, ih, Bool.toNat_false, Nat.add_zero]

theorem sentLines_cons (record : List α × Verdict M) (later : List (List α × Verdict M)) :
    sentLines sep (record :: later) = record.1 ++ sep :: sentLines sep later := by
  simp [sentLines]

theorem take_sentLines_cons {record : List α × Verdict M} {later : List (List α × Verdict M)}
    {n : ℕ} (h : record.1.length < n) :
    (sentLines sep (record :: later)).take n =
      record.1 ++ sep :: (sentLines sep later).take (n - (record.1.length + 1)) := by
  obtain ⟨k, rfl⟩ : ∃ k, n = record.1.length + (k + 1) := ⟨n - (record.1.length + 1), by omega⟩
  have hk : record.1.length + (k + 1) - (record.1.length + 1) = k := by omega
  rw [sentLines_cons, List.take_length_add_append, List.take_succ_cons, hk]

theorem heardOf_zero {scrap : List α → List M} (silent : scrap [] = [])
    (some_ : ∀ record ∈ records, record.1 ≠ []) : heardOf scrap 0 records = [] := by
  cases records with
  | nil => rfl
  | cons record later =>
    have hpos := List.length_pos_iff.mpr (some_ record List.mem_cons_self)
    rw [heardOf, if_neg (by omega), List.take_zero, silent]

variable [DecidableEq α]

/-- A reader makes of a stream that is cut what its whole records come to, and of the torn one what
it makes of such a line. -/
theorem hear_sentLines (judged : ∀ record ∈ records, Judged sep judge record.1 record.2) (n : ℕ) :
    hear judge (splitLines sep ((sentLines sep records).take n)) =
      heardOf (scrapOf judge) n records := by
  induction records generalizing n with
  | nil => simp [sentLines, splitLines, hear, heardOf]
  | cons record later ih =>
    obtain ⟨plain, some_, delimited, bare⟩ := judged record List.mem_cons_self
    have ih := ih fun r hr => judged r (List.mem_cons_of_mem _ hr)
    rw [heardOf]
    rcases Nat.lt_trichotomy n record.1.length with hlt | heq | hgt
    · rw [if_neg (by omega), sentLines_cons, List.take_append_of_le_length (by omega)]
      by_cases hzero : record.1.take n = []
      · rw [hzero]
        rfl
      · rw [splitLines_tail (fun hmem => plain (List.mem_of_mem_take hmem)) hzero]
        simp [hear, scrapOf, hzero]
    · -- all of the record but its separator
      have htake : (sentLines sep (record :: later)).take n = record.1 := by
        rw [sentLines_cons, heq, List.take_left]
      have hnone : n - (record.1.length + 1) = 0 := by omega
      have hlater : heardOf (scrapOf judge) 0 later = [] := by
        apply heardOf_zero rfl
        intro r hr
        exact (judged r (List.mem_cons_of_mem _ hr)).some_
      rw [htake, splitLines_tail plain some_, if_pos (by omega), hnone, hlater]
      simp [hear, bare]
    · rw [take_sentLines_cons hgt, splitLines_line plain, if_pos (by omega), hear, delimited, ih]

/-- Where nothing is made of a torn record, what is heard is made of the records there whole. -/
theorem hear_sentLines_whole (judged : ∀ record ∈ records, Judged sep judge record.1 record.2)
    (torn : ∀ record ∈ records, ∀ piece, piece <+: record.1 → piece ≠ record.1 →
      (judge piece).made = []) (n : ℕ) :
    hear judge (splitLines sep ((sentLines sep records).take n)) = arrived false n records := by
  rw [hear_sentLines judged, arrived_false]
  clear judged
  induction records generalizing n with
  | nil => rfl
  | cons record later ih =>
    have ih := ih fun r hr => torn r (List.mem_cons_of_mem _ hr)
    rw [heardOf, heardOf]
    by_cases hle : record.1.length ≤ n
    · rw [if_pos hle, if_pos hle, ih]
    · have hpiece := torn record List.mem_cons_self (record.1.take n) (List.take_prefix _ _)
        fun heq => hle (by simpa using heq)
      rw [if_neg hle, if_neg hle, scrapOf, hpiece, ite_self]

/-- Of a broken stream only the records are heard whose separators arrived. -/
theorem hear_broken (judged : ∀ record ∈ records, Judged sep judge record.1 record.2) (n : ℕ) :
    hear judge (readLines true sep ((sentLines sep records).take n)) = arrived true n records := by
  unfold readLines
  dsimp only
  rw [if_pos rfl]
  induction records generalizing n with
  | nil => simp [sentLines, splitLines, hear, arrived]
  | cons record later ih =>
    obtain ⟨plain, some_, delimited, bare⟩ := judged record List.mem_cons_self
    have ih := ih fun r hr => judged r (List.mem_cons_of_mem _ hr)
    rw [arrived, Bool.toNat_true]
    rcases Nat.lt_or_ge record.1.length n with hgt | hle
    · rw [take_sentLines_cons hgt, splitLines_line plain, if_pos (by omega),
        List.takeWhile_cons_of_pos (by simp), hear, delimited, ih]
    · rw [if_neg (by omega), sentLines_cons, List.take_append_of_le_length hle]
      by_cases hzero : record.1.take n = []
      · rw [hzero]
        rfl
      · have hpiece : sep ∉ record.1.take n := fun hmem => plain (List.mem_of_mem_take hmem)
        have hlast : (record.1.take n).getLast? ≠ some sep :=
          fun hlast => hpiece (List.mem_of_getLast? hlast)
        rw [splitLines_tail hpiece hzero, List.takeWhile_cons_of_neg (by simpa using hlast)]
        rfl

theorem hear_arrived (judged : ∀ record ∈ records, Judged sep judge record.1 record.2)
    (torn : ∀ record ∈ records, ∀ piece, piece <+: record.1 → piece ≠ record.1 →
      (judge piece).made = []) (broken : Bool) (n : ℕ) :
    hear judge (readLines broken sep ((sentLines sep records).take n)) =
      arrived broken n records := by
  cases broken with
  | false => exact hear_sentLines_whole judged torn n
  | true => exact hear_broken judged n

end SiliconOmni.Lib.Lines
