import Mathlib.Tactic.Common
import Mathlib.Data.List.Basic

/-! Append-only JSONL, down to the bytes: reading whole lines, repairing a torn tail, and the one
persistent writer. -/
namespace SiliconOmni.Jsonl

abbrev Bytes := List UInt8

def newline : UInt8 := 10

/-- What reads up to the next newline return, one after another: every line with its newline, and
last what has none. -/
def lines : Bytes → List Bytes
  | [] => []
  | byte :: rest =>
      if byte = newline then [byte] :: lines rest
      else match lines rest with
        | [] => [[byte]]
        | line :: later => (byte :: line) :: later

/-- A decoded record and the physical line it came from. -/
structure Record (V : Type) where
  line : ℕ
  value : V
  deriving DecidableEq, Repr

/-- The valid prefix of a file, and the complete line after it if that is malformed. -/
structure ReadReport (V : Type) where
  missing : Bool := false
  records : List (Record V) := []
  error : Option (ℕ × String) := none
  deriving DecidableEq, Repr

/-- How far back one read of `unterminatedTail` reaches. -/
def CHUNK : ℕ := 8 * 1024

theorem CHUNK_pos : 0 < CHUNK := by decide

/-- Where the last newline of a chunk is. -/
def rposition (chunk : Bytes) : Option ℕ :=
  (chunk.reverse.findIdx? (· = newline)).map (chunk.length - 1 - ·)

/-- Where the bytes after the last newline start, and what they are, read backwards from `cursor`
`size` bytes at a time; `later` is what was read before. -/
def unterminatedFrom {size : ℕ} (pos : 0 < size) (file : Bytes) (cursor : ℕ) (later : Bytes) :
    ℕ × Bytes :=
  let start := cursor - size
  let chunk := (file.take cursor).drop start
  match rposition chunk with
  | some at_ => (start + at_ + 1, chunk.drop (at_ + 1) ++ later)
  | none =>
      if start = 0 then (0, chunk ++ later)
      else unterminatedFrom pos file start (chunk ++ later)
termination_by cursor
decreasing_by omega

def unterminatedTail (file : Bytes) : ℕ × Bytes := unterminatedFrom CHUNK_pos file file.length []

section format
variable {V : Type} (parse : Bytes → Except String V)

def readLines : ℕ → List Bytes → ReadReport V
  | _, [] => {}
  | line, bytes :: later =>
      match parse bytes with
      | .ok value =>
          let report := readLines (line + 1) later
          { report with records := { line, value } :: report.records }
      | .error source =>
          -- an incomplete last line can only be an interrupted append
          if bytes.getLast? = some newline then { error := some (line, source) } else {}

/-- Read the durable prefix of a file, which may not be there at all. -/
def readChecked : Option Bytes → ReadReport V
  | none => { missing := true }
  | some file => readLines parse 1 (lines file)

/-- Cut off a partial last record, or say that a valid one only lacks its newline. -/
def repairTail (file : Bytes) : Bytes × Bool :=
  match file.getLast? with
  | none => (file, false)
  | some last =>
      if last = newline then (file, false)
      else
        let (start, tail) := unterminatedTail file
        match parse tail with
        | .ok _ => (file, true)
        | .error _ => (file.take start, false)

/-- One exclusive, long-lived writer; a write that failed poisons it. -/
structure Appender where
  prefixNewline : Bool
  writable : Bool := true
  deriving DecidableEq, Repr

namespace Appender

/-- The writer of a file, and the file with its tail repaired. -/
def open_ (file : Option Bytes) : Bytes × Appender :=
  let (file, prefixNewline) := repairTail parse (file.getD [])
  (file, { prefixNewline })

/-- The bytes of one append. -/
def body (a : Appender) (text : Bytes) : Bytes :=
  (if a.prefixNewline then [newline] else []) ++ text ++ [newline]

/-- How many bytes of an append hold all of its record. -/
def whole (a : Appender) (text : Bytes) : ℕ := (if a.prefixNewline then 1 else 0) + text.length

/-- Append one record: the file and the writer afterwards, and whether it succeeded. A write that
fails may have got any number of bytes down. -/
def append (a : Appender) (file text : Bytes) (stops : Option ℕ) : Bytes × Appender × Bool :=
  match a.writable, stops with
  | false, _ => (file, a, false)
  | true, none => (file ++ a.body text, { prefixNewline := false }, true)
  | true, some written =>
      (file ++ (a.body text).take written, { prefixNewline := false, writable := false }, false)

end Appender
end format

section lines
variable {text rest tail : Bytes}

theorem lines_line (h : newline ∉ text) :
    lines (text ++ newline :: rest) = (text ++ [newline]) :: lines rest := by
  induction text with
  | nil => simp [lines]
  | cons byte text ih =>
    have hbyte : byte ≠ newline := fun heq => h (heq ▸ List.mem_cons_self)
    have ih := ih fun hmem => h (List.mem_cons_of_mem _ hmem)
    rw [List.cons_append, lines, if_neg hbyte, ih]
    rfl

theorem lines_tail (h : newline ∉ tail) (some_ : tail ≠ []) : lines tail = [tail] := by
  induction tail with
  | nil => exact absurd rfl some_
  | cons byte tail ih =>
    have hbyte : byte ≠ newline := fun heq => h (heq ▸ List.mem_cons_self)
    have hrest : newline ∉ tail := fun hmem => h (List.mem_cons_of_mem _ hmem)
    rw [lines, if_neg hbyte]
    cases tail with
    | nil => rfl
    | cons next tail => rw [ih hrest (List.cons_ne_nil _ _)]

end lines

section tail

/-- The end of a file that follows its last newline. -/
structure Splits (file front tail : Bytes) : Prop where
  file : file = front ++ tail
  front : front = [] ∨ front.getLast? = some newline
  tail : newline ∉ tail

theorem Splits.unique {file front tail front' tail' : Bytes} (h : Splits file front tail)
    (h' : Splits file front' tail') : front = front' ∧ tail = tail' := by
  have shorter {front tail front' tail' : Bytes} (h : Splits file front tail)
      (h' : Splits file front' tail') : front'.length ≤ front.length := by
    by_contra hlong
    have heq : front ++ tail = front' ++ tail' := h.file.symm.trans h'.file
    have hmem : newline ∈ tail := by
      rcases h'.front with hnil | hlast
      · rw [hnil] at hlong
        exact absurd (Nat.zero_le _) hlong
      · obtain ⟨init, rfl⟩ := List.getLast?_eq_some_iff.mp hlast
        have hinit : front.length ≤ init.length := by
          rw [List.length_append, List.length_singleton] at hlong
          omega
        rw [List.append_assoc] at heq
        obtain ⟨mid, hmid⟩ := List.prefix_of_prefix_length_le (List.prefix_append front tail)
          (heq ▸ List.prefix_append init _) hinit
        rw [← hmid, List.append_assoc] at heq
        rw [List.append_cancel_left heq]
        simp
    exact h.tail hmem
  have hlen : front.length = front'.length := Nat.le_antisymm (shorter h' h) (shorter h h')
  exact List.append_inj (h.file.symm.trans h'.file) hlen

theorem rposition_none {chunk : Bytes} (h : rposition chunk = none) : newline ∉ chunk := by
  unfold rposition at h
  rw [Option.map_eq_none_iff, List.findIdx?_eq_none_iff] at h
  intro hmem
  simpa using h newline (List.mem_reverse.mpr hmem)

theorem rposition_lt {chunk : Bytes} {at_ : ℕ} (h : rposition chunk = some at_) :
    at_ < chunk.length := by
  unfold rposition at h
  obtain ⟨back, hback, rfl⟩ := Option.map_eq_some_iff.mp h
  obtain ⟨inside, -, -⟩ := List.findIdx?_eq_some_iff_getElem.mp hback
  rw [List.length_reverse] at inside
  omega

theorem rposition_some {chunk : Bytes} {at_ : ℕ} (h : rposition chunk = some at_) :
    Splits chunk (chunk.take (at_ + 1)) (chunk.drop (at_ + 1)) := by
  unfold rposition at h
  obtain ⟨back, hback, rfl⟩ := Option.map_eq_some_iff.mp h
  obtain ⟨inside, found, first⟩ := List.findIdx?_eq_some_iff_getElem.mp hback
  rw [List.length_reverse] at inside
  rw [List.getElem_reverse, decide_eq_true_iff] at found
  refine ⟨(List.take_append_drop _ _).symm, .inr ?_, ?_⟩
  · rw [List.getLast?_take, if_neg (by omega)]
    exact Option.or_eq_some_iff.mpr (.inl (List.getElem?_eq_some_iff.mpr ⟨by omega, found⟩))
  · intro hmem
    obtain ⟨i, hi, heq⟩ := List.mem_iff_getElem.mp hmem
    rw [List.length_drop] at hi
    rw [List.getElem_drop] at heq
    -- a newline further on would have been met earlier on the way back
    have hlater := first (chunk.length - 1 - (chunk.length - 1 - back + 1 + i)) (by omega)
    rw [List.getElem_reverse, decide_eq_true_iff] at hlater
    apply hlater
    rw [← heq]
    congr 1
    omega

theorem unterminatedFrom_splits {size : ℕ} (pos : 0 < size) (file : Bytes) (cursor : ℕ)
    (later : Bytes) (inside : cursor ≤ file.length) (read : file.drop cursor = later)
    (plain : newline ∉ later) :
    Splits file (file.take (unterminatedFrom pos file cursor later).1)
      (unterminatedFrom pos file cursor later).2 := by
  have pieces {start cursor : ℕ} (hle : start ≤ cursor) :
      file.drop start = (file.take cursor).drop start ++ file.drop cursor := by
    have hlen : cursor = start + (cursor - start) := by omega
    rw [List.drop_take, hlen, ← List.drop_drop, ← hlen, List.take_append_drop]
  fun_induction unterminatedFrom pos file cursor later with
  | case1 cursor later start chunk at_ found =>
    have hsplit := rposition_some found
    have hcut : file.drop start = chunk ++ later := read ▸ pieces (Nat.sub_le _ _)
    have hlt := rposition_lt found
    have hfile : file = file.take start ++ (chunk ++ later) := by
      rw [← hcut, List.take_append_drop]
    have hstart : (file.take start).length = start := by
      rw [List.length_take]
      omega
    have hfront : file.take (start + at_ + 1) = file.take start ++ chunk.take (at_ + 1) := by
      conv_lhs => rw [hfile]
      rw [List.take_append, hstart, List.take_of_length_le (by omega),
        show start + at_ + 1 - start = at_ + 1 by omega, List.take_append_of_le_length hlt]
    rw [hfront]
    refine ⟨?_, ?_, ?_⟩
    · conv_lhs => rw [hfile]
      rw [List.append_assoc, ← List.append_assoc (chunk.take _), List.take_append_drop]
    · rcases hsplit.front with hnil | hlast
      · have hlen := congrArg List.length hnil
        rw [List.length_take, List.length_nil] at hlen
        omega
      · rw [List.getLast?_append, hlast]
        exact .inr rfl
    · rw [List.mem_append, not_or]
      exact ⟨hsplit.tail, plain⟩
  | case2 cursor later start chunk none_ first =>
    have hcut : file.drop start = chunk ++ later := read ▸ pieces (Nat.sub_le _ _)
    rw [first, List.drop_zero] at hcut
    refine ⟨by simpa using hcut, .inl rfl, ?_⟩
    rw [List.mem_append, not_or]
    exact ⟨rposition_none none_, plain⟩
  | case3 cursor later start chunk none_ more ih =>
    have hcut : file.drop start = chunk ++ later := read ▸ pieces (Nat.sub_le _ _)
    refine ih (Nat.le_trans (Nat.sub_le _ _) inside) hcut ?_
    rw [List.mem_append, not_or]
    exact ⟨rposition_none none_, plain⟩

theorem unterminatedTail_eq {file front tail : Bytes} (h : Splits file front tail) :
    file.take (unterminatedTail file).1 = front ∧ (unterminatedTail file).2 = tail :=
  (unterminatedFrom_splits CHUNK_pos file file.length [] (Nat.le_refl _) (List.drop_length ..)
    (by simp)).unique h

end tail

/-- `text` is a record: it stands on one line, reads back as `value` with or without its newline,
and no piece of it is a record. -/
structure Prints {V : Type} (parse : Bytes → Except String V) (text : Bytes) (value : V) :
    Prop where
  plain : newline ∉ text
  parses : parse text = .ok value
  delimited : parse (text ++ [newline]) = .ok value
  torn : ∀ piece, piece <+: text → piece ≠ text → ∃ why, parse piece = .error why
  some_ : text ≠ []

/-- The lines of a list of records. -/
def stored {V : Type} (records : List (Bytes × V)) : Bytes :=
  records.flatMap fun record => record.1 ++ [newline]

/-- The values, each with its line, the first on `line`. -/
def numbered {V : Type} : ℕ → List (Bytes × V) → List (Record V)
  | _, [] => []
  | line, record :: later => { line, value := record.2 } :: numbered (line + 1) later

section records
variable {V : Type} {parse : Bytes → Except String V} {records : List (Bytes × V)} {text : Bytes}
  {value : V}

@[simp] theorem stored_nil : stored ([] : List (Bytes × V)) = [] := rfl

@[simp] theorem stored_append (records later : List (Bytes × V)) :
    stored (records ++ later) = stored records ++ stored later := List.flatMap_append

@[simp] theorem stored_one (record : Bytes × V) : stored [record] = record.1 ++ [newline] := by
  simp [stored]

theorem stored_front (records : List (Bytes × V)) :
    stored records = [] ∨ (stored records).getLast? = some newline := by
  rcases List.eq_nil_or_concat' records with rfl | ⟨init, last, rfl⟩
  · exact .inl rfl
  · refine .inr ?_
    rw [stored_append, stored_one, ← List.append_assoc]
    exact List.getLast?_concat

/-- What a file of these records may look like: a torn last record may follow them, or the last
one may lack its newline. -/
inductive Holds (parse : Bytes → Except String V) (records : List (Bytes × V)) : Bytes → Prop
  | whole : Holds parse records (stored records)
  | torn (tail : Bytes) (plain : newline ∉ tail) (why : String) (unread : parse tail = .error why) :
      Holds parse records (stored records ++ tail)
  | undelimited (init : List (Bytes × V)) (last : Bytes × V) (ends : records = init ++ [last]) :
      Holds parse records (stored init ++ last.1)

/-- A writer that may append to the file of these records. -/
inductive Ready (records : List (Bytes × V)) : Bytes → Appender → Prop
  | delimited : Ready records (stored records) { prefixNewline := false }
  | undelimited (init : List (Bytes × V)) (last : Bytes × V) (ends : records = init ++ [last]) :
      Ready records (stored init ++ last.1) { prefixNewline := true }

theorem Ready.holds {file : Bytes} {a : Appender} (h : Ready records file a) :
    Holds parse records file := by
  cases h with
  | delimited => exact .whole
  | undelimited init last ends => exact .undelimited init last ends

theorem readLines_stored (printed : ∀ record ∈ records, Prints parse record.1 record.2)
    (line : ℕ) (tail : Bytes) :
    readLines parse line (lines (stored records ++ tail)) =
      let report := readLines parse (line + records.length) (lines tail)
      { report with records := numbered line records ++ report.records } := by
  induction records generalizing line with
  | nil => simp [numbered]
  | cons record later ih =>
    have hfirst := printed record List.mem_cons_self
    have hlater := ih (fun r hr => printed r (List.mem_cons_of_mem _ hr)) (line + 1)
    have hlines : lines (stored (record :: later) ++ tail) =
        (record.1 ++ [newline]) :: lines (stored later ++ tail) := by
      rw [← lines_line hfirst.plain]
      simp [stored]
    rw [hlines, readLines, hfirst.delimited]
    dsimp only
    rw [hlater]
    simp [numbered, Nat.add_assoc, Nat.add_comm 1]

theorem numbered_append (line : ℕ) (records later : List (Bytes × V)) :
    numbered line (records ++ later) =
      numbered line records ++ numbered (line + records.length) later := by
  induction records generalizing line with
  | nil => simp [numbered]
  | cons record records ih => simp [numbered, ih, Nat.add_assoc, Nat.add_comm 1]

/-- Whatever the file looks like, it is read back as its records, and is healthy. -/
theorem Holds.read {file : Bytes} (h : Holds parse records file)
    (printed : ∀ record ∈ records, Prints parse record.1 record.2) :
    readChecked parse (some file) = { records := numbered 1 records } := by
  unfold readChecked
  dsimp only
  cases h with
  | whole =>
    have hread := readLines_stored printed 1 []
    rw [List.append_nil] at hread
    rw [hread]
    simp [lines, readLines]
  | torn tail plain why unread =>
    rw [readLines_stored printed]
    cases tail with
    | nil => simp [lines, readLines]
    | cons byte tail =>
      rw [lines_tail plain (List.cons_ne_nil _ _), readLines, unread]
      dsimp only
      rw [if_neg, List.append_nil]
      intro hlast
      exact plain (List.mem_of_getLast? hlast)
  | undelimited init last ends =>
    subst ends
    have hlast := printed last (by simp)
    rw [readLines_stored fun r hr => printed r (List.mem_append_left _ hr)]
    rw [lines_tail hlast.plain hlast.some_, readLines, hlast.parses, numbered_append]
    simp [readLines, numbered]

theorem repairTail_splits {file front tail : Bytes} (h : Splits file front tail)
    (some_ : tail ≠ []) :
    repairTail parse file = match parse tail with
      | .ok _ => (file, true)
      | .error _ => (front, false) := by
  obtain ⟨init, last, rfl⟩ := (List.eq_nil_or_concat' tail).resolve_left some_
  have hlast : file.getLast? = some last := by
    rw [h.file, ← List.append_assoc]
    exact List.getLast?_concat
  have hother : last ≠ newline := fun heq => h.tail (by simp [heq])
  obtain ⟨hfront, htail⟩ := unterminatedTail_eq h
  unfold repairTail
  rw [hlast]
  dsimp only
  rw [if_neg hother, htail, hfront]

/-- Opening a writer brings any such file to where the writer may append. -/
theorem Holds.open_ {file : Bytes} (h : Holds parse records file)
    (printed : ∀ record ∈ records, Prints parse record.1 record.2) :
    Ready records (Appender.open_ parse (some file)).1 (Appender.open_ parse (some file)).2 := by
  have closed : Ready records (Appender.open_ parse (some (stored records))).1
      (Appender.open_ parse (some (stored records))).2 := by
    have hrepair : repairTail parse (stored records) = (stored records, false) := by
      unfold repairTail
      rcases stored_front records with hnil | hlast
      · rw [hnil]
        rfl
      · rw [hlast]
        simp
    unfold Appender.open_
    rw [Option.getD_some, hrepair]
    exact .delimited
  cases h with
  | whole => exact closed
  | torn tail plain why unread =>
    by_cases hnil : tail = []
    · rw [hnil, List.append_nil]
      exact closed
    · unfold Appender.open_
      rw [Option.getD_some, repairTail_splits ⟨rfl, stored_front records, plain⟩ hnil, unread]
      exact .delimited
  | undelimited init last ends =>
    have hlast := printed last (by simp [ends])
    unfold Appender.open_
    rw [Option.getD_some, repairTail_splits ⟨rfl, stored_front init, hlast.plain⟩ hlast.some_,
      hlast.parses]
    exact .undelimited init last ends

/-- An append puts one more record behind the others. -/
theorem Ready.append {file : Bytes} {a : Appender} (h : Ready records file a) (text : Bytes)
    (value : V) :
    a.append file text none = (file ++ a.body text, { prefixNewline := false }, true) ∧
      Ready (records ++ [(text, value)]) (file ++ a.body text) { prefixNewline := false } := by
  cases h with
  | delimited =>
    refine ⟨rfl, ?_⟩
    have hbody : stored records ++ ({ prefixNewline := false } : Appender).body text =
        stored (records ++ [(text, value)]) := by simp [Appender.body]
    rw [hbody]
    exact .delimited
  | undelimited init last ends =>
    refine ⟨rfl, ?_⟩
    have hbody : stored init ++ last.1 ++ ({ prefixNewline := true } : Appender).body text =
        stored (records ++ [(text, value)]) := by simp [ends, stored, Appender.body]
    rw [hbody]
    exact .delimited

/-- A write that stops early leaves a file of the same records, with the new one among them
exactly when all its bytes were written. -/
theorem Ready.tear {file : Bytes} {a : Appender} (h : Ready records file a)
    (prints : Prints parse text value) (written : ℕ) :
    Holds parse (if a.whole text ≤ written then records ++ [(text, value)] else records)
      (a.append file text (some written)).1 := by
  have piece (front : List (Bytes × V)) (n : ℕ) :
      Holds parse (if text.length ≤ n then front ++ [(text, value)] else front)
        (stored front ++ (text ++ [newline]).take n) := by
    by_cases hn : text.length ≤ n
    · rw [if_pos hn]
      by_cases hall : text.length + 1 ≤ n
      · rw [List.take_of_length_le (by simpa using hall)]
        have hstored : stored front ++ (text ++ [newline]) =
            stored (front ++ [(text, value)]) := by simp
        rw [hstored]
        exact .whole
      · have heq : n = text.length := by omega
        rw [heq, List.take_left]
        exact .undelimited front (text, value) rfl
    · rw [if_neg hn, List.take_append_of_le_length (by omega)]
      obtain ⟨why, unread⟩ := prints.torn (text.take n) (List.take_prefix _ _) (by
        intro heq
        have hlen := congrArg List.length heq
        rw [List.length_take] at hlen
        omega)
      exact .torn _ (fun hmem => prints.plain (List.mem_of_mem_take hmem)) why unread
  cases h with
  | delimited =>
    have hpiece := piece records written
    simpa [Appender.append, Appender.body, Appender.whole] using hpiece
  | undelimited init last ends =>
    cases written with
    | zero =>
      simp only [Appender.append, Appender.whole, List.take_zero, List.append_nil]
      rw [if_neg (by simp)]
      exact .undelimited init last ends
    | succ n =>
      have hpiece := piece records n
      have hwhole : (({ prefixNewline := true } : Appender).whole text ≤ n + 1) ↔
          text.length ≤ n := by
        simp [Appender.whole]
        omega
      have hfile : stored init ++ last.1 ++
            (({ prefixNewline := true } : Appender).body text).take (n + 1) =
          stored records ++ (text ++ [newline]).take n := by
        simp [ends, Appender.body]
      simp only [Appender.append]
      rw [hfile, if_congr hwhole rfl rfl]
      exact hpiece

end records
end SiliconOmni.Jsonl
