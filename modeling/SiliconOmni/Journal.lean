import SiliconOmni.Ascii
import SiliconOmni.Jsonl
import SiliconOmni.Lib.Transition

/-! JSONL files over any number of writers and crashes: what is read back, and what the next append
adds to it. -/
namespace SiliconOmni
open Jsonl

/-- The JSON library. -/
structure Serde where
  print : Value → Bytes
  parse : Bytes → Except String Value
  /-- What is said of a value that is not an event. -/
  undecodable : Value → String

/-- The value is printed on one line and parsed back, and nothing shorter parses. -/
def Serde.Faithful (serde : Serde) (value : Value) : Prop :=
  Prints serde.parse (serde.print value) value

/-- The JSON library on the values that one run prints: these it prints and parses as the real one
does, and nothing else is JSON to it. -/
def Serde.ascii (values : List Value) : Serde where
  print value := Ascii.print value
  parse line :=
    match values.find? fun value =>
        Ascii.print value = line ∨ Ascii.print value ++ [newline] = line with
    | some value => .ok value
    | none => .error "EOF while parsing a value"
  undecodable _ := "missing field"

/-- Values none of which is printed as the beginning of another are printed faithfully. -/
theorem Serde.ascii_faithful {values : List Value} {value : Value} (mem : value ∈ values)
    (plain : ∀ v ∈ values, newline ∉ Ascii.print v)
    (apart : ∀ v ∈ values, ∀ w ∈ values, Ascii.print v <+: Ascii.print w → v = w)
    (some_ : Ascii.print value ≠ []) : (Serde.ascii values).Faithful value := by
  -- a line is never that of one value with its newline and of another without
  have only {line : Bytes} {v : Value} (hv : v ∈ values)
      (printed : Ascii.print v = line ∨ Ascii.print v ++ [newline] = line)
      (begins : line <+: Ascii.print value ++ [newline]) : v = value := by
    have hprefix : Ascii.print v <+: Ascii.print value ++ [newline] := by
      rcases printed with rfl | rfl
      · exact begins
      · exact (List.prefix_append _ _).trans begins
    rcases List.prefix_concat_iff.mp hprefix with heq | hlt
    · exact absurd (heq ▸ List.mem_append_right _ List.mem_cons_self) (plain v hv)
    · exact apart v hv value mem hlt
  have finds {line : Bytes}
      (printed : Ascii.print value = line ∨ Ascii.print value ++ [newline] = line) :
      (Serde.ascii values).parse line = .ok value := by
    unfold Serde.ascii
    dsimp only
    split
    next found hfind =>
      have hprinted : Ascii.print found = line ∨ Ascii.print found ++ [newline] = line := by
        simpa using List.find?_some hfind
      have hbegins : line <+: Ascii.print value ++ [newline] := by
        rcases printed with rfl | rfl
        · exact List.prefix_append _ _
        · exact List.prefix_refl _
      rw [only (List.mem_of_find?_eq_some hfind) hprinted hbegins]
    next hfind =>
      exact absurd (decide_eq_true printed) (List.find?_eq_none.mp hfind value mem)
  refine ⟨plain value mem, finds (.inl rfl), finds (.inr rfl), fun piece hpiece hne => ?_, some_⟩
  refine ⟨"EOF while parsing a value", ?_⟩
  unfold Serde.ascii
  dsimp only
  split
  next found hfind =>
    have hprinted : Ascii.print found = piece ∨ Ascii.print found ++ [newline] = piece := by
      simpa using List.find?_some hfind
    have hsame := only (List.mem_of_find?_eq_some hfind) hprinted
      (hpiece.trans (List.prefix_append _ _))
    rw [hsame] at hprinted
    rcases hprinted with heq | heq
    · exact absurd heq.symm hne
    · have hlen : piece.length ≤ (Ascii.print value).length := hpiece.length_le
      rw [← heq, List.length_append, List.length_singleton] at hlen
      omega
  next => rfl

namespace Jsonl

/-- One record of a write: how many bytes it takes, the newline before it counted, and how many of
them are on the disk. -/
structure Write where
  value : Value
  size : ℕ
  down : ℕ
  acknowledged : Bool
  deriving DecidableEq

/-- Acknowledged, or on the disk but for its newline at most. -/
def Write.survives (write : Write) : Bool := write.acknowledged || write.size ≤ write.down + 1

/-- What a write gets down when it stops early. -/
def cut (body : Bytes) : Option ℕ → Bytes
  | none => body
  | some written => body.take written

section
variable (serde : Serde)

/-- The lines of a batch. -/
def batch (values : List Value) : Bytes := values.flatMap fun value => serde.print value ++ [newline]

/-- The writer that opens the file anew for one batch: one write, so a reader never sees half of
it. -/
def extend (file : Option Bytes) (values : List Value) (stops : Option ℕ) : Option Bytes :=
  if values = [] then file
  else
    let (file, prefixNewline) := repairTail serde.parse (file.getD [])
    let body := batch serde values
    some (file ++ cut (if prefixNewline then newline :: body else body) stops)

/-- The records of a write that stops early. -/
def writes (prefixNewline : Bool) : List Value → Option ℕ → List Write
  | [], _ => []
  | value :: later, stops =>
      let size := (Appender.body { prefixNewline } (serde.print value)).length
      { value, size, down := min size (stops.getD size), acknowledged := stops.isNone } ::
        writes false later (stops.map (· - size))

/-- One after another through one writer. -/
def Appender.appendAll : Bytes × Appender → List Value → Bytes × Appender
  | (file, a), [] => (file, a)
  | (file, a), value :: later =>
      let (file, a, _) := a.append file (serde.print value) none
      appendAll (file, a) later

/-- A file, the writer that holds it, and every record begun so far. -/
structure Journal where
  file : Option Bytes := none
  appender : Option Appender := none
  writes : List Write := []

namespace Journal

/-- The records that have to be read back, in the order they were written. -/
def kept (j : Journal) : List Value := (j.writes.filter Write.survives).map (·.value)

inductive Move where
  /-- A writer takes the file, in the place of any that was lost in a crash. -/
  | open_
  /-- The writer appends; the write fails, or the process dies, after so many bytes. -/
  | append (value : Value) (stops : Option ℕ)
  /-- A batch through a writer of its own. -/
  | extend (values : List Value) (stops : Option ℕ)
  /-- The process that writes is gone. -/
  | close

/-- The values a move prints. -/
def Move.values : Move → List Value
  | .append value _ => [value]
  | .extend values _ => values
  | _ => []

def step (j : Journal) : Move → Option Journal
  | .open_ =>
      let (file, appender) := Appender.open_ serde.parse j.file
      some { j with file := some file, appender := some appender }
  | .append value stops => do
      let a ← j.appender
      let (file, appender, _) := a.append (j.file.getD []) (serde.print value) stops
      return {
        file := some file
        appender := some appender
        writes := j.writes ++
          if a.writable then Jsonl.writes serde a.prefixNewline [value] stops else [] }
  | .extend values stops =>
      match j.appender with
      | some _ => none
      | none =>
          let (_, prefixNewline) := repairTail serde.parse (j.file.getD [])
          some {
            j with
            file := Jsonl.extend serde j.file values stops
            writes := j.writes ++ Jsonl.writes serde prefixNewline values stops }
  | .close => some { j with appender := none }

/-- A file that is not there yet, and every move after that. -/
def machine : Lib.Machine Journal Move where
  init j := j = {}
  step := step serde

/-- The journals some run reaches that prints faithfully what it writes. -/
abbrev Reach : Journal → Prop :=
  (machine serde).Reach fun _ m => ∀ value ∈ m.values, serde.Faithful value

end Journal
end

section
variable {serde : Serde}

/-- Values as they are printed. -/
def printed (serde : Serde) (values : List Value) : List (Bytes × Value) :=
  values.map fun value => (serde.print value, value)

/-- The values of the writes that survive. -/
def surviving (written : List Write) : List Value := (written.filter Write.survives).map (·.value)

@[simp] theorem surviving_append (written later : List Write) :
    surviving (written ++ later) = surviving written ++ surviving later := by
  simp [surviving]

@[simp] theorem printed_append (values later : List Value) :
    printed serde (values ++ later) = printed serde values ++ printed serde later := by
  simp [printed]

theorem surviving_cons_of_survives {write : Write} {later : List Write} (h : write.survives) :
    surviving (write :: later) = write.value :: surviving later := by
  unfold surviving
  rw [List.filter_cons_of_pos h, List.map_cons]

theorem surviving_cons_of_not {write : Write} {later : List Write} (h : ¬write.survives) :
    surviving (write :: later) = surviving later := by
  unfold surviving
  rw [List.filter_cons_of_neg h]

/-- Of what was not begun, nothing survives. -/
theorem surviving_zero {values : List Value} (faithful : ∀ value ∈ values, serde.Faithful value) :
    surviving (writes serde false values (some 0)) = [] := by
  induction values with
  | nil => rfl
  | cons value later ih =>
    have hsome := (faithful value List.mem_cons_self).some_
    have hlater := ih fun v hv => faithful v (List.mem_cons_of_mem _ hv)
    rw [writes, surviving_cons_of_not]
    · simpa using hlater
    · simpa [Write.survives, Appender.body] using hsome

theorem body_length (a : Appender) (text : Bytes) :
    (a.body text).length = a.whole text + 1 := by
  unfold Appender.body Appender.whole
  split_ifs <;> simp [Nat.add_comm]

/-- A batch that stops anywhere behind a writer that is ready: its records that are down but for
their newline are in the file, and no others. -/
theorem batch_holds {records : List (Bytes × Value)} {file : Bytes} {a : Appender}
    {values : List Value} (ready : Ready records file a)
    (faithful : ∀ value ∈ values, serde.Faithful value) (some_ : values ≠ [])
    (stops : Option ℕ) :
    Holds serde.parse
      (records ++ printed serde (surviving (writes serde a.prefixNewline values stops)))
      (file ++ cut ((if a.prefixNewline then [newline] else []) ++ batch serde values) stops) := by
  induction values generalizing records file a stops with
  | nil => exact absurd rfl some_
  | cons value later ih =>
    have hvalue := faithful value List.mem_cons_self
    have hlater := fun v hv => faithful v (List.mem_cons_of_mem _ hv)
    have hbody : (if a.prefixNewline then [newline] else []) ++ batch serde (value :: later) =
        a.body (serde.print value) ++ batch serde later := by
      simp [batch, Appender.body]
    obtain ⟨-, hready⟩ := ready.append (serde.print value) value
    have hsize := body_length a (serde.print value)
    -- the rest of the batch, behind the whole of this record
    have more (stops : Option ℕ) : Holds serde.parse
        (records ++ [(serde.print value, value)] ++
          printed serde (surviving (writes serde false later stops)))
        (file ++ a.body (serde.print value) ++ cut (batch serde later) stops) := by
      by_cases hnil : later = []
      · subst hnil
        have hcut : cut (batch serde []) stops = [] := by cases stops <;> simp [cut, batch]
        rw [hcut, List.append_nil]
        simpa [writes, surviving, printed] using hready.holds
      · have hmore := ih hready hlater hnil stops
        simpa using hmore
    rw [hbody, writes]
    have hwhole : (Appender.body { prefixNewline := a.prefixNewline } (serde.print value)).length =
        a.whole (serde.print value) + 1 := hsize
    cases stops with
    | none =>
      rw [surviving_cons_of_survives (by simp [Write.survives])]
      have hmore := more none
      simpa [cut, printed] using hmore
    | some written =>
      by_cases hall : a.whole (serde.print value) + 1 ≤ written
      · rw [surviving_cons_of_survives (by simp [Write.survives, hwhole, hall])]
        have hmore := more (some (written - (a.whole (serde.print value) + 1)))
        have hcut : cut (a.body (serde.print value) ++ batch serde later) (some written) =
            a.body (serde.print value) ++
              cut (batch serde later) (some (written - (a.whole (serde.print value) + 1))) := by
          rw [cut, List.take_append, hsize, List.take_of_length_le (by omega)]
          rfl
        rw [hcut]
        simpa [hwhole, printed] using hmore
      · have htear := ready.tear hvalue written
        have hfile : (a.append file (serde.print value) (some written)).1 =
            file ++ (a.body (serde.print value)).take written := by
          cases ready <;> rfl
        have hcut : cut (a.body (serde.print value) ++ batch serde later) (some written) =
            (a.body (serde.print value)).take written := by
          rw [cut, List.take_append_of_le_length (by omega)]
        have hrest : surviving (writes serde false later
            ((some written).map (· - (a.whole (serde.print value) + 1)))) = [] := by
          rw [Option.map_some, Nat.sub_eq_zero_of_le (by omega)]
          exact surviving_zero hlater
        rw [hfile] at htear
        rw [hcut, hwhole]
        by_cases hdown : a.whole (serde.print value) ≤ written
        · rw [if_pos hdown] at htear
          rw [surviving_cons_of_survives (by simp [Write.survives]; omega), hrest]
          simpa [printed] using htear
        · rw [if_neg hdown] at htear
          rw [surviving_cons_of_not (by simp [Write.survives]; omega), hrest]
          simpa [printed] using htear

/-- A write through a writer that is ready: when it returns the writer is ready again. -/
theorem append_ready {records : List (Bytes × Value)} {file : Bytes} {a : Appender} {value : Value}
    (ready : Ready records file a) (faithful : serde.Faithful value) (stops : Option ℕ) :
    let after := a.append file (serde.print value) stops
    let records' := records ++ printed serde (surviving (writes serde a.prefixNewline [value] stops))
    Holds serde.parse records' after.1 ∧
      (after.2.1.writable → Ready records' after.1 after.2.1) := by
  have hholds := batch_holds ready (fun v hv => List.mem_singleton.mp hv ▸ faithful)
    (List.cons_ne_nil value []) stops
  have hbatch : (if a.prefixNewline then [newline] else []) ++ batch serde [value] =
      a.body (serde.print value) := by simp [batch, Appender.body]
  rw [hbatch] at hholds
  cases stops with
  | none =>
    obtain ⟨happend, hready⟩ := ready.append (serde.print value) value
    rw [happend]
    refine ⟨hholds, fun _ => ?_⟩
    simpa [writes, surviving, Write.survives, printed] using hready
  | some written =>
    have hfile : a.append file (serde.print value) (some written) =
        (file ++ (a.body (serde.print value)).take written,
          { prefixNewline := false, writable := false }, false) := by cases ready <;> rfl
    rw [hfile]
    exact ⟨hholds, fun h => absurd h Bool.false_ne_true⟩

theorem prints_of_faithful {values : List Value}
    (faithful : ∀ value ∈ values, serde.Faithful value) :
    ∀ record ∈ printed serde values, Prints serde.parse record.1 record.2 := by
  intro record hrecord
  obtain ⟨value, hvalue, rfl⟩ := List.mem_map.mp hrecord
  exact faithful value hvalue

theorem surviving_subset {prefixNewline : Bool} {values : List Value} {stops : Option ℕ} :
    ∀ value ∈ surviving (writes serde prefixNewline values stops), value ∈ values := by
  have same (prefixNewline : Bool) (values : List Value) (stops : Option ℕ) :
      (writes serde prefixNewline values stops).map (·.value) = values := by
    induction values generalizing prefixNewline stops with
    | nil => rfl
    | cons value later ih => rw [writes, List.map_cons, ih]
  intro value h
  obtain ⟨write, hwrite, rfl⟩ := List.mem_map.mp h
  have hmem := List.mem_map_of_mem (f := Write.value) (List.mem_filter.mp hwrite).1
  rw [same] at hmem
  exact hmem

/-- Opening a writer on a file that holds these records. -/
theorem open_ready {records : List (Bytes × Value)} {file : Option Bytes}
    (holds : Holds serde.parse records (file.getD []))
    (prints : ∀ record ∈ records, Prints serde.parse record.1 record.2) :
    Ready records (Appender.open_ serde.parse file).1 (Appender.open_ serde.parse file).2 := by
  have hopen := holds.open_ prints
  cases file <;> exact hopen

/-- A batch through a writer of its own. -/
theorem extend_holds {records : List (Bytes × Value)} {file : Option Bytes} {values : List Value}
    (holds : Holds serde.parse records (file.getD []))
    (prints : ∀ record ∈ records, Prints serde.parse record.1 record.2)
    (faithful : ∀ value ∈ values, serde.Faithful value) (some_ : values ≠ [])
    (stops : Option ℕ) :
    ∃ after, extend serde file values stops = some after ∧
      Holds serde.parse (records ++ printed serde
        (surviving (writes serde (repairTail serde.parse (file.getD [])).2 values stops))) after := by
  have hready := open_ready holds prints
  have hholds := batch_holds hready faithful some_ stops
  unfold Appender.open_ at hholds
  rcases hrepair : repairTail serde.parse (file.getD []) with ⟨repaired, prefixNewline⟩
  rw [hrepair] at hholds
  unfold extend
  rw [if_neg some_, hrepair]
  refine ⟨_, rfl, ?_⟩
  cases prefixNewline <;> exact hholds

namespace Journal

/-- The file holds the records that have to be read back, and a writer that still may write can go
on behind them. -/
structure Sound (serde : Serde) (j : Journal) : Prop where
  holds : Holds serde.parse (printed serde j.kept) (j.file.getD [])
  ready : ∀ a ∈ j.appender, a.writable → Ready (printed serde j.kept) (j.file.getD []) a
  faithful : ∀ value ∈ j.kept, serde.Faithful value
  missing : j.file = none → j.writes = []

/-- The journal after one more write. -/
theorem Sound.grow {j : Journal} {file : Bytes} {appender : Option Appender}
    {written : List Write} (h : j.Sound serde)
    (holds : Holds serde.parse (printed serde j.kept ++ printed serde (surviving written)) file)
    (ready : ∀ a ∈ appender, a.writable →
      Ready (printed serde j.kept ++ printed serde (surviving written)) file a)
    (faithful : ∀ value ∈ surviving written, serde.Faithful value) :
    ({ file := some file, appender, writes := j.writes ++ written } : Journal).Sound serde := by
  have hkept : ({ file := some file, appender, writes := j.writes ++ written } : Journal).kept =
      j.kept ++ surviving written := surviving_append _ _
  refine ⟨?_, ?_, ?_, fun hnone => absurd hnone (Option.some_ne_none _)⟩
  · rw [hkept, printed_append]
    exact holds
  · rw [hkept, printed_append]
    exact ready
  · rw [hkept]
    intro value hvalue
    rcases List.mem_append.mp hvalue with hold | hnew
    · exact h.faithful value hold
    · exact faithful value hnew

theorem step_sound {j k : Journal} {m : Move} (h : j.Sound serde)
    (faithful : ∀ value ∈ m.values, serde.Faithful value) (hstep : step serde j m = some k) :
    k.Sound serde := by
  have hprints := prints_of_faithful h.faithful
  cases m with
  | open_ =>
    obtain rfl := Option.some.inj hstep
    have hready := open_ready h.holds hprints
    refine ⟨hready.holds, ?_, h.faithful, fun hnone => absurd hnone (Option.some_ne_none _)⟩
    intro a ha _
    rw [← Option.some.inj ha]
    exact hready
  | close =>
    obtain rfl := Option.some.inj hstep
    exact ⟨h.holds, fun a ha => absurd ha (Option.not_mem_none a), h.faithful, h.missing⟩
  | append value stops =>
    have hvalue : serde.Faithful value := faithful value List.mem_cons_self
    obtain ⟨a, ha, hk⟩ := Option.bind_eq_some_iff.mp hstep
    by_cases hwritable : a.writable
    · have happend := append_ready (h.ready a ha hwritable) hvalue stops
      rcases hafter : a.append (j.file.getD []) (serde.print value) stops with ⟨file, a', ok⟩
      rw [hafter] at hk happend
      obtain rfl := Option.some.inj hk
      rw [if_pos hwritable]
      refine h.grow happend.1 ?_ fun v hv => ?_
      · intro b hb
        rw [← Option.some.inj hb]
        exact happend.2
      · exact List.mem_singleton.mp (surviving_subset v hv) ▸ hvalue
    · have hpoisoned : a.append (j.file.getD []) (serde.print value) stops =
          (j.file.getD [], a, false) := by
        unfold Appender.append
        rw [Bool.not_eq_true] at hwritable
        rw [hwritable]
      rw [hpoisoned] at hk
      obtain rfl := Option.some.inj hk
      rw [if_neg hwritable]
      refine h.grow ?_ ?_ fun v hv => absurd hv List.not_mem_nil
      · simpa [surviving, printed] using h.holds
      · intro b hb hwritable'
        rw [← Option.some.inj hb] at hwritable'
        exact absurd hwritable' hwritable
  | extend values stops =>
    rw [step] at hstep
    cases happender : j.appender with
    | some a =>
      rw [happender] at hstep
      exact absurd hstep.symm (Option.some_ne_none k)
    | none =>
      rcases hrepair : repairTail serde.parse (j.file.getD []) with ⟨repaired, prefixNewline⟩
      rw [happender, hrepair] at hstep
      obtain rfl := Option.some.inj hstep
      by_cases hnil : values = []
      · subst hnil
        obtain ⟨file, appender, written⟩ := j
        obtain rfl : appender = none := happender
        simpa [Jsonl.extend, Jsonl.writes] using h
      · have faithful : ∀ value ∈ values, serde.Faithful value := faithful
        obtain ⟨after, hafter, hholds⟩ :=
          extend_holds h.holds hprints faithful hnil stops
        rw [hafter]
        rw [hrepair] at hholds
        refine h.grow hholds ?_ fun v hv => faithful v (surviving_subset v hv)
        exact fun a ha => absurd ha (Option.not_mem_none a)

theorem Reach.sound {j : Journal} (h : Reach serde j) : j.Sound serde := by
  refine h.invariant ?_ fun j m k _ hj hm hstep => step_sound hj hm hstep
  rintro j rfl
  exact ⟨.whole, fun a ha => absurd ha (Option.not_mem_none a),
    fun v hv => absurd hv List.not_mem_nil, fun _ => rfl⟩

end Journal

theorem Appender.append_eq (a : Appender) (file : Bytes) (value : Value) (writable : a.writable)
    (stops : Option ℕ) :
    (a.append file (serde.print value) stops).1 =
      file ++ cut (a.body (serde.print value)) stops := by
  unfold Appender.append
  rw [writable]
  cases stops <;> rfl

theorem Appender.appendAll_eq (a : Appender) (file : Bytes) (values : List Value)
    (writable : a.writable) (some_ : values ≠ []) :
    (Appender.appendAll serde (file, a) values).1 =
      file ++ ((if a.prefixNewline then [newline] else []) ++ batch serde values) := by
  induction values generalizing a file with
  | nil => exact absurd rfl some_
  | cons value later ih =>
    have happend : a.append file (serde.print value) none =
        (file ++ a.body (serde.print value), { prefixNewline := false }, true) := by
      unfold Appender.append
      rw [writable]
    rw [appendAll, happend]
    by_cases hnil : later = []
    · subst hnil
      simp [appendAll, batch, body]
    · rw [ih _ _ rfl hnil]
      simp [batch, body]

theorem open_writable (file : Option Bytes) : (Appender.open_ serde.parse file).2.writable := rfl

/-- A batch through a writer of its own, against a writer that stays open. -/
theorem extend_eq (file : Option Bytes) (values : List Value) (some_ : values ≠ []) :
    extend serde file values none =
      some (Appender.appendAll serde (Appender.open_ serde.parse file) values).1 := by
  unfold extend Appender.open_
  rw [if_neg some_]
  rcases repairTail serde.parse (file.getD []) with ⟨repaired, prefixNewline⟩
  have hall : (Appender.appendAll serde (repaired, { prefixNewline }) values).1 =
      repaired ++ ((if prefixNewline then [newline] else []) ++ batch serde values) :=
    Appender.appendAll_eq { prefixNewline } repaired values rfl some_
  dsimp only
  rw [hall]
  cases prefixNewline <;> rfl

theorem extend_one (file : Option Bytes) (value : Value) (stops : Option ℕ) :
    extend serde file [value] stops =
      some ((Appender.open_ serde.parse file).2.append (Appender.open_ serde.parse file).1
        (serde.print value) stops).1 := by
  rw [Appender.append_eq _ _ _ (open_writable file)]
  unfold extend Appender.open_
  rw [if_neg (List.cons_ne_nil _ _)]
  rcases repairTail serde.parse (file.getD []) with ⟨repaired, prefixNewline⟩
  cases prefixNewline <;> simp [batch, Appender.body]

/-- Batch after batch, each through a writer of its own, behind a whole line. -/
theorem extends_eq (front : Bytes) (values : List Value) :
    values.foldl (fun file value => extend serde file [value] none) (some (front ++ [newline])) =
      some (front ++ [newline] ++ batch serde values) := by
  induction values generalizing front with
  | nil => simp [batch]
  | cons value later ih =>
    have hrepair : repairTail serde.parse (front ++ [newline]) = (front ++ [newline], false) := by
      unfold repairTail
      rw [List.getLast?_concat]
      simp
    have hfirst : extend serde (some (front ++ [newline])) [value] none =
        some (front ++ [newline] ++ serde.print value ++ [newline]) := by
      unfold extend
      rw [if_neg (List.cons_ne_nil _ _), Option.getD_some, hrepair]
      simp [batch, cut]
    rw [List.foldl_cons, hfirst, ih]
    simp [batch]

theorem extends_eq_extend (file : Option Bytes) (values : List Value) (some_ : values ≠ []) :
    values.foldl (fun file value => extend serde file [value] none) file =
      extend serde file values none := by
  obtain ⟨value, later, rfl⟩ := List.exists_cons_of_ne_nil some_
  rw [List.foldl_cons]
  rcases hrepair : repairTail serde.parse (file.getD []) with ⟨repaired, prefixNewline⟩
  have hfirst : extend serde file [value] none =
      some (repaired ++ (if prefixNewline then [newline] else []) ++ serde.print value ++
        [newline]) := by
    unfold extend
    rw [if_neg (List.cons_ne_nil _ _), hrepair]
    cases prefixNewline <;> simp [batch, cut]
  rw [hfirst, extends_eq]
  unfold extend
  rw [if_neg some_, hrepair]
  cases prefixNewline <;> simp [batch, cut]

/-- Whatever was written, by however many writers and however many of them died in the middle of
their last write, the file is healthy and reads back as every acknowledged record and every one
that is down but for its newline, in the order they were written; the next writer's append adds its
record to exactly these; and a batch through a writer of its own leaves the bytes that one writer
leaves for its values. -/
theorem journal_reads_back (serde : Serde) (j : Journal) (reach : Journal.Reach serde j) :
    readChecked serde.parse j.file =
      { missing := j.file.isNone, records := numbered 1 (printed serde j.kept) } ∧
    (∀ value, serde.Faithful value →
      let (file, a) := Appender.open_ serde.parse j.file
      let (file, _, ok) := a.append file (serde.print value) none
      ok = true ∧ readChecked serde.parse (some file) =
        { records := numbered 1 (printed serde (j.kept ++ [value])) }) ∧
    (∀ value stops, extend serde j.file [value] stops =
      some ((Appender.open_ serde.parse j.file).2.append (Appender.open_ serde.parse j.file).1
        (serde.print value) stops).1) ∧
    ∀ values, values ≠ [] →
      extend serde j.file values none =
          some (Appender.appendAll serde (Appender.open_ serde.parse j.file) values).1 ∧
        values.foldl (fun file value => extend serde file [value] none) j.file =
          extend serde j.file values none := by
  have sound := reach.sound
  have prints := prints_of_faithful sound.faithful
  refine ⟨?_, ?_, fun value stops => extend_one j.file value stops,
    fun values some_ => ⟨extend_eq j.file values some_, extends_eq_extend j.file values some_⟩⟩
  · cases hfile : j.file with
    | none =>
      have hkept : j.kept = [] := by
        unfold Journal.kept
        rw [sound.missing hfile]
        rfl
      rw [hkept]
      rfl
    | some file =>
      have holds := sound.holds
      rw [hfile] at holds
      exact holds.read prints
  · intro value faithful
    have ready := open_ready sound.holds prints
    obtain ⟨happend, hready⟩ := ready.append (serde.print value) value
    rcases hopen : Appender.open_ serde.parse j.file with ⟨file, a⟩
    rw [hopen] at happend hready
    dsimp only
    rw [happend]
    refine ⟨rfl, ?_⟩
    have hprints : ∀ record ∈ printed serde j.kept ++ [(serde.print value, value)],
        Prints serde.parse record.1 record.2 := by
      intro record hrecord
      rcases List.mem_append.mp hrecord with hold | hnew
      · exact prints record hold
      · rw [List.mem_singleton.mp hnew]
        exact faithful
    rw [printed_append]
    exact hready.holds.read hprints

end

namespace Journal

def sample (n : ℤ) : Value := .object [("n", .number n)]

/-- The second record gets all down but its newline, and the third three bytes: the one that
delimits the second, and two of its own. -/
def tornTwice : List Move :=
  [.open_, .append (sample 1) none, .append (sample 2) (some 7), .open_, .append (sample 3) (some 3),
    .close]

end Journal

theorem journal_reads_back_torn :
    let serde := Serde.ascii [Journal.sample 1, Journal.sample 2, Journal.sample 3]
    ∃ j : Journal, j.kept = [Journal.sample 1, Journal.sample 2] ∧
      readChecked serde.parse j.file =
        { missing := j.file.isNone, records := numbered 1 (printed serde j.kept) } ∧
      (∀ value, serde.Faithful value →
        let (file, a) := Appender.open_ serde.parse j.file
        let (file, _, ok) := a.append file (serde.print value) none
        ok = true ∧ readChecked serde.parse (some file) =
          { records := numbered 1 (printed serde (j.kept ++ [value])) }) ∧
      (∀ value stops, extend serde j.file [value] stops =
        some ((Appender.open_ serde.parse j.file).2.append (Appender.open_ serde.parse j.file).1
          (serde.print value) stops).1) ∧
      ∀ values, values ≠ [] →
        extend serde j.file values none =
            some (Appender.appendAll serde (Appender.open_ serde.parse j.file) values).1 ∧
          values.foldl (fun file value => extend serde file [value] none) j.file =
            extend serde j.file values none := by
  intro serde
  have faithful : ∀ value ∈ [Journal.sample 1, Journal.sample 2, Journal.sample 3],
      serde.Faithful value := by
    intro value mem
    have some_ : ∀ value ∈ [Journal.sample 1, Journal.sample 2, Journal.sample 3],
        Ascii.print value ≠ [] := by decide +kernel
    exact Serde.ascii_faithful mem (by decide +kernel) (by decide +kernel) (some_ value mem)
  have prints : ∀ m ∈ Journal.tornTwice, ∀ value ∈ m.values,
      value ∈ [Journal.sample 1, Journal.sample 2, Journal.sample 3] := by decide +kernel
  have run : ((Journal.machine serde).exec {} Journal.tornTwice).map Journal.kept =
      some [Journal.sample 1, Journal.sample 2] := by decide +kernel
  obtain ⟨j, hj, kept⟩ := Option.map_eq_some_iff.mp run
  have reach : Journal.Reach serde j :=
    (Lib.Machine.Reach.init rfl).exec
      (Lib.Machine.along_of_mem (fun _ m hm value hv => faithful value (prints m hm value hv)) _) hj
  exact ⟨j, kept, journal_reads_back serde j reach⟩

end Jsonl
end SiliconOmni
