import SiliconOmni.Jsonl

/-! Reading one connection's requests, each at most `MAX_REQUEST_BYTES` long. -/
namespace SiliconOmni.Daemon
open Jsonl (Bytes newline)

def MAX_REQUEST_BYTES : ℕ := 16 * 1024 * 1024

/-- Why a read has no answer: the connection failed, a subtraction went below zero, or there were
more rounds than it was given. -/
inductive Fault where
  | io (err : String)
  | underflow | rounds
  deriving DecidableEq, Repr

/-- A buffered reader: the bytes not consumed yet, and how far past the first of them each
`fill_buf` reaches. -/
structure Reading where
  rest : Bytes
  offers : ℕ → ℕ
  calls : ℕ := 0
  /-- The error that comes behind the bytes, where it is not their end that does. -/
  broken : Option String := none

namespace Reading

/-- Some of the bytes to come, and none at the end of the stream only. -/
def fillBuf (r : Reading) : Except Fault (Bytes × Reading) :=
  match r.rest, r.broken with
  | [], some err => .error (.io err)
  | rest, _ => .ok (rest.take (r.offers r.calls + 1), { r with calls := r.calls + 1 })

def consume (r : Reading) (used : ℕ) : Reading := { r with rest := r.rest.drop used }

/-- `fill_buf` offers a beginning of what is to come, and something of it where there is anything;
or the connection failed, behind its last byte. -/
theorem fillBuf_cases (r : Reading) :
    (∃ err, r.rest = [] ∧ r.broken = some err ∧ r.fillBuf = .error (.io err)) ∨
    ∃ available, (r.rest = [] → r.broken = none) ∧ available <+: r.rest ∧
      (available = [] ↔ r.rest = []) ∧
      r.fillBuf = .ok (available, { r with calls := r.calls + 1 }) := by
  unfold fillBuf
  cases hrest : r.rest with
  | nil =>
    cases hbroken : r.broken with
    | some err => exact .inl ⟨err, rfl, rfl, rfl⟩
    | none => exact .inr ⟨[], fun _ => rfl, List.prefix_rfl, Iff.rfl, rfl⟩
  | cons byte rest =>
    exact .inr ⟨_, nofun, List.take_prefix .., by simp, rfl⟩

@[simp] theorem consume_rest (r : Reading) (used : ℕ) :
    (r.consume used).rest = r.rest.drop used := rfl

end Reading

/-- The buffer a request is read into. -/
structure Buffer where
  bytes : Bytes := []
  capacity : ℕ := 0
  deriving DecidableEq, Repr

def Buffer.clear (line : Buffer) : Buffer := { line with bytes := [] }

inductive BoundedLine where
  | eof | line | tooLong
  deriving DecidableEq, Repr

/-- Unsigned subtraction. -/
def checkedSub (a b : ℕ) : Except Fault ℕ := if b ≤ a then .ok (a - b) else .error .underflow

theorem checkedSub_ok {a b : ℕ} (h : b ≤ a) : checkedSub a b = .ok (a - b) := if_pos h

section
variable (max_ : ℕ)

/-- Room for `used` more bytes. -/
def Buffer.reserve (line : Buffer) (used : ℕ) : Except Fault Buffer := do
  let needed := line.bytes.length + used
  if needed > line.capacity then
    let target := min (max needed (max line.capacity 1 * 2)) (max_ + 1)
    let more ← checkedSub target line.bytes.length
    return { line with capacity := line.bytes.length + more }
  else return line

/-- What one round of the loop comes to. -/
inductive Round where
  | exit (result : BoundedLine) (line : Buffer) (reader : Reading)
  | again (line : Buffer) (reader : Reading)

/-- How much of what is offered belongs to the line: up to its newline, or all of it. -/
def usedOf (offered : Bytes) : ℕ :=
  match offered.findIdx? (· = newline) with
  | some at_ => at_ + 1
  | none => offered.length

/-- The round with `piece` taken from the reader. -/
def extended (line : Buffer) (reader : Reading) (piece : Bytes) : Round :=
  let line := { line with bytes := line.bytes ++ piece }
  let reader := reader.consume piece.length
  if piece.getLast? = some newline then .exit .line line reader
  else if line.bytes.length = max_ + 1 then .exit .tooLong line reader
  else .again line reader

/-- One round of the loop in `read_request_line`. -/
def round (line : Buffer) (reader : Reading) : Except Fault Round := do
  let (available, reader) ← reader.fillBuf
  if available = [] then
    return .exit (if line.bytes = [] then .eof else .line) line reader
  else
    let room ← checkedSub (max_ + 1) line.bytes.length
    let offered := available.take (min available.length room)
    let piece := offered.take (usedOf offered)
    let line ← line.reserve max_ piece.length
    return extended max_ line reader piece

def Round.buffer : Round → Buffer
  | .exit _ line _ | .again line _ => line

/-- The loop in `read_request_line`, given so many rounds. -/
def readRounds : ℕ → Buffer → Reading → Except Fault (BoundedLine × Buffer × Reading)
  | 0, _, _ => .error .rounds
  | rounds + 1, line, reader => do
      match ← round max_ line reader with
      | .exit result line reader => return (result, line, reader)
      | .again line reader => readRounds rounds line reader

/-- Read at most one request plus a sentinel byte. -/
def readRequestLine (rounds : ℕ) (line : Buffer) (reader : Reading) :
    Except Fault (BoundedLine × Buffer × Reading) :=
  readRounds max_ rounds line.clear reader

/-- What `talk` was given by one call. -/
inductive Answer where
  | line (bytes : Bytes)
  | eof
  | tooLong
  | failed (err : String)
  deriving DecidableEq, Repr

/-- What `talk` has been given in all, once a call has ended this way. -/
def BoundedLine.answers (bytes : Bytes) (later : List Answer) : BoundedLine → List Answer
  | .eof => [.eof]
  | .line => .line bytes :: later
  | .tooLong => [.tooLong]

/-- What the reads of `talk` return, one after another, given so many calls of so many rounds. -/
def talkReads (rounds : ℕ) : ℕ → Buffer → Reading → Except Fault (List Answer)
  | 0, _, _ => .error .rounds
  | calls + 1, line, reader =>
      match readRequestLine max_ rounds line reader with
      | .ok (.line, line, reader) => do
          return .line line.bytes :: (← talkReads rounds calls line reader)
      | .ok (.eof, _, _) => .ok [.eof]
      | .ok (.tooLong, _, _) => .ok [.tooLong]
      | .error (.io err) => .ok [.failed err]
      | .error fault => .error fault

/-- What should be returned for a stream, split at its newlines. -/
def requests : List Bytes → List Answer
  | [] => [.eof]
  | line :: later =>
      if (line.filter (· ≠ newline)).length ≤ max_ then .line line :: requests later
      else [.tooLong]

/-- What should be returned for a stream that fails behind its last byte: a line whose newline has
not arrived is lost. -/
def failing (err : String) : List Bytes → List Answer
  | [] => [.failed err]
  | line :: later =>
      if (line.filter (· ≠ newline)).length ≤ max_ then
        if line.getLast? = some newline then .line line :: failing err later else [.failed err]
      else [.tooLong]

/-- What should be returned for a stream that ends so. -/
def requestsOf (broken : Option String) (lines : List Bytes) : List Answer :=
  match broken with
  | none => requests max_ lines
  | some err => failing max_ err lines

end

/-- A buffer between two rounds: a sentinel byte still fits. -/
structure Buffer.Open (max_ : ℕ) (line : Buffer) : Prop where
  plain : newline ∉ line.bytes
  short : line.bytes.length ≤ max_
  capacity : line.capacity ≤ max_ + 1

/-- A call's answer to a stream: what it returns, what is in the buffer, and what is left. -/
inductive Answers (max_ : ℕ) (broken : Option String) (stream : Bytes) :
    BoundedLine → Bytes → Bytes → Prop where
  | eof (ends : broken = none) (none_ : stream = []) : Answers max_ broken stream .eof [] []
  | whole (content after : Bytes) (plain : newline ∉ content) (short : content.length ≤ max_)
      (reads : stream = content ++ newline :: after) :
      Answers max_ broken stream .line (content ++ [newline]) after
  | last (ends : broken = none) (plain : newline ∉ stream) (short : stream.length ≤ max_)
      (some_ : stream ≠ []) : Answers max_ broken stream .line stream []
  | tooLong (front after : Bytes) (plain : newline ∉ front) (long : front.length = max_ + 1)
      (reads : stream = front ++ after) : Answers max_ broken stream .tooLong front after

/-- The connection fails in the middle of a line that fits. -/
structure Fails (max_ : ℕ) (broken : Option String) (stream : Bytes) (err : String) : Prop where
  broken : broken = some err
  plain : newline ∉ stream
  short : stream.length ≤ max_

section
variable {max_ : ℕ} {line : Buffer} {reader : Reading}

theorem Buffer.reserve_ok {used : ℕ} (fits : line.bytes.length + used ≤ max_ + 1)
    (capacity : line.capacity ≤ max_ + 1) :
    ∃ line', line.reserve max_ used = .ok line' ∧ line'.bytes = line.bytes ∧
      line'.capacity ≤ max_ + 1 := by
  unfold Buffer.reserve
  by_cases hneeded : line.bytes.length + used > line.capacity
  · have htarget : line.bytes.length ≤
        min (max (line.bytes.length + used) (max line.capacity 1 * 2)) (max_ + 1) := by omega
    refine ⟨{ line with capacity := line.bytes.length +
      (min (max (line.bytes.length + used) (max line.capacity 1 * 2)) (max_ + 1) -
        line.bytes.length) }, ?_, rfl, ?_⟩
    · simp only [if_pos hneeded, checkedSub_ok htarget]
      rfl
    · show line.bytes.length + _ ≤ max_ + 1
      omega
  · refine ⟨line, ?_, rfl, capacity⟩
    simp only [if_neg hneeded]
    rfl

/-- A piece of the stream is cut off behind its newline, or has none. -/
theorem usedOf_cuts (offered : Bytes) :
    (newline ∉ offered ∧ offered.take (usedOf offered) = offered) ∨
      ∃ content after, newline ∉ content ∧ offered = content ++ newline :: after ∧
        offered.take (usedOf offered) = content ++ [newline] := by
  unfold usedOf
  cases hfind : offered.findIdx? (· = newline) with
  | none =>
    left
    refine ⟨?_, List.take_length⟩
    rw [List.findIdx?_eq_none_iff] at hfind
    intro hmem
    simpa using hfind newline hmem
  | some at_ =>
    right
    obtain ⟨inside, found, first⟩ := List.findIdx?_eq_some_iff_getElem.mp hfind
    have hbyte : offered[at_] = newline := by simpa using found
    refine ⟨offered.take at_, offered.drop (at_ + 1), ?_, ?_, ?_⟩
    · intro hmem
      obtain ⟨i, hi, heq⟩ := List.mem_iff_getElem.mp hmem
      rw [List.length_take] at hi
      rw [List.getElem_take] at heq
      have hother := first i (by omega)
      simp [heq] at hother
    · rw [← hbyte, ← List.drop_eq_getElem_cons inside, List.take_append_drop]
    · rw [List.take_succ_eq_append_getElem inside, hbyte]

/-- One round: the call ends as the stream has it, or more of the line is in the buffer. -/
inductive Rounded (max_ : ℕ) (broken : Option String) (stream : Bytes) (rest : Bytes) :
    Round → Prop where
  | exit {result : BoundedLine} {line : Buffer} {reader : Reading}
      (answers : Answers max_ broken stream result line.bytes reader.rest)
      (capacity : line.capacity ≤ max_ + 1) (kept : reader.broken = broken) :
      Rounded max_ broken stream rest (.exit result line reader)
  | again {line : Buffer} {reader : Reading} (open_ : line.Open max_)
      (reads : stream = line.bytes ++ reader.rest) (shorter : reader.rest.length < rest.length)
      (kept : reader.broken = broken) : Rounded max_ broken stream rest (.again line reader)

/-- Taking a piece that fits, cut off behind its newline. -/
theorem extended_rounded {offered behind : Bytes} (plain : newline ∉ line.bytes)
    (capacity : line.capacity ≤ max_ + 1) (rest : reader.rest = offered ++ behind)
    (fits : line.bytes.length + offered.length ≤ max_ + 1) (some_ : offered ≠ []) :
    Rounded max_ reader.broken (line.bytes ++ reader.rest) reader.rest
      (extended max_ line reader (offered.take (usedOf offered))) := by
  have hpos := List.length_pos_iff.mpr some_
  unfold extended
  rcases usedOf_cuts offered with ⟨hplain, htake⟩ | ⟨content, after, hplain, heq, htake⟩
  · have hlast : offered.getLast? ≠ some newline :=
      fun hlast => hplain (List.mem_of_getLast? hlast)
    have hline : newline ∉ line.bytes ++ offered := by
      rw [List.mem_append, not_or]
      exact ⟨plain, hplain⟩
    have hstream : line.bytes ++ reader.rest = line.bytes ++ offered ++ behind := by
      rw [rest, List.append_assoc]
    have hleft : (reader.consume offered.length).rest = behind := by
      rw [Reading.consume_rest, rest, List.drop_left]
    rw [htake, if_neg hlast]
    dsimp only
    by_cases hfull : (line.bytes ++ offered).length = max_ + 1
    · rw [if_pos hfull]
      refine .exit ?_ capacity rfl
      rw [hleft, hstream]
      exact .tooLong _ _ hline hfull rfl
    · rw [if_neg hfull]
      refine .again ⟨hline, ?_, capacity⟩ ?_ ?_ rfl
      · rw [List.length_append] at hfull ⊢
        omega
      · rw [hleft, hstream]
      · rw [hleft, rest, List.length_append]
        omega
  · rw [htake, if_pos List.getLast?_concat]
    refine .exit ?_ capacity rfl
    have hleft : (reader.consume (content ++ [newline]).length).rest = after ++ behind := by
      rw [Reading.consume_rest, rest, heq]
      simp
    have hshort : (line.bytes ++ content).length ≤ max_ := by
      rw [heq] at fits
      simp only [List.length_append, List.length_cons] at fits ⊢
      omega
    have hline : newline ∉ line.bytes ++ content := by
      rw [List.mem_append, not_or]
      exact ⟨plain, hplain⟩
    have hstream : line.bytes ++ reader.rest =
        line.bytes ++ content ++ newline :: (after ++ behind) := by
      rw [rest, heq]
      simp
    rw [hleft]
    dsimp only
    rw [← List.append_assoc]
    exact .whole _ _ hline hshort hstream

theorem round_holds (h : line.Open max_) :
    (∃ err, Fails max_ reader.broken (line.bytes ++ reader.rest) err ∧
      round max_ line reader = .error (.io err)) ∨
    ∃ out, round max_ line reader = .ok out ∧
      Rounded max_ reader.broken (line.bytes ++ reader.rest) reader.rest out := by
  rcases reader.fillBuf_cases with
    ⟨err, hend, hbroken, hfill⟩ | ⟨available, hends, hprefix, hnil, hfill⟩
  · refine .inl ⟨err, ⟨hbroken, ?_, ?_⟩, ?_⟩
    · rw [hend, List.append_nil]
      exact h.plain
    · rw [hend, List.append_nil]
      exact h.short
    · simp only [round, hfill]
      rfl
  by_cases hend : reader.rest = []
  · obtain rfl := hnil.mpr hend
    refine .inr ⟨.exit (if line.bytes = [] then .eof else .line) line
      { reader with calls := reader.calls + 1 }, ?_, ?_⟩
    · simp only [round, hfill]
      rfl
    · refine .exit ?_ h.capacity rfl
      dsimp only
      rw [hend, List.append_nil]
      by_cases hempty : line.bytes = []
      · rw [if_pos hempty, hempty]
        exact .eof (hends hend) rfl
      · rw [if_neg hempty]
        exact .last (hends hend) h.plain h.short hempty
  · have hsome : available ≠ [] := fun hnone => hend (hnil.mp hnone)
    have hpos := List.length_pos_iff.mpr hsome
    have hshort := h.short
    have hroom := checkedSub_ok (Nat.le_succ_of_le hshort)
    -- what is offered is a prefix of what is to come, cut to the room there is
    generalize hoffered : available.take
      (min available.length (max_ + 1 - line.bytes.length)) = offered
    have hlen : offered.length = min available.length (max_ + 1 - line.bytes.length) := by
      rw [← hoffered, List.length_take]
      omega
    have hprefix : offered <+: reader.rest := hoffered ▸ (List.take_prefix _ _).trans hprefix
    obtain ⟨behind, hbehind⟩ := hprefix
    have hfits : line.bytes.length + offered.length ≤ max_ + 1 := by omega
    have hpiece : (offered.take (usedOf offered)).length ≤ offered.length := by
      rw [List.length_take]
      omega
    have hneeded : line.bytes.length + (offered.take (usedOf offered)).length ≤ max_ + 1 := by
      omega
    obtain ⟨grown, hgrown, hbytes, hcapacity⟩ := line.reserve_ok hneeded h.capacity
    refine .inr ⟨extended max_ grown { reader with calls := reader.calls + 1 }
      (offered.take (usedOf offered)), ?_, ?_⟩
    · simp only [round, hfill, bind, Except.bind, if_neg hsome, hroom, hoffered, hgrown]
      rfl
    · have hrounded := @extended_rounded max_ grown { reader with calls := reader.calls + 1 }
        offered behind (hbytes ▸ h.plain) hcapacity hbehind.symm (hbytes ▸ hfits)
        (List.ne_nil_of_length_pos (by omega))
      rw [hbytes] at hrounded
      exact hrounded

theorem readRounds_holds {rounds : ℕ} (h : line.Open max_)
    (enough : reader.rest.length < rounds) :
    (∃ err, Fails max_ reader.broken (line.bytes ++ reader.rest) err ∧
      readRounds max_ rounds line reader = .error (.io err)) ∨
    ∃ result line' reader', readRounds max_ rounds line reader = .ok (result, line', reader') ∧
      Answers max_ reader.broken (line.bytes ++ reader.rest) result line'.bytes reader'.rest ∧
        line'.capacity ≤ max_ + 1 ∧ reader'.broken = reader.broken := by
  induction rounds generalizing line reader with
  | zero => exact absurd enough (Nat.not_lt_zero _)
  | succ rounds ih =>
    unfold readRounds
    rcases @round_holds _ _ reader h with ⟨err, fails, hround⟩ | ⟨out, hround, hout⟩
    · rw [hround]
      exact .inl ⟨err, fails, rfl⟩
    rw [hround]
    cases hout with
    | exit answers capacity kept => exact .inr ⟨_, _, _, rfl, answers, capacity, kept⟩
    | again open_ reads shorter kept =>
      have henough := Nat.lt_of_lt_of_le shorter (Nat.le_of_lt_succ enough)
      have hrest := ih open_ henough
      rw [← reads, kept] at hrest
      exact hrest

/-- A call reads one request, whatever the buffer held, or fails with the connection. -/
theorem readRequestLine_holds {rounds : ℕ} (capacity : line.capacity ≤ max_ + 1)
    (enough : reader.rest.length < rounds) :
    (∃ err, Fails max_ reader.broken reader.rest err ∧
      readRequestLine max_ rounds line reader = .error (.io err)) ∨
    ∃ result line' reader',
      readRequestLine max_ rounds line reader = .ok (result, line', reader') ∧
        Answers max_ reader.broken reader.rest result line'.bytes reader'.rest ∧
          line'.capacity ≤ max_ + 1 ∧ reader'.broken = reader.broken :=
  have cleared : line.clear.Open max_ := ⟨List.not_mem_nil, Nat.zero_le _, capacity⟩
  readRounds_holds cleared enough

theorem filter_plain {content : Bytes} (plain : newline ∉ content) :
    content.filter (· ≠ newline) = content := by
  rw [List.filter_eq_self]
  intro byte hbyte
  exact decide_eq_true fun heq => plain (heq ▸ hbyte)

/-- The first line of a stream that starts with bytes other than a newline. -/
theorem lines_front {front after : Bytes} (plain : newline ∉ front) (some_ : front ≠ []) :
    ∃ first later, Jsonl.lines (front ++ after) = first :: later ∧
      front.length ≤ (first.filter (· ≠ newline)).length := by
  induction front with
  | nil => exact absurd rfl some_
  | cons byte front ih =>
    have hbyte : byte ≠ newline := fun heq => plain (heq ▸ List.mem_cons_self)
    rw [List.cons_append, Jsonl.lines, if_neg hbyte]
    by_cases hnil : front = []
    · subst hnil
      cases hlines : Jsonl.lines ([] ++ after) with
      | nil => exact ⟨_, _, rfl, by simp [hbyte]⟩
      | cons line later => exact ⟨_, _, rfl, by simp [hbyte]⟩
    · obtain ⟨first, later, hlines, hlen⟩ :=
        ih (fun hmem => plain (List.mem_cons_of_mem _ hmem)) hnil
      rw [hlines]
      refine ⟨_, _, rfl, ?_⟩
      have hkept : (byte :: first).filter (· ≠ newline) =
          byte :: first.filter (· ≠ newline) := List.filter_cons_of_pos (by simpa using hbyte)
      rw [hkept]
      exact Nat.succ_le_succ hlen

/-- What one call answers is what the split has next. -/
theorem Answers.requests {broken : Option String} {stream bytes after : Bytes}
    {result : BoundedLine} (h : Answers max_ broken stream result bytes after) :
    requestsOf max_ broken (Jsonl.lines stream) =
      result.answers bytes (requestsOf max_ broken (Jsonl.lines after)) := by
  cases h with
  | eof ends none_ =>
    subst none_ ends
    rfl
  | whole content after plain short reads =>
    have hcontent : ((content ++ [newline]).filter (· ≠ newline)).length ≤ max_ := by
      rw [List.filter_append, filter_plain plain]
      simpa using short
    subst reads
    rw [Jsonl.lines_line plain]
    cases broken with
    | none =>
      rw [requestsOf, Daemon.requests, if_pos hcontent]
      rfl
    | some err =>
      rw [requestsOf, failing, if_pos hcontent, if_pos List.getLast?_concat]
      rfl
  | last ends plain short some_ =>
    have hcontent : (stream.filter (· ≠ newline)).length ≤ max_ := by
      rw [filter_plain plain]
      exact short
    subst ends
    rw [Jsonl.lines_tail plain some_, requestsOf, Daemon.requests, if_pos hcontent]
    rfl
  | tooLong front after plain long reads =>
    obtain ⟨first, later, hlines, hlen⟩ :=
      @lines_front _ after plain (List.ne_nil_of_length_pos (by omega))
    subst reads
    rw [hlines]
    cases broken with
    | none =>
      rw [requestsOf, Daemon.requests, if_neg (by omega)]
      rfl
    | some err =>
      rw [requestsOf, failing, if_neg (by omega)]
      rfl

theorem Fails.requests {broken : Option String} {stream : Bytes} {err : String}
    (h : Fails max_ broken stream err) :
    requestsOf max_ broken (Jsonl.lines stream) = [.failed err] := by
  rw [h.broken, requestsOf]
  by_cases hnil : stream = []
  · rw [hnil]
    rfl
  · have hshort : (stream.filter (· ≠ newline)).length ≤ max_ := by
      rw [filter_plain h.plain]
      exact h.short
    have hlast : stream.getLast? ≠ some newline :=
      fun hlast => h.plain (List.mem_of_getLast? hlast)
    rw [Jsonl.lines_tail h.plain hnil, failing, if_pos hshort, if_neg hlast]

theorem Answers.shorter {broken : Option String} {stream bytes after : Bytes}
    (h : Answers max_ broken stream .line bytes after) : after.length < stream.length := by
  cases h with
  | whole content after plain short reads =>
    rw [reads, List.length_append, List.length_cons]
    omega
  | last ends plain short some_ => exact List.length_pos_iff.mpr some_

theorem talkReads_eq {rounds calls : ℕ} (capacity : line.capacity ≤ max_ + 1)
    (enough : reader.rest.length < rounds) (often : reader.rest.length < calls) :
    talkReads max_ rounds calls line reader =
      .ok (requestsOf max_ reader.broken (Jsonl.lines reader.rest)) := by
  induction calls generalizing line reader with
  | zero => exact absurd often (Nat.not_lt_zero _)
  | succ calls ih =>
    unfold talkReads
    rcases readRequestLine_holds capacity enough with
      ⟨err, fails, hread⟩ | ⟨result, line', reader', hread, answers, hcapacity, hkept⟩
    · rw [hread, fails.requests]
    rw [hread, answers.requests]
    cases result with
    | eof => rfl
    | tooLong => rfl
    | line =>
      have hshorter := answers.shorter
      have henough := Nat.lt_trans hshorter enough
      have hoften := Nat.lt_of_lt_of_le hshorter (Nat.le_of_lt_succ often)
      have hlater := ih hcapacity henough hoften
      rw [hkept] at hlater
      simp only [bind, Except.bind, hlater]
      rfl

/-- The buffer and the reader at the start of some round of some call, in a connection that sends
`stream`. -/
inductive Visits (max_ : ℕ) (stream : Bytes) (offers : ℕ → ℕ) : Buffer → Reading → Prop where
  | start : Visits max_ stream offers {} { rest := stream, offers }
  | again {line line' : Buffer} {reader reader' : Reading}
      (before : Visits max_ stream offers line reader)
      (step : round max_ line reader = .ok (.again line' reader')) :
      Visits max_ stream offers line' reader'
  | call {line line' : Buffer} {reader reader' : Reading}
      (before : Visits max_ stream offers line reader)
      (step : round max_ line reader = .ok (.exit .line line' reader')) :
      Visits max_ stream offers line'.clear reader'

theorem Answers.length {broken : Option String} {stream bytes after : Bytes}
    {result : BoundedLine} (h : Answers max_ broken stream result bytes after) :
    bytes.length ≤ max_ + 1 := by
  cases h with
  | eof ends none_ => exact Nat.zero_le _
  | whole content after plain short reads => simpa using short
  | last ends plain short some_ => exact Nat.le_succ_of_le short
  | tooLong front after plain long reads => exact Nat.le_of_eq long

/-- A stream that just ends fails no round. -/
theorem Rounded.of_open (h : line.Open max_) (ends : reader.broken = none) :
    ∃ out, round max_ line reader = .ok out ∧
      Rounded max_ none (line.bytes ++ reader.rest) reader.rest out := by
  rcases @round_holds _ _ reader h with ⟨err, fails, -⟩ | hout
  · cases ends.symm.trans fails.broken
  · exact ends ▸ hout

theorem Visits.open_ {stream : Bytes} {offers : ℕ → ℕ}
    (h : Visits max_ stream offers line reader) : line.Open max_ ∧ reader.broken = none := by
  induction h with
  | start => exact ⟨⟨List.not_mem_nil, Nat.zero_le _, Nat.zero_le _⟩, rfl⟩
  | again before step ih =>
    obtain ⟨out, hround, hout⟩ := Rounded.of_open ih.1 ih.2
    rw [step] at hround
    cases hround
    cases hout with
    | again open_ reads shorter kept => exact ⟨open_, kept⟩
  | call before step ih =>
    obtain ⟨out, hround, hout⟩ := Rounded.of_open ih.1 ih.2
    rw [step] at hround
    cases hround
    cases hout with
    | exit answers capacity kept => exact ⟨⟨List.not_mem_nil, Nat.zero_le _, capacity⟩, kept⟩

/-- However `fill_buf` cuts a stream up, the calls of `talk` end and return its lines, up to the
first that is too long; and no round of theirs subtracts below zero or holds, or allocates, more
than one byte past the limit. -/
theorem requests_read_at_newlines (stream : Bytes) (offers : ℕ → ℕ) :
    talkReads MAX_REQUEST_BYTES (stream.length + 1) (stream.length + 1) {}
        { rest := stream, offers } =
      .ok (requests MAX_REQUEST_BYTES (Jsonl.lines stream)) ∧
    ∀ line reader, Visits MAX_REQUEST_BYTES stream offers line reader →
      line.bytes.length ≤ MAX_REQUEST_BYTES ∧
      ∃ out, round MAX_REQUEST_BYTES line reader = .ok out ∧
        out.buffer.bytes.length ≤ MAX_REQUEST_BYTES + 1 ∧
        out.buffer.capacity ≤ MAX_REQUEST_BYTES + 1 := by
  refine ⟨talkReads_eq (Nat.zero_le _) (Nat.lt_succ_self _) (Nat.lt_succ_self _), ?_⟩
  intro line reader visited
  obtain ⟨hopen, hends⟩ := visited.open_
  obtain ⟨out, hround, hout⟩ := Rounded.of_open hopen hends
  refine ⟨hopen.short, out, hround, ?_⟩
  cases hout with
  | exit answers capacity => exact ⟨answers.length, capacity⟩
  | again open_ reads shorter => exact ⟨Nat.le_succ_of_le open_.short, open_.capacity⟩

end
end SiliconOmni.Daemon
