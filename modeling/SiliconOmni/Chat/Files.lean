import SiliconOmni.Chat.Numbering
import SiliconOmni.EventJson
import SiliconOmni.Journal

/-! The log of a session down to its bytes, over all its lifetimes, and what opening it reads. -/
namespace SiliconOmni
open Lib Jsonl

namespace Store

/-- Read records onto the known-good prefix, up to the first one that is no event of the session. -/
def readRecords [Host] (serde : Serde) (sessionId : String) : Store → List (Record Value) → Store
  | store, [] => store
  | store, record :: rest =>
      match Event.ofValue record.value with
      | none =>
          let line := record.line
          let error := serde.undecodable record.value
          { store with loadError := some s!"invalid event on line {line}: {error}" }
      | some event => match reject sessionId store.events event record.line with
        | some error => { store with loadError := some error }
        | none => readRecords serde sessionId { store with events := store.events ++ [event] } rest

/-- Read what is already on disk, from its bytes. -/
def openFile [Host] (serde : Serde) (sessionId : String) (file : Option Bytes) : Store :=
  let report := readChecked serde.parse file
  let store := readRecords serde sessionId {} report.records
  { store with
    loadError := store.loadError.or <| report.error.map fun (line, source) =>
      s!"malformed JSON on complete line {line}: {source}" }

end Store

/-- The events whose appends have returned: the snapshot's `seq` is that of the last one. -/
def Conf.acknowledged (s : Conf) : List Event :=
  s.chat.store.events.take (s.chat.state.seq + 1).toNat

/-- The turn after events of which the conductor did not learn that they are in the log. -/
def Chat.turnAfter (c : Chat) (last : List Event) : ℤ :=
  if last.any (·.is .start) then c.turn + 1 else c.turn

/-- What one lifetime of a conductor put into the log. -/
structure Lifetime where
  /-- The appends that returned. -/
  acknowledged : List Event := []
  /-- What an append that never returned wrote whole. -/
  last : List Event := []

/-- A session with the bytes of its log. -/
structure Filed where
  system : System
  file : Option Bytes := none
  appender : Option Appender := none
  past : List Lifetime := []
  now : Lifetime := {}
  /-- Every event of which a byte may be in the file. -/
  printed : List Event := []

namespace Filed

/-- A move of the session, and where an append under way stops: whose record it was writing, and
how many bytes it got down. -/
structure Move where
  move : SiliconOmni.Move
  tear : Option (Event × ℕ) := none

def Move.isReopen (m : Move) : Bool :=
  match m.move with
  | .reopen .. => true
  | _ => false

variable (serde : Serde)

/-- The writer the store has, or the one it opens first. -/
def writer (f : Filed) : Bytes × Appender :=
  match f.appender with
  | some appender => (f.file.getD [], appender)
  | none => Appender.open_ serde.parse f.file

def text (event : Event) : Bytes := serde.print event.toValue

/-- One append, whole or stopped early. -/
def put (stops : Option ℕ) (f : Filed) (event : Event) : Filed :=
  let (file, appender) := f.writer serde
  let (file, appender, _) := appender.append file (text serde event) stops
  { f with file := some file, appender := some appender, printed := f.printed ++ [event] }

/-- How many bytes the next append needs for its record to be whole. -/
def whole (f : Filed) (event : Event) : ℕ := (f.writer serde).2.whole (text serde event)

/-- The append the conductor did not outlive, if there was one. Its record is in the log exactly
when it is whole on the disk. -/
def stop (ends : Bool) (last : List Event) (tear : Option (Event × ℕ)) (f : Filed) :
    Option Filed :=
  match last, tear with
  | [], none => some f
  | [], some (event, written) =>
      if ends ∧ written < f.whole serde event then some (f.put serde (some written) event) else none
  | event :: _, none => some (f.put serde none event)
  | event :: _, some (torn, written) =>
      if torn = event ∧ f.whole serde event ≤ written then some (f.put serde (some written) event)
      else none

variable [Host]

def step (f : Filed) (m : Move) : Option Filed := do
  let t ← f.system.step m.move
  let acknowledged := t.conf.acknowledged.drop f.system.conf.chat.store.events.length
  let last := t.conf.chat.store.events.drop t.conf.acknowledged.length
  let g ← (acknowledged.foldl (put serde none) f).stop serde
    (if m.isReopen then !f.system.ended else t.ended) last m.tear
  let now : Lifetime := ⟨f.now.acknowledged ++ acknowledged, f.now.last ++ last⟩
  if m.isReopen then
    return { g with system := t, appender := none, past := g.past ++ [now], now := {} }
  else return { g with system := t, now }

/-- Every session with no file yet. -/
def machine : Lib.Machine Filed Move where
  init f := ∃ sessionId providers cwd env,
    f = { system := System.fresh sessionId providers cwd env }
  step := step serde

/-- The states of all runs. -/
abbrev Reachable : Filed → Prop := (machine serde).Reach fun _ _ => True

/-- A run of the session from its first opening. -/
def after (sessionId : String) (providers : List String) (env : Env) (moves : List Move) :
    Option Filed :=
  (machine serde).exec { system := System.fresh sessionId providers none env } moves

/-- Everything the lifetimes put into the log. -/
def kept (f : Filed) : List Event :=
  (f.past ++ [f.now]).flatMap fun life => life.acknowledged ++ life.last

end Filed

section logs
variable {sessionId : String} {log es : List Event}

/-- The events of a log stand at the positions they claim. -/
theorem seq_of_follows (h : Follows sessionId log es) (start : Store.expected log = log.length) :
    Store.expected (log ++ es) = ((log ++ es).length : ℤ) ∧
      ∀ (i : ℕ) (hi : i < es.length), es[i].seq = log.length + i := by
  induction es generalizing log with
  | nil => exact ⟨by simpa using start, fun i hi => absurd hi (Nat.not_lt_zero i)⟩
  | cons e es ih =>
    have hseq : e.seq = log.length := h.1.seq.trans start
    have hnext : Store.expected (log ++ [e]) = ((log ++ [e]).length : ℤ) := by
      rw [Books.expected_append_singleton, hseq]
      simp
    obtain ⟨hlast, hrest⟩ := ih h.2 hnext
    refine ⟨by simpa using hlast, fun i hi => ?_⟩
    cases i with
    | zero => simpa using hseq
    | succ i =>
      have hi' : i < es.length := by simpa using hi
      have hat := hrest i hi'
      rw [List.length_append, List.length_singleton] at hat
      rw [List.getElem_cons_succ, hat]
      push_cast
      omega

theorem session_of_follows (h : Follows sessionId log es) : ∀ e ∈ es, e.session = sessionId := by
  induction es generalizing log with
  | nil => exact fun e he => by cases he
  | cons e es ih =>
    intro e' he
    rcases List.mem_cons.mp he with rfl | hrest
    · exact h.1.session
    · exact ih h.2 e' hrest

theorem expected_of_follows (h : Follows sessionId [] log) : Store.expected log = log.length :=
  (seq_of_follows h rfl).1

end logs

/-- What a conductor has acknowledged is all but the one append it did not outlive. -/
theorem Remnant.acknowledged {t : Conf} {acked last : List Event} {sessionId : String}
    (h : Remnant t acked last) (follows : Follows sessionId [] t.chat.store.events) :
    t.acknowledged = acked := by
  rw [h.log] at follows
  have hseq := Store.seq_succ ({ events := acked } : Store)
  have hexpected := expected_of_follows (follows_append.mp follows).1
  have hlen : (t.chat.state.seq + 1).toNat = acked.length := by
    rw [h.seq, hseq]
    show (Store.expected acked).toNat = acked.length
    rw [hexpected, Int.toNat_natCast]
  unfold Conf.acknowledged
  rw [hlen, h.log, List.take_left]

/-- The log's own count of turns is the conductor's, with the append it did not outlive. -/
theorem Remnant.turnAfter {t : Conf} {acked last : List Event} (h : Remnant t acked last) :
    ({ events := acked ++ last } : Store).turn = t.chat.turnAfter last := by
  cases last with
  | nil =>
    obtain ⟨n, -, turn, -⟩ := h.numbered
    rw [List.append_nil]
    exact turn
  | cons e rest =>
    obtain rfl : rest = [] := by simpa using h.once
    have timed := h.timed e List.mem_cons_self
    obtain ⟨n, -, turn, -⟩ := h.numbered.append timed
    rw [turn]
    unfold Timed at timed
    unfold Chat.turnAfter
    by_cases hs : e.eventType = .start
    · rw [if_pos hs] at timed
      simp only [Event.is, hs, timed, decide_true, List.any_cons, Bool.true_or, ↓reduceIte]
      omega
    · rw [if_neg hs] at timed
      simp [Event.is, hs, timed]

section steps
variable [Host]

/-- Every move only adds to the log, and only a conductor that ends leaves an append open. -/
theorem System.step_remnant {s t : System} {m : Move} (h : s.Holds (fun s _ => Counting s) Leftover)
    (step : s.step m = some t) :
    ∃ acked last, Remnant t.conf acked last ∧ s.conf.chat.store.events <+: acked ∧
      (t.ended = false → last = []) ∧
      (Filed.Move.isReopen { move := m } → acked = s.conf.chat.store.events ∧ last = []) := by
  have woken (conf : Conf) (same : conf.chat = s.conf.chat) (live : s.ended = false) :
      ∃ acked last, Remnant conf acked last ∧ s.conf.chat.store.events <+: acked ∧ last = [] :=
    ⟨_, _, ((h.live live).keeping.same (by rw [same])).remnant, same ▸ List.prefix_refl _, rfl⟩
  cases m with
  | receive wake env =>
    dsimp only [System.step] at step
    split at step
    next hw =>
      cases step
      have hwait := hw.1
      simp only [System.waiting, Bool.and_eq_true, Bool.not_eq_eq_eq_not, Bool.not_true] at hwait
      obtain ⟨acked, last, ht, hlog, hlast⟩ := woken { s.conf with env, calls := 0 } rfl hwait.1.2
      exact ⟨acked, last, ht, hlog, fun _ => hlast, by rintro ⟨⟩⟩
    next => cases step
  | deadline env =>
    dsimp only [System.step] at step
    split at step
    next hw =>
      cases step
      obtain ⟨acked, last, ht, hlog, hlast⟩ :=
        woken { s.conf with env, calls := 0 } rfl (by simpa using hw.2.1)
      exact ⟨acked, last, ht, hlog, fun _ => hlast, by rintro ⟨⟩⟩
    next => cases step
  | reopen providers cwd env =>
    dsimp only [System.step] at step
    cases step
    have left : Leftover s.conf := by
      cases hover : s.ended with
      | false => exact .of_counting (h.live hover)
      | true => exact h.dead hover
    obtain ⟨_, _, remnant⟩ := left.remnant
    obtain ⟨turn, numbered⟩ := remnant.numbered_all
    have opened {t : Conf} (counted : Counted s.conf t) :
        ∃ acked last, Remnant t acked last ∧ s.conf.chat.store.events <+: acked ∧ last = [] ∧
          acked = s.conf.chat.store.events :=
      ⟨_, _, (counted.keeping numbered remnant.above).remnant, counted.log ▸ List.prefix_refl _, rfl,
        counted.log⟩
    refine opening_cases left.sound providers cwd env (P := fun t => ∃ acked last,
      Remnant t.conf acked last ∧ s.conf.chat.store.events <+: acked ∧
        (t.ended = false → last = []) ∧ (Filed.Move.isReopen { move := .reopen providers cwd env } →
          acked = s.conf.chat.store.events ∧ last = [])) ?_ ?_
    · intro t ht
      obtain ⟨acked, last, ht, hlog, hlast, hacked⟩ := opened ht.counted
      exact ⟨acked, last, ht, hlog, fun _ => hlast, fun _ => ⟨hacked, hlast⟩⟩
    · intro t ht _
      obtain ⟨acked, last, ht, hlog, hlast, hacked⟩ := opened ht.counted
      exact ⟨acked, last, ht, hlog, fun _ => hlast, fun _ => ⟨hacked, hlast⟩⟩
  | advance =>
    obtain ⟨conf, stack, ended⟩ := s
    dsimp only [System.step] at step
    unfold System.advance at step
    cases ended with
    | true => simp at step
    | false =>
      cases stack with
      | nil => simp at step
      | cons call rest =>
        have keeping := (h.live rfl).keeping
        have hwp := wp_extends (.refl keeping) (run_keeping call)
        unfold wp at hwp
        dsimp only at step
        cases hrun : run call conf with
        | ok calls u =>
          rw [hrun] at hwp step
          cases step
          exact ⟨_, _, hwp.keeping.remnant, hwp.log, fun _ => rfl, by rintro ⟨⟩⟩
        | error e u =>
          rw [hrun] at hwp step
          obtain ⟨acked, last, remnant, log⟩ := hwp
          cases e with
          | failed =>
            cases step
            exact ⟨acked, last, ⟨remnant.log, remnant.numbered, remnant.seq, remnant.once,
              remnant.timed, remnant.above⟩, log, (by rintro ⟨⟩), by rintro ⟨⟩⟩
          | cut =>
            cases step
            exact ⟨acked, last, remnant, log, (by rintro ⟨⟩), by rintro ⟨⟩⟩

end steps

/-- What the file holds: each event as it is printed. -/
def Serde.records (serde : Serde) (es : List Event) : List (Bytes × Value) :=
  es.map fun e => (serde.print e.toValue, e.toValue)

/-- The JSON library gives the event back, and the model spells its names the one way. -/
structure Serde.Writes (serde : Serde) (event : Event) : Prop where
  faithful : serde.Faithful event.toValue
  named : event.Named

namespace Serde
variable {serde : Serde} {es : List Event}

@[simp] theorem records_append (es fs : List Event) :
    serde.records (es ++ fs) = serde.records es ++ serde.records fs := List.map_append

theorem printed (h : ∀ e ∈ es, serde.Writes e) :
    ∀ record ∈ serde.records es, Prints serde.parse record.1 record.2 := by
  intro record hmem
  obtain ⟨e, he, rfl⟩ := List.mem_map.mp hmem
  exact (h e he).faithful

end Serde

namespace Store
variable [Host] {serde : Serde} {sessionId : String} {es : List Event}

theorem readRecords_numbered (read : ∀ e ∈ es, Event.ofValue e.toValue = some e) (store : Store)
    (line : ℕ) :
    readRecords serde sessionId store (numbered line (serde.records es)) =
      load sessionId store es line := by
  induction es generalizing store line with
  | nil => rfl
  | cons e es ih =>
    have hrest := ih fun e' he' => read e' (List.mem_cons_of_mem _ he')
    show readRecords serde sessionId store
      ({ line, value := e.toValue } :: numbered (line + 1) (serde.records es)) = _
    unfold readRecords load
    rw [read e List.mem_cons_self]
    dsimp only
    cases reject sessionId store.events e line with
    | some error => rfl
    | none => exact hrest _ _

/-- A file that holds the events of a log is read back as that log. -/
theorem openFile_of_holds {file : Option Bytes}
    (holds : Jsonl.Holds serde.parse (serde.records es) (file.getD []))
    (writes : ∀ e ∈ es, serde.Writes e) (follows : Follows sessionId [] es)
    (above : ∀ e ∈ es, -1 ≤ e.turn) : openFile serde sessionId file = { events := es } := by
  have read : ∀ e ∈ es, Event.ofValue e.toValue = some e := by
    intro e he
    obtain ⟨i, hi, rfl⟩ := List.mem_iff_getElem.mp he
    have hseq := (seq_of_follows follows rfl).2 i hi
    refine Event.ofValue_toValue (writes _ he).named ?_ (above _ he)
    rw [hseq, List.length_nil]
    omega
  have report : (readChecked serde.parse file).records = numbered 1 (serde.records es) ∧
      (readChecked serde.parse file).error = none := by
    cases file with
    | none =>
      have hread := holds.read (Serde.printed writes)
      exact ⟨congrArg ReadReport.records hread, rfl⟩
    | some file =>
      rw [Option.getD_some] at holds
      rw [holds.read (Serde.printed writes)]
      exact ⟨rfl, rfl⟩
  unfold openFile
  dsimp only
  rw [report.1, report.2, readRecords_numbered read]
  have hopen := open_of_follows follows
  unfold open_ at hopen
  rw [hopen]
  rfl

end Store

namespace Filed
variable {serde : Serde} {f g : Filed} {es : List Event}

@[simp] theorem put_printed (stops : Option ℕ) (f : Filed) (event : Event) :
    (f.put serde stops event).printed = f.printed ++ [event] := rfl

/-- The file holds these events, and the store may append to it. -/
structure Inked (serde : Serde) (es : List Event) (f : Filed) : Prop where
  holds : Jsonl.Holds serde.parse (serde.records es) (f.file.getD [])
  ready : ∀ a, f.appender = some a → Ready (serde.records es) (f.file.getD []) a

theorem Inked.writer (h : Inked serde es f) (writes : ∀ e ∈ es, serde.Writes e) :
    Ready (serde.records es) (f.writer serde).1 (f.writer serde).2 := by
  unfold Filed.writer
  cases happ : f.appender with
  | some a => exact h.ready a happ
  | none => exact h.holds.open_ (Serde.printed writes)

theorem Inked.put (h : Inked serde es f) (writes : ∀ e ∈ es, serde.Writes e) (event : Event) :
    Inked serde (es ++ [event]) (f.put serde none event) := by
  obtain ⟨happend, hready⟩ := (h.writer writes).append (text serde event) event.toValue
  have hrecords : serde.records (es ++ [event]) =
      serde.records es ++ [(text serde event, event.toValue)] := Serde.records_append es [event]
  have file : (f.put serde none event).file.getD [] =
      (f.writer serde).1 ++ (f.writer serde).2.body (text serde event) := congrArg Prod.fst happend
  have appender : (f.put serde none event).appender = some { prefixNewline := false } :=
    congrArg (fun appended : Bytes × Appender × Bool => some appended.2.1) happend
  refine ⟨?_, fun a ha => ?_⟩
  · rw [file, hrecords]
    exact hready.holds
  · rw [appender] at ha
    cases ha
    rw [file, hrecords]
    exact hready

/-- Appends that return leave the file with all of their events. -/
theorem Inked.puts (h : Inked serde es f) (events : List Event)
    (writes : ∀ e ∈ es ++ events, serde.Writes e) :
    Inked serde (es ++ events) (events.foldl (Filed.put serde none) f) := by
  induction events generalizing es f with
  | nil => simpa using h
  | cons event events ih =>
    have hnext := ih (h.put (fun e he => writes e (List.mem_append_left _ he)) event)
      (by simpa using writes)
    simpa using hnext

/-- An append that stops leaves the file with its event exactly when that is whole. -/
theorem Inked.tear (h : Inked serde es f) (writes : ∀ e ∈ es, serde.Writes e) {event : Event}
    (faithful : serde.Faithful event.toValue) (written : ℕ) :
    Jsonl.Holds serde.parse
      (serde.records (if f.whole serde event ≤ written then es ++ [event] else es))
      ((f.put serde (some written) event).file.getD []) := by
  have htear := (h.writer writes).tear faithful written
  unfold Filed.put Filed.whole
  rw [apply_ite serde.records]
  rw [Serde.records_append]
  exact htear

/-- All of a session but its bytes. -/
def outline (f : Filed) : System × List Lifetime × Lifetime := (f.system, f.past, f.now)

@[simp] theorem put_outline (stops : Option ℕ) (f : Filed) (event : Event) :
    (f.put serde stops event).outline = f.outline := rfl

theorem puts_outline (events : List Event) :
    (events.foldl (put serde none) f).outline = f.outline ∧
      (events.foldl (put serde none) f).printed = f.printed ++ events := by
  induction events generalizing f with
  | nil => simp
  | cons event events ih =>
    obtain ⟨same, printed⟩ := ih (f := f.put serde none event)
    refine ⟨same, ?_⟩
    rw [List.foldl_cons, printed]
    simp [put]

/-- However the last append went, the file holds the events whose records are whole. -/
theorem Inked.stop {ends : Bool} {last : List Event} {tear : Option (Event × ℕ)}
    (h : Inked serde es f) (hstop : f.stop serde ends last tear = some g)
    (once : last.length ≤ 1) (writes : ∀ e ∈ es, serde.Writes e)
    (printed : ∀ e ∈ g.printed, serde.Writes e) :
    Jsonl.Holds serde.parse (serde.records (es ++ last)) (g.file.getD []) ∧
      (ends = false → last = [] → Inked serde es g) := by
  unfold Filed.stop at hstop
  split at hstop
  · cases hstop
    rw [List.append_nil]
    exact ⟨h.holds, fun _ _ => h⟩
  next event written =>
    split at hstop
    next hpartial =>
      cases hstop
      have htear := h.tear writes (printed event (by simp)).faithful written
      rw [if_neg (by omega)] at htear
      rw [List.append_nil]
      exact ⟨htear, fun hends => absurd hpartial.1 (by simp [hends])⟩
    next => cases hstop
  next event rest =>
    obtain rfl : rest = [] := by simpa using once
    cases hstop
    exact ⟨(h.put writes event).holds, by rintro _ ⟨⟩⟩
  next event rest torn written =>
    obtain rfl : rest = [] := by simpa using once
    split at hstop
    next hwhole =>
      cases hstop
      have htear := h.tear writes (printed event (by simp)).faithful written
      rw [if_pos hwhole.2] at htear
      exact ⟨htear, by rintro _ ⟨⟩⟩
    next => cases hstop

theorem stop_outline {ends : Bool} {last : List Event} {tear : Option (Event × ℕ)}
    (once : last.length ≤ 1) (h : f.stop serde ends last tear = some g) :
    g.outline = f.outline ∧ f.printed <+: g.printed ∧ ∀ e ∈ last, e ∈ g.printed := by
  have put_ (stops : Option ℕ) (event : Event) :
      (f.put serde stops event).outline = f.outline ∧
        f.printed <+: (f.put serde stops event).printed ∧
        event ∈ (f.put serde stops event).printed := by
    rw [put_outline, put_printed]
    exact ⟨rfl, List.prefix_append _ _, List.mem_append_right _ List.mem_cons_self⟩
  unfold stop at h
  split at h
  · cases h
    exact ⟨rfl, List.prefix_refl _, fun _ he => absurd he List.not_mem_nil⟩
  next event written =>
    split at h
    · cases h
      obtain ⟨outline, printed, -⟩ := put_ (some written) event
      exact ⟨outline, printed, fun _ he => absurd he List.not_mem_nil⟩
    · cases h
  next event rest =>
    obtain rfl : rest = [] := by simpa using once
    cases h
    simp
  next event rest torn written =>
    obtain rfl : rest = [] := by simpa using once
    split at h
    · cases h
      simp
    · cases h

/-- A run and its file agree, as long as the JSON library does what it is trusted with. -/
structure Kept (serde : Serde) [Host] (f : Filed) : Prop where
  system : f.system.Holds (fun s _ => Counting s) Leftover
  log : f.kept = f.system.conf.chat.store.events
  now : f.system.ended = false → f.now.last = []
  last : f.now.last = f.system.conf.chat.store.events.drop f.system.conf.acknowledged.length
  once : ∀ life ∈ f.past ++ [f.now], life.last.length ≤ 1
  printed : ∀ e ∈ f.system.conf.chat.store.events, e ∈ f.printed
  holds : (∀ e ∈ f.printed, serde.Writes e) →
    Jsonl.Holds serde.parse (serde.records f.system.conf.chat.store.events) (f.file.getD [])
  inked : (∀ e ∈ f.printed, serde.Writes e) → f.system.ended = false →
    Inked serde f.system.conf.chat.store.events f

variable [Host]

theorem Kept.of_empty {s : System} (holds : s.Holds (fun s _ => Counting s) Leftover)
    (log : s.conf.chat.store.events = []) : Kept serde { system := s } := by
  have empty : Inked serde [] { system := s } := ⟨.whole, by rintro _ ⟨⟩⟩
  refine ⟨holds, log.symm, fun _ => rfl, by simp [log], ?_, ?_, ?_, ?_⟩
  · intro life hlife
    obtain rfl : life = {} := by simpa using hlife
    exact Nat.zero_le _
  · rw [log]
    exact fun _ he => absurd he List.not_mem_nil
  · rw [log]
    exact fun _ => empty.holds
  · rw [log]
    exact fun _ _ => empty

theorem kept_fresh (sessionId : String) (providers : List String) (cwd : Option String)
    (env : Env) : Kept serde { system := System.fresh sessionId providers cwd env } := by
  have reach : System.Reachable (System.fresh sessionId providers cwd env) :=
    .init ⟨sessionId, providers, cwd, env, rfl⟩
  refine Kept.of_empty ((counting_invariant _).holds reach) ?_
  rw [System.fresh_eq]
  exact opening_cases (blank_sound sessionId env) providers cwd env
    (P := fun s => s.conf.chat.store.events = []) (fun t ht => ht.counted.log)
    fun t ht _ => ht.counted.log

omit [Host] in
/-- What a move adds to the log, its lifetime adds to what is kept. -/
theorem kept_now (f : Filed) {fresh last : List Event}
    (idle : f.now.last = [] ∨ fresh = [] ∧ last = []) :
    (f.past ++ [(⟨f.now.acknowledged ++ fresh, f.now.last ++ last⟩ : Lifetime)]).flatMap
      (fun life => life.acknowledged ++ life.last) = f.kept ++ fresh ++ last := by
  unfold kept
  rcases idle with hlast | ⟨rfl, rfl⟩
  · simp [hlast]
  · simp

theorem step_live {s t : System} {m : SiliconOmni.Move} (step : s.step m = some t)
    (other : (⟨m, none⟩ : Move).isReopen = false) : s.ended = false := by
  cases m with
  | receive wake env =>
    dsimp only [System.step] at step
    split at step
    next hw =>
      have hwait := hw.1
      simp only [System.waiting, Bool.and_eq_true, Bool.not_eq_eq_eq_not, Bool.not_true] at hwait
      exact hwait.1.2
    next => cases step
  | deadline env =>
    dsimp only [System.step] at step
    split at step
    next hw => simpa using hw.2.1
    next => cases step
  | reopen providers cwd env => cases other
  | advance =>
    obtain ⟨conf, stack, ended⟩ := s
    cases ended with
    | true => simp [System.step, System.advance] at step
    | false => rfl

/-- Every move keeps the run and its file in agreement. -/
theorem Kept.step {m : Filed.Move} (h : Kept serde f) (reach : System.Reachable f.system)
    (step : f.step serde m = some g) : Kept serde g := by
  obtain ⟨t, ht, step⟩ := Option.bind_eq_some_iff.mp step
  obtain ⟨u, hu, step⟩ := Option.bind_eq_some_iff.mp step
  have holds : t.Holds (fun s _ => Counting s) Leftover :=
    (counting_invariant _).holds (reach.step trivial ht)
  obtain ⟨acked, last, remnant, grew, ends, reopened⟩ := System.step_remnant h.system ht
  have sound : t.conf.books.Sound := by
    cases hover : t.ended with
    | false => exact (holds.live hover).accounted.sound
    | true => exact (holds.dead hover).sound
  have unsure : t.conf.chat.store.events.drop t.conf.acknowledged.length = last := by
    rw [remnant.acknowledged sound.readable, remnant.log, List.drop_left]
  rw [remnant.acknowledged sound.readable] at hu step
  obtain ⟨fresh, rfl⟩ := grew
  rw [List.drop_left] at hu step
  rw [remnant.log, List.drop_left] at hu step
  obtain ⟨outline, printed, lasting⟩ := stop_outline remnant.once hu
  have steps : (fresh.foldl (put serde none) f).outline = f.outline ∧
      (fresh.foldl (put serde none) f).printed = f.printed ++ fresh := puts_outline fresh
  obtain ⟨puts, putsPrinted⟩ := steps
  rw [puts] at outline
  rw [putsPrinted] at printed
  have system : u.system = f.system := congrArg Prod.fst outline
  have past : u.past = f.past := congrArg (·.2.1) outline
  have now : u.now = f.now := congrArg (·.2.2) outline
  have inFile : ∀ e ∈ t.conf.chat.store.events, e ∈ u.printed := by
    rw [remnant.log]
    intro e he
    rcases List.mem_append.mp he with hacked | hlast
    · refine printed.subset ?_
      rcases List.mem_append.mp hacked with hold | hnew
      · exact List.mem_append_left _ (h.printed e hold)
      · exact List.mem_append_right _ hnew
    · exact lasting e hlast
  have still : (m.isReopen = true → fresh = [] ∧ last = []) := by
    intro hm
    obtain ⟨hacked, hlast⟩ := reopened hm
    exact ⟨by simpa using hacked, hlast⟩
  have idle : f.now.last = [] ∨ fresh = [] ∧ last = [] := by
    cases hm : m.isReopen with
    | true => exact .inr (still hm)
    | false => exact .inl (h.now (step_live ht hm))
  -- a session that has ended is only opened again, and then nothing is written first
  have file (writes : ∀ e ∈ u.printed, serde.Writes e) :
      Jsonl.Holds serde.parse (serde.records t.conf.chat.store.events) (u.file.getD []) ∧
        (m.isReopen = false → t.ended = false →
          Inked serde t.conf.chat.store.events u) := by
    have old : ∀ e ∈ f.printed, serde.Writes e := fun e he =>
      writes e (printed.subset (List.mem_append_left _ he))
    rw [remnant.log] at inFile ⊢
    cases hover : f.system.ended with
    | false =>
      have hputs := (h.inked old hover).puts fresh fun e he =>
        writes e (inFile e (List.mem_append_left _ he))
      obtain ⟨hholds, hinked⟩ := hputs.stop hu remnant.once
        (fun e he => writes e (inFile e (List.mem_append_left _ he))) writes
      refine ⟨hholds, fun hm hends => ?_⟩
      rw [ends hends, List.append_nil]
      exact hinked (by rw [hm, if_neg Bool.false_ne_true, hends]) (ends hends)
    | true =>
      have hm : m.isReopen = true := by
        by_contra hother
        have hlive := step_live ht (Bool.eq_false_of_not_eq_true hother)
        rw [hover] at hlive
        cases hlive
      obtain ⟨rfl, rfl⟩ := still hm
      have same : u = f := by
        rw [hm, hover] at hu
        unfold stop at hu
        split at hu
        · exact (Option.some.inj hu).symm
        · simp at hu
        · rename_i heq _
          cases heq
        · rename_i heq _
          cases heq
      subst same
      simp only [List.append_nil]
      exact ⟨h.holds old, fun hother => absurd hm (by simp [hother])⟩
  have lifetimes : f.kept ++ fresh ++ last = t.conf.chat.store.events := by
    rw [remnant.log, h.log]
  have once : ∀ life ∈ f.past ++ [⟨f.now.acknowledged ++ fresh, f.now.last ++ last⟩],
      life.last.length ≤ 1 := by
    intro life hlife
    rcases List.mem_append.mp hlife with hpast | hnow
    · exact h.once life (List.mem_append_left _ hpast)
    · rw [List.mem_singleton.mp hnow]
      rcases idle with hnil | ⟨-, rfl⟩
      · rw [hnil]
        exact remnant.once
      · rw [List.append_nil]
        exact h.once f.now (by simp)
  cases hm : m.isReopen with
  | true =>
    rw [hm, if_pos rfl] at step
    cases step
    refine ⟨holds, ?_, fun _ => rfl, unsure.trans (still hm).2 |>.symm, ?_, inFile,
      fun writes => (file writes).1, fun writes _ => ⟨(file writes).1, by rintro _ ⟨⟩⟩⟩
    · rw [← lifetimes, ← kept_now f idle, ← past]
      simp [kept]
    · rw [← past] at once
      intro life hlife
      rcases List.mem_append.mp hlife with hpast | hnow
      · exact once life hpast
      · rw [List.mem_singleton.mp hnow]
        exact Nat.zero_le _
  | false =>
    rw [hm, if_neg Bool.false_ne_true] at step
    cases step
    have quiet := h.now (step_live ht hm)
    refine ⟨holds, ?_, ?_, ?_, ?_, inFile, fun writes => (file writes).1, fun writes hends => ?_⟩
    · rw [← lifetimes, ← kept_now f idle, ← past]
      rfl
    · intro hends
      show f.now.last ++ last = []
      rw [ends hends, quiet]
      rfl
    · show f.now.last ++ last = _
      rw [unsure, quiet, List.nil_append]
    · rw [← past] at once
      exact once
    · obtain ⟨hholds, hready⟩ := (file writes).2 hm hends
      exact ⟨hholds, hready⟩

theorem reachable_after {sessionId : String} {providers : List String} {env : Env}
    {moves : List Move} (h : after serde sessionId providers env moves = some f) :
    Reachable serde f := by
  have start : Reachable serde { system := System.fresh sessionId providers none env } :=
    .init ⟨sessionId, providers, none, env, rfl⟩
  exact start.exec (Lib.Machine.along_of_forall (fun _ _ => trivial) _ _) h

theorem Reachable.system (h : Reachable serde f) : System.Reachable f.system := by
  induction h with
  | @init f hf =>
    obtain ⟨sessionId, providers, cwd, env, heq⟩ := hf
    have hsystem : f.system = System.fresh sessionId providers cwd env := by rw [heq]
    exact .init ⟨sessionId, providers, cwd, env, hsystem⟩
  | step _ _ step ih =>
    obtain ⟨t, ht, hrest⟩ := Option.bind_eq_some_iff.mp step
    obtain ⟨u, -, hrest⟩ := Option.bind_eq_some_iff.mp hrest
    refine ih.step trivial (ht.trans (congrArg some ?_))
    split at hrest <;> cases hrest <;> rfl

theorem Reachable.kept (h : Reachable serde f) : Kept serde f := by
  induction h with
  | init hf =>
    obtain ⟨sessionId, providers, cwd, env, heq⟩ := hf
    rw [heq]
    exact kept_fresh sessionId providers cwd env
  | step reach _ step ih => exact ih.step (Reachable.system reach) step

/-- However a run went and wherever its appends were torn, opening the file reads back exactly the
events its conductors appended, placed, numbered and counted as they had them. -/
theorem log_opens_again (reach : Reachable serde f) (writes : ∀ e ∈ f.printed, serde.Writes e) :
    let chat := f.system.conf.chat
    let store := Store.openFile serde chat.sessionId f.file
    store = { events := f.kept } ∧
      (∀ life ∈ f.past ++ [f.now], life.last.length ≤ 1) ∧
      (f.system.ended = false → f.now.last = []) ∧
      (∀ (i : ℕ) (hi : i < f.kept.length),
        f.kept[i].seq = i ∧ f.kept[i].session = chat.sessionId) ∧
      store.turn = chat.turnAfter f.now.last ∧
      ∃ n : ℕ, startTurns f.kept = (List.range n).map (fun i : ℕ => (i : ℤ)) := by
  intro chat store
  have kept := reach.kept
  have left : Leftover f.system.conf := by
    cases hover : f.system.ended with
    | false => exact .of_counting (kept.system.live hover)
    | true => exact kept.system.dead hover
  obtain ⟨acked, last, remnant⟩ := left.remnant
  have follows : Follows chat.sessionId [] chat.store.events := left.sound.readable
  have opens : store = { events := f.kept } := by
    rw [kept.log]
    exact Store.openFile_of_holds (kept.holds writes) (fun e he => writes e (kept.printed e he))
      follows remnant.above
  have hlast : f.now.last = last := by
    rw [kept.last, remnant.acknowledged follows, remnant.log, List.drop_left]
  obtain ⟨turn, numbered⟩ := remnant.numbered_all
  refine ⟨opens, kept.once, kept.now, ?_, ?_, ?_⟩
  · intro i hi
    have hi' : i < f.system.conf.chat.store.events.length := kept.log ▸ hi
    have hget : f.kept[i] = f.system.conf.chat.store.events[i] := List.getElem_of_eq kept.log hi
    have hseq : f.system.conf.chat.store.events[i].seq = _ := (seq_of_follows follows rfl).2 i hi'
    rw [hget, hseq]
    refine ⟨by simp, ?_⟩
    exact session_of_follows follows _ (List.getElem_mem hi')
  · rw [opens, kept.log, remnant.log, hlast]
    exact remnant.turnAfter
  · rw [kept.log]
    obtain ⟨n, starts, -⟩ := numbered
    exact ⟨n, starts⟩

end Filed
section samples
attribute [local instance] Host.ascii

namespace Filed

/-- The events of the run below. -/
def printedSample : List Event :=
  let event (eventType : EventType) (seq : ℤ) : Event :=
    { eventType, session := "chat", provider := "claude-code", model := "opus", seq }
  let launch := { event .config 0 with
    text := "launch"
    extra := [("effort", .string ""), ("fast", .bool false), ("native", .string "claude-code")] }
  [launch, { event .newSession 1 with extra := [("native", .string "claude-code")] },
    { event .start 2 with text := "go", turn := 0, extra := [("message_id", .string "1")] },
    { event .end_ 3 with turn := 0 }, { launch with seq := 4, turn := 0 },
    { event .start 5 with text := "on", turn := 1, extra := [("message_id", .string "11")] }]

/-- An END is written whole but for its newline and never acknowledged; the process is started again
and dies 30 bytes into the next START. -/
def tornSample : List Move :=
  let failing := { Env.ascii with append := fun _ => .unconfirmed "disk failure" }
  [⟨.receive (.sendDurable "go") Env.ascii, none⟩] ++ List.replicate 9 ⟨.advance, none⟩ ++
    [⟨.receive (.heard 1 { type := .end_ }) failing, none⟩,
      ⟨.advance, printedSample[3]?.map fun event => (event, 94)⟩,
      ⟨.reopen [] none Env.ascii, none⟩,
      ⟨.receive (.sendDurable "on") Env.ascii, none⟩] ++ List.replicate 6 ⟨.advance, none⟩ ++
    [⟨.reopen [] none Env.ascii, printedSample[5]?.map fun event => (event, 30)⟩]

theorem log_opens_again_torn :
    ∃ f : Filed, f.past.map (fun life => (life.acknowledged.length, life.last.length)) =
        [(3, 1), (1, 0)] ∧
      let chat := f.system.conf.chat
      let store := Store.openFile (Serde.ascii (printedSample.map Event.toValue)) chat.sessionId f.file
      store = { events := f.kept } ∧
        (∀ life ∈ f.past ++ [f.now], life.last.length ≤ 1) ∧
        (f.system.ended = false → f.now.last = []) ∧
        (∀ (i : ℕ) (hi : i < f.kept.length),
          f.kept[i].seq = i ∧ f.kept[i].session = chat.sessionId) ∧
        store.turn = chat.turnAfter f.now.last ∧
        ∃ n : ℕ, startTurns f.kept = (List.range n).map (fun i : ℕ => (i : ℤ)) := by
  have run : (after (Serde.ascii (printedSample.map Event.toValue)) "chat" ["claude-code"]
      Env.ascii tornSample).map
        (fun f => (f.past.map (fun life => (life.acknowledged.length, life.last.length)),
          f.printed)) = some ([(3, 1), (1, 0)], printedSample) := by
    decide +kernel
  obtain ⟨f, hf, heq⟩ := Option.map_eq_some_iff.mp run
  obtain ⟨past, printed⟩ := Prod.mk.inj heq
  refine ⟨f, past, log_opens_again (reachable_after hf) ?_⟩
  rw [printed]
  intro event mem
  have some_ : ∀ event ∈ printedSample, Ascii.print event.toValue ≠ [] := by decide +kernel
  refine ⟨Serde.ascii_faithful (List.mem_map_of_mem mem) (by decide +kernel) (by decide +kernel)
    (some_ event mem), ?_⟩
  have named : ∀ event ∈ printedSample, EventType.ofName event.eventType.name = event.eventType ∧
      ErrorKind.ofName event.kind.name = event.kind := by decide +kernel
  exact ⟨(named event mem).1, (named event mem).2⟩

end Filed
end samples
end SiliconOmni
