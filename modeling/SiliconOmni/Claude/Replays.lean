import SiliconOmni.Claude.Delivery
import SiliconOmni.Claude.Echo
import SiliconOmni.Lib.Transition

/-! Lines written to Claude, and the confirmations that its replays of them give. -/
namespace SiliconOmni.Claude
open Lib (Machine)

section echoes

/-- Claude's echo of a line: as written, without the white space around it, or with a newline. -/
def echoed (echo line : String) : Bool := echo = line || echo = trim line || echo = line ++ "\n"

/-- An echo that tells its line: other than verbatim, only that of a line with some text in it. -/
def recognizable (echo line : String) : Bool := echo = line || (echoed echo line && trim line ≠ "")

theorem sameMessage_of_recognizable {echo line : String} (h : recognizable echo line) :
    sameMessage echo line := by
  by_cases hexact : echo = line
  · rw [sameMessage, if_pos hexact]
  have hdiffers : decide (echo = line) = false := decide_eq_false hexact
  simp only [recognizable, echoed, hdiffers, Bool.false_or, Bool.and_eq_true, Bool.or_eq_true,
    decide_eq_true_eq] at h
  obtain ⟨hecho, htext⟩ := h
  unfold sameMessage
  rw [if_neg hexact]
  rcases hecho with htrim | hnewline
  · have hsame : trimEnd echo = trim line := by
      rw [htrim]
      exact trimEnd_trimEnd (trimStart line)
    simp [hsame, htext]
  · have hsame : trimEnd echo = trimEnd line := hnewline ▸ trimEnd_newline line
    have hne : trimEnd line ≠ "" := fun hempty => htext (trim_empty hempty)
    simp [hsame, hne]

end echoes

namespace Stream

/-- Whether a text matches no line of the queue. -/
def unknown (s : Stream) (text : String) : Bool := !s.expected.any (sameMessage text)

variable {s : Stream} {texts : List String}

theorem delivers_le {k : ℕ} (hne : texts ≠ []) (fits : k + texts.length ≤ s.expected.length)
    (own : matchesAt s.expected texts k) :
    texts.length ≤ s.delivers texts ∧ s.delivers texts ≤ k + texts.length := by
  have hnot : ¬(texts = [] ∨ s.expected.length < texts.length) := by
    rintro (h | h)
    · exact hne h
    · omega
  have hmem : k ∈ List.range (s.expected.length - texts.length + 1) :=
    List.mem_range.mpr (by omega)
  unfold delivers
  rw [if_neg hnot]
  cases hwindow : s.window texts with
  | none => exact absurd own (List.find?_eq_none.mp hwindow k hmem)
  | some first =>
    have hfirst : first ≤ k := by
      by_contra hlate
      obtain ⟨-, i, hi, rfl, hbefore⟩ := List.find?_eq_some_iff_getElem.mp hwindow
      have hbound : k < i := by
        simpa only [List.getElem_range] using Nat.lt_of_not_le hlate
      have hnone := hbefore k hbound
      rw [List.getElem_range, own] at hnone
      exact Bool.noConfusion hnone
    change texts.length ≤ first + texts.length ∧ first + texts.length ≤ k + texts.length
    omega

theorem delivers_unknown {text : String} (h : text ∈ texts) (unknown : s.unknown text) :
    s.delivers texts = 0 := by
  unfold delivers
  by_cases hnone : texts = [] ∨ s.expected.length < texts.length
  · exact if_pos hnone
  rw [if_neg hnone]
  have hwindow : s.window texts = none := by
    apply List.find?_eq_none.mpr
    intro start hstart hmatches
    have hfits := List.mem_range.mp hstart
    obtain ⟨i, hi, rfl⟩ := List.getElem_of_mem h
    have hline : i < (s.expected.drop start).length := by
      rw [List.length_drop]
      omega
    have hmem : (texts[i], (s.expected.drop start)[i]) ∈ texts.zip (s.expected.drop start) :=
      List.mem_iff_getElem.mpr ⟨i, by rw [List.length_zip]; omega, List.getElem_zip⟩
    have hsame := List.all_eq_true.mp hmatches _ hmem
    have hany : s.expected.any (sameMessage texts[i]) :=
      List.any_eq_true.mpr ⟨_, List.mem_of_mem_drop (List.getElem_mem hline), hsame⟩
    simp [Stream.unknown, hany] at unknown
  rw [hwindow]
  rfl

end Stream

section blocks
variable {rec : String → String → Bool} {unknown : String → Bool}

/-- Whether the blocks of a replay are for these lines: each is an echo of its line where it is
marked as one, and elsewhere a rewrite that matches nothing. -/
def blocksFit (rec : String → String → Bool) (unknown : String → Bool) :
    List String → List Bool → List String → Bool
  | [], [], _ => true
  | echo :: texts, clean :: blocks, line :: lines =>
      (if clean then rec echo line else unknown echo) &&
        blocksFit rec unknown texts blocks lines
  | _, _, _ => false

theorem blocksFit_length {texts : List String} {blocks : List Bool} {lines : List String}
    (h : blocksFit rec unknown texts blocks lines) : texts.length ≤ lines.length := by
  induction texts, blocks, lines using blocksFit.induct with
  | case1 => exact Nat.zero_le _
  | case2 echo texts clean blocks line lines ih =>
    have hrest := (Bool.and_eq_true_iff.mp h).2
    simpa using ih hrest
  | case3 => simp [blocksFit] at h

theorem blocksFit_clean {texts : List String} {blocks : List Bool} {lines : List String}
    (h : blocksFit rec unknown texts blocks lines) (clean : blocks.all id) (rest : List String) :
    (texts.zip (lines ++ rest)).all fun (echo, line) => rec echo line := by
  induction texts, blocks, lines using blocksFit.induct with
  | case1 => rfl
  | case2 echo texts clean' blocks line lines ih =>
    obtain ⟨hfirst, hrest⟩ := Bool.and_eq_true_iff.mp h
    obtain ⟨hclean, hblocks⟩ := Bool.and_eq_true_iff.mp clean
    rw [if_pos (show clean' = true from hclean)] at hfirst
    simpa [hfirst] using ih hrest hblocks
  | case3 => simp [blocksFit] at h

theorem blocksFit_rewrite {texts : List String} {blocks : List Bool} {lines : List String}
    (h : blocksFit rec unknown texts blocks lines) (rewrite : blocks.all id = false) :
    ∃ text ∈ texts, unknown text := by
  induction texts, blocks, lines using blocksFit.induct with
  | case1 => cases rewrite
  | case2 echo texts clean blocks line lines ih =>
    obtain ⟨hfirst, hrest⟩ := Bool.and_eq_true_iff.mp h
    cases clean with
    | false => exact ⟨echo, List.mem_cons_self, hfirst⟩
    | true =>
      obtain ⟨text, hmem, htext⟩ := ih hrest rewrite
      exact ⟨text, List.mem_cons_of_mem _ hmem, htext⟩
  | case3 => simp [blocksFit] at h

end blocks

/-- The lines written to one Claude, and what has come back. -/
structure Pipe where
  stream : Stream := {}
  /-- Every line that reached the pipe. -/
  written : List String := []
  /-- How many of them Claude has taken. -/
  taken : ℕ := 0
  /-- How many of them lie before the end of the last replay. -/
  replayed : ℕ := 0
  /-- Whether every line before that was replayed, and every block was recognizable. -/
  clear : Bool := true
  emitted : List Event := []

inductive Traffic where
  /-- `Runner::send`, where the pipe takes the line or fails. -/
  | write (text : String) (ok : Bool)
  | take
  /-- A replay of the next lines but for the first `passed`. -/
  | replay (data : Value) (blocks : List Bool) (passed : ℕ)
  /-- Any other line of output. -/
  | line (line : Option Value)

section
variable [Host]

def Pipe.feed (p : Pipe) (line : Option Value) : Pipe :=
  { p with emitted := p.emitted ++ (p.stream.feed line).1, stream := (p.stream.feed line).2 }

/-- Whether a line confirms nothing: it is no echo, or has a text that matches no line. -/
def Stream.stray (s : Stream) (data : Value) : Bool :=
  !Stream.echoes data ||
    match Stream.replayTexts ((data.at_ "message").at_ "content") with
    | none => true
    | some texts => texts = [] || texts.any s.unknown

/-- Claude takes the written lines in order, and replays runs of the lines it has taken. A replay
may hold echoes as `rec` has them, and a replay with `reads` is read as an echo. -/
def pipe (rec : String → String → Bool) (reads : Value → Bool) : Machine Pipe Traffic where
  init p := p = {}
  step p
    | .write text ok => some { p with
        stream := p.stream.send text ok
        written := if ok then p.written ++ [text] else p.written }
    | .take => if p.taken < p.written.length then some { p with taken := p.taken + 1 } else none
    | .replay data blocks passed =>
        match Stream.replayTexts ((data.at_ "message").at_ "content") with
        | none => none
        | some texts =>
            let lines := (p.written.take p.taken).drop (p.replayed + passed)
            if data.str? "type" = some "user" ∧ data.flag? "isReplay" ∧ texts ≠ [] ∧
                blocksFit rec p.stream.unknown texts blocks lines then
              some { p.feed (some data) with
                replayed := p.replayed + passed + texts.length
                clear := p.clear && passed = 0 && blocks.all id && reads data }
            else none
    | .line line =>
        if line.all p.stream.stray then some (p.feed line) else none

/-- The confirmed lines are the first ones written, as they were written, and none that was not
replayed or passed; where all of those were recognizable, all are confirmed. The first
confirmation of a turn opens it and the later ones join it. -/
def Pipe.Acknowledged (p : Pipe) : Prop :=
  ∃ n ≤ p.replayed, p.replayed ≤ p.taken ∧ p.taken ≤ p.written.length ∧
    confirmations p.emitted = p.written.take n ∧ p.stream.expected = p.written.drop n ∧
    (p.clear → n = p.replayed) ∧ turnAfter false p.emitted = some p.stream.turnOpen

variable {p : Pipe} {line : Option Value} {n count : ℕ}

/-- What is confirmed after a line, where the first `n` lines were confirmed before it. -/
theorem Pipe.feed_advanced (h : Stream.Advanced p.stream count (p.stream.feed line))
    (confirmed : confirmations p.emitted = p.written.take n)
    (expected : p.stream.expected = p.written.drop n)
    (turn : turnAfter false p.emitted = some p.stream.turnOpen) :
    confirmations (p.feed line).emitted = p.written.take (n + count) ∧
      (p.feed line).stream.expected = p.written.drop (n + count) ∧
      turnAfter false (p.feed line).emitted = some (p.feed line).stream.turnOpen := by
  refine ⟨?_, ?_, ?_⟩
  · rw [Pipe.feed, confirmations_append, confirmed, h.confirmed, expected, ← List.take_add]
  · rw [Pipe.feed, h.expected, expected, List.drop_drop]
  · rw [Pipe.feed, turnAfter_append, turn]
    exact h.turn

theorem stray_silent {s : Stream} {data : Value} (h : s.stray data) :
    Stream.Advanced s 0 (s.feed (some data)) := by
  by_cases hecho : Stream.echoes data
  · rw [Stream.feed_echo hecho]
    simp only [Stream.stray, hecho, Bool.not_true, Bool.false_or] at h
    cases htexts : Stream.replayTexts ((data.at_ "message").at_ "content") with
    | none =>
      rw [Stream.replayed_none htexts]
      exact (Stream.Spoke.nothing s).advanced
    | some texts =>
      rw [htexts] at h
      have hadvanced := Stream.replayed_advanced (s := s) htexts
      rcases Bool.or_eq_true_iff.mp h with hnone | hunknown
      · have hdelivers : s.delivers texts = 0 := if_pos (.inl (of_decide_eq_true hnone))
        rwa [hdelivers] at hadvanced
      · obtain ⟨text, hmem, htext⟩ := List.any_eq_true.mp hunknown
        rwa [Stream.delivers_unknown hmem htext] at hadvanced
  · exact Stream.feed_silent fun data' hdata => Option.some.inj hdata ▸ Bool.not_eq_true _ ▸ hecho

/-- How far a replay of the lines after the first `passed` moves the confirmations. -/
theorem replay_count {rec : String → String → Bool} {data : Value} {blocks : List Bool}
    {texts : List String} {passed : ℕ} (sound : ∀ echo line, rec echo line → sameMessage echo line)
    (user : data.str? "type" = some "user")
    (content : Stream.replayTexts ((data.at_ "message").at_ "content") = some texts)
    (nonempty : texts ≠ [])
    (fit : blocksFit rec p.stream.unknown texts blocks
      ((p.written.take p.taken).drop (p.replayed + passed)))
    (expected : p.stream.expected = p.written.drop n) (before : n ≤ p.replayed)
    (taken : p.taken ≤ p.written.length) :
    ∃ count, Stream.Advanced p.stream count (p.stream.feed (some data)) ∧
      n + count ≤ p.replayed + passed + texts.length ∧
      p.replayed + passed + texts.length ≤ p.taken ∧
      (n = p.replayed → passed = 0 → blocks.all id → replayEcho data →
        n + count = p.replayed + texts.length) := by
  have hlength := blocksFit_length fit
  rw [List.length_drop, List.length_take] at hlength
  have hpos : 0 < texts.length := List.length_pos_of_ne_nil nonempty
  have htaken : p.replayed + passed + texts.length ≤ p.taken := by omega
  by_cases hreads : replayEcho data
  · have hecho : Stream.echoes data := by simp [Stream.echoes, user, hreads]
    rw [Stream.feed_echo hecho]
    refine ⟨_, Stream.replayed_advanced content, ?_⟩
    cases hclean : blocks.all id with
    | false =>
      obtain ⟨text, hmem, htext⟩ := blocksFit_rewrite fit hclean
      rw [Stream.delivers_unknown hmem htext]
      exact ⟨by omega, htaken, fun _ _ h => Bool.noConfusion h⟩
    | true =>
      have hfits : p.replayed + passed - n + texts.length ≤ p.stream.expected.length := by
        rw [expected, List.length_drop]
        omega
      have hown : Stream.matchesAt p.stream.expected texts (p.replayed + passed - n) := by
        have hlines : p.stream.expected.drop (p.replayed + passed - n) =
            (p.written.take p.taken).drop (p.replayed + passed) ++ p.written.drop p.taken := by
          rw [expected, List.drop_drop, ← List.drop_append_of_le_length (by
            rw [List.length_take]; omega), List.take_append_drop]
          congr 1
          omega
        rw [Stream.matchesAt, hlines, List.all_eq_true]
        intro pair hpair
        exact sound _ _ (List.all_eq_true.mp (blocksFit_clean fit hclean _) pair hpair)
      obtain ⟨hleast, hmost⟩ := Stream.delivers_le nonempty hfits hown
      refine ⟨by omega, htaken, fun hn hpassed _ _ => by omega⟩
  · have hsilent : Stream.Advanced p.stream 0 (p.stream.feed (some data)) := by
      apply Stream.feed_silent
      intro data' hdata
      cases hdata
      simp [Stream.echoes, hreads]
    exact ⟨0, hsilent, by omega, htaken, fun _ _ _ h => absurd h hreads⟩

omit [Host] in
theorem Pipe.Acknowledged.start : ({} : Pipe).Acknowledged :=
  ⟨0, Nat.zero_le _, Nat.zero_le _, Nat.zero_le _, rfl, rfl, fun _ => rfl, rfl⟩

theorem acknowledged_step {rec : String → String → Bool} {reads : Value → Bool} {q : Pipe}
    {m : Traffic} (sound : ∀ echo line, rec echo line → sameMessage echo line)
    (read : ∀ data, reads data → replayEcho data) (h : p.Acknowledged)
    (step : (pipe rec reads).step p m = some q) : q.Acknowledged := by
  obtain ⟨n, hn, hreplayed, htaken, hconfirmed, hexpected, hclear, hturn⟩ := h
  have hwritten : n ≤ p.written.length := hn.trans (hreplayed.trans htaken)
  cases m with
  | write text ok =>
    cases Option.some.inj step
    refine ⟨n, hn, hreplayed, ?_, ?_, ?_, hclear, ?_⟩
    · cases ok with
      | false => exact htaken
      | true => exact htaken.trans (by simp)
    · cases ok with
      | false => exact hconfirmed
      | true => exact hconfirmed.trans (List.take_append_of_le_length hwritten).symm
    · rw [Stream.send_expected, hexpected]
      cases ok with
      | false => rfl
      | true => exact (List.drop_append_of_le_length hwritten).symm
    · rw [Stream.send_turnOpen]
      exact hturn
  | take =>
    obtain ⟨hmore, hq⟩ := Option.ite_none_right_eq_some.mp step
    cases hq
    exact ⟨n, hn, Nat.le_succ_of_le hreplayed, hmore, hconfirmed, hexpected, hclear, hturn⟩
  | replay data blocks passed =>
    simp only [pipe] at step
    cases htexts : Stream.replayTexts ((data.at_ "message").at_ "content") with
    | none =>
      rw [htexts] at step
      cases step
    | some texts =>
      rw [htexts] at step
      obtain ⟨⟨huser, -, hne, hfit⟩, hq⟩ := Option.ite_none_right_eq_some.mp step
      cases hq
      obtain ⟨count, hadvanced, hmost, hbound, hall⟩ :=
        replay_count sound huser htexts hne hfit hexpected hn htaken
      obtain ⟨hconfirmed', hexpected', hturn'⟩ :=
        Pipe.feed_advanced hadvanced hconfirmed hexpected hturn
      refine ⟨n + count, hmost, hbound, htaken, hconfirmed', hexpected', ?_, hturn'⟩
      intro hcleared
      simp only [Bool.and_eq_true, decide_eq_true_eq] at hcleared
      obtain ⟨⟨⟨hbefore, hpassed⟩, hblocks⟩, hreads⟩ := hcleared
      have hcount := hall (hclear hbefore) hpassed hblocks (read data hreads)
      dsimp only
      omega
  | line line =>
    obtain ⟨hstray, hq⟩ := Option.ite_none_right_eq_some.mp step
    cases hq
    have hsilent : Stream.Advanced p.stream 0 (p.stream.feed line) := by
      cases line with
      | none => exact (Stream.Spoke.nothing p.stream).advanced
      | some data => exact stray_silent hstray
    obtain ⟨hconfirmed', hexpected', hturn'⟩ :=
      Pipe.feed_advanced hsilent hconfirmed hexpected hturn
    exact ⟨n, hn, hreplayed, htaken, hconfirmed', hexpected', hclear, hturn'⟩

/-- Replays confirm the lines Claude has taken, in the order they were written, each once and with
its own text, as long as a blank line is only ever echoed verbatim. -/
theorem replays_confirm_taken_lines (p : Pipe)
    (run : (pipe recognizable replayEcho).Reach (fun _ _ => True) p) : p.Acknowledged := by
  refine run.invariant ?_ ?_
  · rintro _ rfl
    exact .start
  · intro p m q _ h _ step
    exact acknowledged_step (fun _ _ => sameMessage_of_recognizable) (fun _ h => h) h step

end

section samples
attribute [local instance] Host.ascii

theorem replays_confirm_taken_lines_two :
    ∃ p, (pipe recognizable replayEcho).exec {} [.write "hi " true, .write "lost" false,
        .write "on" true, .take, .replay (echoLine "hi") [true] 0, .take,
        .replay (echoLine "on\n") [true] 0] = some p ∧
      p.clear = true ∧ p.Acknowledged := by
  have run : ((pipe recognizable replayEcho).exec {} [.write "hi " true, .write "lost" false,
      .write "on" true, .take, .replay (echoLine "hi") [true] 0, .take,
      .replay (echoLine "on\n") [true] 0]).map (·.clear) = some true := by
    decide +kernel
  obtain ⟨p, hp, hclear⟩ := Option.map_eq_some_iff.mp run
  exact ⟨p, hp, hclear, replays_confirm_taken_lines p
    (.exec (.init rfl) (Machine.along_of_forall (fun _ _ => trivial) _ _) hp)⟩

/-- The trimmed echo of a blank line confirms nothing. -/
theorem blank_echo_unmatched :
    ¬∀ p, (pipe echoed fun _ => true).Reach (fun _ _ => True) p → p.Acknowledged := by
  intro all
  have run : ((pipe echoed fun _ => true).exec {}
      [.write "  " true, .take, .replay (echoLine "") [true] 0]).map (fun p =>
        (p.emitted, p.written, p.replayed, p.clear)) = some ([], ["  "], 1, true) := by
    decide +kernel
  obtain ⟨p, hp, hfields⟩ := Option.map_eq_some_iff.mp run
  have hreach : (pipe echoed fun _ => true).Reach (fun _ _ => True) p :=
    .exec (.init rfl) (Machine.along_of_forall (fun _ _ => trivial) _ _) hp
  obtain ⟨n, -, -, -, hconfirmed, -, hclear, -⟩ := all p hreach
  simp only [Prod.mk.injEq] at hfields
  obtain ⟨hemitted, hwritten, hreplayed, hcleared⟩ := hfields
  rw [hclear hcleared, hemitted, hwritten, hreplayed] at hconfirmed
  cases hconfirmed

end samples
end SiliconOmni.Claude
