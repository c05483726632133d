import Std.Data.String.ToInt
import SiliconOmni.Antigravity.Stream
import SiliconOmni.Ascii

/-! How the updates of agy's steps are put together, one native turn at a time. -/
namespace SiliconOmni.Antigravity

/-- The step a line updates, where it is of this type. -/
def stepOf (type : String) (line : Option Value) : Option Value :=
  line.bind fun data =>
    if data.str? "event" = some "step_update" ∧
        (data.at_ "step_update").str? "step_type" = some type then some (data.at_ "step_update")
    else none

def isResult (line : Option Value) : Bool := line.any fun data => data.str? "event" = some "result"

/-- What a speech step has said after a line, given what it had said before. -/
def saidAfter (index : ℤ) (said : List String) (line : Option Value) : List String :=
  match stepOf "agent_response" line with
  | none => said
  | some step =>
      if stepIndex step ≠ index then said
      else if active step then said ++ [textDelta step]
      else []

/-- The text deltas of a step since it last finished. -/
def deltas (index : ℤ) (lines : List (Option Value)) : List String :=
  lines.foldl (saidAfter index) []

/-- A line, and what was emitted when it came. -/
structure Heard where
  line : Option Value
  events : List StepEvent

/-- A tool is announced where it is not yet, and has a result where it is. -/
def announced (called : Bool) (kind : EventType) : Option Bool :=
  if kind = (if called then .toolResult else .toolCall) then some (!called) else none

def StepEvent.ofTool (e : StepEvent) (index : ℤ) : Bool :=
  (e.is .toolCall || e.is .toolResult) && e.id = toString index

/-- The calls and results of a step's tool. -/
def toolMarks (index : ℤ) (events : List StepEvent) : List EventType :=
  (events.filter (·.ofTool index)).map (·.eventType)

theorem toolMarks_append (index : ℤ) (a b : List StepEvent) :
    toolMarks index (a ++ b) = toolMarks index a ++ toolMarks index b := by
  simp [toolMarks]

theorem toolMarks_none {index : ℤ} {events : List StepEvent}
    (h : ∀ e ∈ events, e.eventType ≠ .toolCall ∧ e.eventType ≠ .toolResult) :
    toolMarks index events = [] := by
  rw [toolMarks, List.map_eq_nil_iff, List.filter_eq_nil_iff]
  intro e he
  simp [StepEvent.ofTool, Event.is, (h e he).1, (h e he).2]

theorem toolMarks_one {e : StepEvent} {kind : EventType} {step : Value} (index : ℤ)
    (type : e.eventType = kind) (tool : kind = .toolCall ∨ kind = .toolResult)
    (id : e.id = toString (stepIndex step)) :
    toolMarks index [e] = if stepIndex step = index then [kind] else [] := by
  have hid : e.id = toString index ↔ stepIndex step = index := by
    rw [id]
    exact ⟨fun h => Int.repr_injective h, fun h => congrArg _ h⟩
  have hkind : (e.is .toolCall || e.is .toolResult) = true := by
    simpa [Event.is, type] using tool
  unfold toolMarks StepEvent.ofTool
  rw [List.filter_singleton, hkind, Bool.true_and]
  by_cases hindex : stepIndex step = index
  · rw [decide_eq_true (hid.mpr hindex), if_pos hindex]
    exact congrArg (fun kind => [kind]) type
  · rw [decide_eq_false (mt hid.mp hindex), if_neg hindex]
    rfl

/-- What a native turn's events should be. -/
structure Assembled (turn : List Heard) : Prop where
  /-- A step's tool calls and results alternate, and a call comes first. -/
  tools : ∀ index : ℤ,
    ((toolMarks index (turn.flatMap (·.events))).foldlM announced false).isSome
  /-- A text is what the deltas of its step come to since the step last finished. -/
  texts : ∀ before heard after, turn = before ++ heard :: after →
    ∀ e ∈ heard.events, e.eventType = .text →
      ∃ step, stepOf "agent_response" heard.line = some step ∧
        e.text = trim (String.join (deltas (stepIndex step) (before.map (·.line)) ++
          [textDelta step])) ∧
        (0 ≤ stepIndex step →
          e.native.lookup "step_index" = some (.number (stepIndex step)))
  /-- A result line ends the turn, and its last event is the only END of the turn. -/
  ends : ∀ before heard after, turn = before ++ heard :: after → isResult heard.line →
    after = [] ∧ ∃ others e, heard.events = others ++ [e] ∧ e.eventType = .end_ ∧
      ∀ o ∈ others, o.eventType ≠ .end_
  unended : ∀ heard ∈ turn, isResult heard.line = false →
    ∀ e ∈ heard.events, e.eventType ≠ .end_

section
variable [Host]

/-- What is heard of some lines. -/
def transcript : Stream → List (Option Value) → List Heard
  | _, [] => []
  | s, line :: rest => ⟨line, (s.feed line).1⟩ :: transcript (s.feed line).2 rest

def Stream.after (s : Stream) (lines : List (Option Value)) : Stream :=
  lines.foldl (fun s line => (s.feed line).2) s

/-- The native turns of a stream, each up to its result line; `turn` is the open one so far. -/
def turnsFrom : Stream → List Heard → List (Option Value) → List (List Heard)
  | _, turn, [] => [turn]
  | s, turn, line :: rest =>
      let turn := turn ++ [⟨line, (s.feed line).1⟩]
      if isResult line then turn :: turnsFrom (s.feed line).2 [] rest
      else turnsFrom (s.feed line).2 turn rest

def nativeTurns (s : Stream) (lines : List (Option Value)) : List (List Heard) :=
  turnsFrom s [] lines

variable {s t : Stream} {lines rest : List (Option Value)} {line : Option Value} {turn : List Heard}

theorem transcript_concat (s : Stream) (lines : List (Option Value)) (line : Option Value) :
    transcript s (lines ++ [line]) =
      transcript s lines ++ [⟨line, ((s.after lines).feed line).1⟩] := by
  induction lines generalizing s with
  | nil => rfl
  | cons first rest ih => exact congrArg _ (ih _)

theorem after_concat (s : Stream) (lines : List (Option Value)) (line : Option Value) :
    s.after (lines ++ [line]) = ((s.after lines).feed line).2 :=
  List.foldl_append

theorem transcript_lines (s : Stream) (lines : List (Option Value)) :
    (transcript s lines).map (·.line) = lines := by
  induction lines generalizing s with
  | nil => rfl
  | cons first rest ih => exact congrArg _ (ih _)

/-- Nothing is left of the steps of an earlier turn. -/
def Stream.Fresh (s : Stream) : Prop := s.text = (fun _ => "") ∧ s.called = ∅

theorem fresh_of_result (s : Stream) (h : isResult line) : (s.feed line).2.Fresh := by
  cases line with
  | none => cases h
  | some data =>
    have hevent : data.str? "event" = some "result" := of_decide_eq_true h
    unfold Stream.feed
    dsimp only
    rw [hevent]
    exact ⟨rfl, rfl⟩

/-- A native turn is what a stream with no steps at all makes of its lines, and only its last line
may be a result. -/
theorem nativeTurns_fresh (origin : Stream) (lines : List (Option Value)) (fresh : origin.Fresh)
    (sofar : turn = transcript origin lines) (state : s = origin.after lines)
    (open_ : ∀ line ∈ lines, isResult line = false) {found : List Heard}
    (h : found ∈ turnsFrom s turn rest) :
    ∃ origin lines, origin.Fresh ∧ found = transcript origin lines ∧
      ∀ line ∈ lines.dropLast, isResult line = false := by
  induction rest generalizing s turn origin lines with
  | nil =>
    cases List.mem_singleton.mp h
    exact ⟨origin, lines, fresh, sofar, fun line hline => open_ line (List.mem_of_mem_dropLast hline)⟩
  | cons line rest ih =>
    have hsofar : turn ++ [⟨line, (s.feed line).1⟩] = transcript origin (lines ++ [line]) := by
      rw [transcript_concat, sofar, state]
    unfold turnsFrom at h
    extract_lets turn' at h
    by_cases hresult : isResult line
    · rw [if_pos hresult] at h
      rcases List.mem_cons.mp h with rfl | hlater
      · refine ⟨origin, lines ++ [line], fresh, hsofar, ?_⟩
        rw [List.dropLast_concat]
        exact open_
      · exact ih (s.feed line).2 [] (fresh_of_result s hresult) rfl rfl
          (fun _ hline => absurd hline List.not_mem_nil) hlater
    · rw [if_neg hresult] at h
      refine ih origin (lines ++ [line]) fresh hsofar ?_ ?_ h
      · rw [after_concat, state]
      · intro l hl
        rcases List.mem_append.mp hl with hl | hl
        · exact open_ l hl
        · exact List.mem_singleton.mp hl ▸ Bool.not_eq_true _ ▸ hresult

/-- Another stream in the middle of the same steps. -/
def Stream.Same (s t : Stream) : Prop := t.text = s.text ∧ t.called = s.called

/-- What a line can be, and what feeding it comes to. -/
inductive Feeds (s : Stream) (line : Option Value) : List StepEvent × Stream → Prop where
  | quiet {t : Stream} : stepOf "agent_response" line = none → stepOf "tool" line = none →
      isResult line = false → s.Same t → Feeds s line ([], t)
  | speech {t : Stream} {step : Value} : stepOf "agent_response" line = some step →
      stepOf "tool" line = none → isResult line = false → s.Same t → Feeds s line (t.speech step)
  | tool {t : Stream} {step : Value} : stepOf "agent_response" line = none →
      stepOf "tool" line = some step → isResult line = false → s.Same t →
      Feeds s line (t.tool step)
  | result {t : Stream} {result : Value} : stepOf "agent_response" line = none →
      stepOf "tool" line = none → isResult line → s.Same t → Feeds s line (t.finished result)

theorem feeds (s : Stream) (line : Option Value) : Feeds s line (s.feed line) := by
  cases line with
  | none => exact .quiet rfl rfl rfl ⟨rfl, rfl⟩
  | some data =>
    unfold Stream.feed
    dsimp only
    split
    · next h =>
      have hother : ∀ type, stepOf type (some data) = none := fun type => by simp [stepOf, h]
      exact .quiet (hother _) (hother _) (by simp [isResult, h]) ⟨rfl, rfl⟩
    · next h =>
      have htype : ∀ type, stepOf type (some data) =
          if (data.at_ "step_update").str? "step_type" = some type then some (data.at_ "step_update")
          else none := fun type => by simp [stepOf, h]
      have hresult : isResult (some data) = false := by simp [isResult, h]
      unfold Stream.step
      split
      · next hk => exact .speech (by simp [htype, hk]) (by simp [htype, hk]) hresult ⟨rfl, rfl⟩
      · next hk => exact .tool (by simp [htype, hk]) (by simp [htype, hk]) hresult ⟨rfl, rfl⟩
      · next hspeech htool =>
        exact .quiet ((htype _).trans (if_neg hspeech)) ((htype _).trans (if_neg htool)) hresult
          ⟨rfl, rfl⟩
    · next h =>
      have hother : ∀ type, stepOf type (some data) = none := fun type => by simp [stepOf, h]
      exact .result (hother _) (hother _) (by simp [isResult, h]) ⟨rfl, rfl⟩
    · next hstep hresult =>
      have hother : ∀ type, stepOf type (some data) = none := fun type =>
        if_neg fun hboth => hstep hboth.1
      exact .quiet (hother _) (hother _) (decide_eq_false hresult) ⟨rfl, rfl⟩

/-- What a step has said is the text of its deltas. -/
theorem feed_said {r : List StepEvent × Stream} {index : ℤ} {said : List String}
    (h : s.text index = String.join said) (fed : Feeds s line r) (unended : isResult line = false) :
    r.2.text index = String.join (saidAfter index said line) := by
  cases fed with
  | quiet hspeech _ _ same => rw [saidAfter, hspeech, same.1, h]
  | tool hspeech _ _ same => rw [saidAfter, hspeech, Stream.tool_text, same.1, h]
  | result _ _ hresult =>
    rw [hresult] at unended
    cases unended
  | @speech t step hspeech _ _ same =>
    rw [saidAfter, hspeech, Stream.speech_text, same.1]
    dsimp only
    by_cases hindex : stepIndex step = index
    · rw [if_neg (not_not_intro hindex), hindex, Function.update_self]
      cases active step with
      | false => rfl
      | true =>
        rw [if_pos rfl, if_pos rfl, String.join_append, h]
        simp
    · rw [if_pos hindex, Function.update_of_ne (Ne.symm hindex), h]

omit [Host] in
/-- A tool update announces the tool where it was not, and gives its result once done. -/
theorem tool_marks (t : Stream) (step : Value) (index : ℤ) :
    (toolMarks index (t.tool step).1).foldlM announced (decide (index ∈ t.called)) =
      some (decide (index ∈ (t.tool step).2.called)) := by
  have hcall : toolMarks index [t.call step] =
      if stepIndex step = index then [.toolCall] else [] :=
    toolMarks_one index (Stream.stepEvent_eventType t _ _) (.inl rfl) rfl
  have hresult : toolMarks index [t.result step] =
      if stepIndex step = index then [.toolResult] else [] :=
    toolMarks_one index (Stream.stepEvent_eventType t _ _) (.inr rfl) rfl
  have hboth : toolMarks index [t.call step, t.result step] =
      toolMarks index [t.call step] ++ toolMarks index [t.result step] :=
    toolMarks_append index [_] [_]
  have hnone : toolMarks index [] = [] := rfl
  rw [Stream.tool_called]
  unfold Stream.tool
  dsimp only
  by_cases hindex : stepIndex step = index
  · rw [if_pos hindex] at hcall hresult
    by_cases hcalled : index ∈ t.called <;> cases active step <;>
      simp [hindex, hcalled, hboth, hcall, hresult, hnone, announced]
  · rw [if_neg hindex] at hcall hresult
    by_cases hcalled : stepIndex step ∈ t.called <;> cases active step <;>
      simp [hcalled, hboth, hcall, hresult, hnone, Ne.symm hindex]

variable {r : List StepEvent × Stream}

omit [Host] in
theorem mem_single {p : Prop} [Decidable p] {a e : StepEvent}
    (h : e ∈ if p then [a] else []) : e = a := by
  by_cases hp : p
  · rw [if_pos hp] at h
    exact List.mem_singleton.mp h
  · rw [if_neg hp] at h
    exact absurd h List.not_mem_nil

omit [Host] in
/-- What a step says is what it has said and the last delta, trimmed. -/
theorem speech_events {t : Stream} {step : Value} {e : StepEvent} (h : e ∈ (t.speech step).1) :
    e.eventType = .thinking ∨ e.eventType = .text ∧
      e.text = trim (t.text (stepIndex step) ++ textDelta step) ∧
      (0 ≤ stepIndex step → e.native.lookup "step_index" = some (.number (stepIndex step))) := by
  unfold Stream.speech at h
  dsimp only at h
  by_cases hactive : active step
  · rw [if_pos hactive] at h
    exact absurd h List.not_mem_nil
  · rw [if_neg hactive] at h
    rcases List.mem_append.mp h with hthought | hsaid
    · left
      rw [mem_single hthought, Stream.stepEvent_eventType]
    · right
      rw [mem_single hsaid]
      have htype := Stream.stepEvent_eventType t .text (stepIndex step)
      have hindex := fun h : 0 ≤ stepIndex step => Stream.stepEvent_index t .text h
      exact ⟨htype, rfl, hindex⟩

omit [Host] in
theorem tool_events {t : Stream} {step : Value} {e : StepEvent} (h : e ∈ (t.tool step).1) :
    e.eventType = .toolCall ∨ e.eventType = .toolResult := by
  have hcall : (t.call step).eventType = .toolCall := Stream.stepEvent_eventType t _ _
  have hresult : (t.result step).eventType = .toolResult := Stream.stepEvent_eventType t _ _
  have hcalls : ∀ e ∈ if stepIndex step ∈ t.called then [] else [t.call step],
      e.eventType = .toolCall := by
    intro e he
    rw [← ite_not] at he
    rw [mem_single he, hcall]
  unfold Stream.tool at h
  dsimp only at h
  cases hactive : active step with
  | true =>
    rw [hactive, if_pos rfl] at h
    exact .inl (hcalls e h)
  | false =>
    rw [hactive, if_neg Bool.false_ne_true] at h
    rcases List.mem_append.mp h with h | h
    · exact .inl (hcalls e h)
    · right
      rw [List.mem_singleton.mp h, hresult]

/-- A result line ends with the one END it has. -/
theorem finished_ends (t : Stream) (result : Value) : ∃ others e,
    (t.finished result).1 = others ++ [e] ∧ e.eventType = .end_ ∧
      ∀ o ∈ others, o.eventType = .error := by
  refine ⟨_, _, rfl, rfl, ?_⟩
  intro o ho
  split_ifs at ho
  · exact List.mem_singleton.mp ho ▸ rfl
  · exact absurd ho List.not_mem_nil

/-- The calls and results of a line go on from those before it. -/
theorem feed_marks (index : ℤ) (fed : Feeds s line r) :
    (toolMarks index r.1).foldlM announced (decide (index ∈ s.called)) =
      some (if isResult line then decide (index ∈ s.called) else decide (index ∈ r.2.called)) := by
  cases fed with
  | quiet _ _ hresult same => simp [toolMarks, hresult, same.2]
  | @speech t step _ _ hresult same =>
    have hnone : toolMarks index (t.speech step).1 = [] := by
      apply toolMarks_none
      intro e he
      rcases speech_events he with h | ⟨h, -⟩ <;> simp [h]
    simp [hnone, hresult, Stream.speech_called, same.2]
  | @tool t step _ _ hresult same =>
    rw [hresult, ← same.2]
    exact tool_marks t step index
  | @result t result _ _ hresult =>
    obtain ⟨others, e, hevents, hend, hothers⟩ := finished_ends t result
    have hnone : toolMarks index (t.finished result).1 = [] := by
      apply toolMarks_none
      rw [hevents]
      intro o ho
      rcases List.mem_append.mp ho with ho | ho
      · simp [hothers o ho]
      · simp [List.mem_singleton.mp ho, hend]
    simp [hnone, hresult]

theorem feed_text {e : StepEvent} (fed : Feeds s line r) (he : e ∈ r.1)
    (type : e.eventType = .text) : ∃ step, stepOf "agent_response" line = some step ∧
      e.text = trim (s.text (stepIndex step) ++ textDelta step) ∧
      (0 ≤ stepIndex step → e.native.lookup "step_index" = some (.number (stepIndex step))) := by
  cases fed with
  | quiet => exact absurd he List.not_mem_nil
  | @speech t step hstep _ _ same =>
    rcases speech_events he with h | ⟨-, htext, hindex⟩
    · rw [h] at type
      cases type
    · exact ⟨step, hstep, same.1 ▸ htext, hindex⟩
  | tool =>
    rcases tool_events he with h | h <;> rw [h] at type <;> cases type
  | @result t result =>
    obtain ⟨others, last, hevents, hend, hothers⟩ := finished_ends t result
    rw [hevents] at he
    rcases List.mem_append.mp he with ho | ho
    · rw [hothers e ho] at type
      cases type
    · rw [List.mem_singleton.mp ho, hend] at type
      cases type

theorem feed_unended (fed : Feeds s line r) (h : isResult line = false) :
    ∀ e ∈ r.1, e.eventType ≠ .end_ := by
  intro e he
  cases fed with
  | quiet => exact absurd he List.not_mem_nil
  | speech => rcases speech_events he with h | ⟨h, -⟩ <;> simp [h]
  | tool => rcases tool_events he with h | h <;> simp [h]
  | result _ _ hresult =>
    rw [hresult] at h
    cases h

theorem feed_ends (fed : Feeds s line r) (h : isResult line) :
    ∃ others e, r.1 = others ++ [e] ∧ e.eventType = .end_ ∧ ∀ o ∈ others, o.eventType ≠ .end_ := by
  cases fed with
  | quiet _ _ hresult | speech _ _ hresult | tool _ _ hresult =>
    rw [hresult] at h
    cases h
  | @result t result =>
    obtain ⟨others, e, hevents, hend, hothers⟩ := finished_ends t result
    exact ⟨others, e, hevents, hend, fun o ho => by simp [hothers o ho]⟩

/-- What a stream holds in the middle of a turn: the texts and the open calls of its steps. -/
structure Holding (origin : Stream) (lines : List (Option Value)) : Prop where
  said : ∀ index, (origin.after lines).text index = String.join (deltas index lines)
  called : ∀ index,
    (toolMarks index ((transcript origin lines).flatMap (·.events))).foldlM announced false =
      some (decide (index ∈ (origin.after lines).called))

theorem Holding.start {origin : Stream} (fresh : origin.Fresh) : Holding origin [] where
  said index := congrFun fresh.1 index
  called index := by
    change some false = some (decide (index ∈ origin.called))
    simp [fresh.2]

theorem flatMap_concat (origin : Stream) (lines : List (Option Value)) (line : Option Value) :
    (transcript origin (lines ++ [line])).flatMap (·.events) =
      (transcript origin lines).flatMap (·.events) ++ ((origin.after lines).feed line).1 := by
  rw [transcript_concat, List.flatMap_append, List.flatMap_singleton]

theorem Holding.feed {origin : Stream} (h : Holding origin lines) (unended : isResult line = false) :
    Holding origin (lines ++ [line]) where
  said index := by
    rw [after_concat, feed_said (h.said index) (feeds _ line) unended, deltas, deltas,
      List.foldl_append]
    rfl
  called index := by
    have hmarks := feed_marks index (feeds (origin.after lines) line)
    rw [unended, if_neg Bool.false_ne_true] at hmarks
    rw [flatMap_concat, toolMarks_append, List.foldlM_append, h.called index, after_concat]
    exact hmarks

theorem holding_of_unended {origin : Stream} (fresh : origin.Fresh)
    (unended : ∀ line ∈ lines, isResult line = false) : Holding origin lines := by
  induction lines using List.reverseRecOn with
  | nil => exact .start fresh
  | append_singleton lines line ih =>
    obtain ⟨hbefore, hline⟩ := List.forall_mem_append.mp unended
    exact (ih hbefore).feed (hline line List.mem_cons_self)

/-- A place in a transcript, with the state its line was fed in. -/
theorem transcript_split {origin : Stream} {before after : List Heard} {heard : Heard}
    (h : transcript origin lines = before ++ heard :: after) :
    ∃ earlier later, lines = earlier ++ heard.line :: later ∧
      before = transcript origin earlier ∧ after.length = later.length ∧
      heard.events = ((origin.after earlier).feed heard.line).1 := by
  induction before generalizing origin lines with
  | nil =>
    cases lines with
    | nil => cases h
    | cons line rest =>
      obtain ⟨rfl, rfl⟩ := List.cons.inj h
      refine ⟨[], rest, rfl, rfl, ?_, rfl⟩
      rw [← transcript_lines (origin.feed line).2 rest, List.length_map, transcript_lines]
  | cons first before ih =>
    cases lines with
    | nil => cases h
    | cons line rest =>
      obtain ⟨rfl, hrest⟩ := List.cons.inj h
      obtain ⟨earlier, later, rfl, rfl, hlength, hevents⟩ := ih hrest
      exact ⟨line :: earlier, later, rfl, rfl, hlength, hevents⟩

theorem assembled {origin : Stream} (fresh : origin.Fresh)
    (unended : ∀ line ∈ lines.dropLast, isResult line = false) :
    Assembled (transcript origin lines) where
  tools index := by
    rcases List.eq_nil_or_concat lines with rfl | ⟨before, last, rfl⟩
    · rfl
    · rw [List.concat_eq_append, List.dropLast_concat] at unended
      have hbefore := (holding_of_unended fresh unended).called index
      have hlast := feed_marks index (feeds (origin.after before) last)
      rw [List.concat_eq_append, flatMap_concat, toolMarks_append, List.foldlM_append, hbefore]
      exact Option.isSome_of_eq_some hlast
  texts := by
    intro before heard after hturn e he htype
    obtain ⟨earlier, later, rfl, rfl, -, hevents⟩ := transcript_split hturn
    have hearlier : ∀ line ∈ earlier, isResult line = false := by
      intro line hline
      apply unended
      rw [List.dropLast_append_cons]
      exact List.mem_append_left _ hline
    rw [hevents] at he
    obtain ⟨step, hstep, htext, hindex⟩ := feed_text (feeds _ heard.line) he htype
    refine ⟨step, hstep, ?_, hindex⟩
    rw [htext, (holding_of_unended fresh hearlier).said, transcript_lines, String.join_append]
    simp
  ends := by
    intro before heard after hturn hresult
    obtain ⟨earlier, later, rfl, rfl, hlength, hevents⟩ := transcript_split hturn
    constructor
    · cases later with
      | nil => exact List.eq_nil_of_length_eq_zero hlength
      | cons next rest =>
        have hmem : heard.line ∈ (earlier ++ heard.line :: next :: rest).dropLast := by
          rw [List.dropLast_append_cons]
          exact List.mem_append_right _ List.mem_cons_self
        rw [unended _ hmem] at hresult
        cases hresult
    · rw [hevents]
      exact feed_ends (feeds _ heard.line) hresult
  unended := by
    intro heard hmem hresult
    obtain ⟨before, after, hturn⟩ := List.append_of_mem hmem
    obtain ⟨earlier, later, -, -, -, hevents⟩ := transcript_split hturn
    rw [hevents]
    exact feed_unended (feeds _ heard.line) hresult

theorem turnsFrom_flatten (s : Stream) (turn : List Heard) (lines : List (Option Value)) :
    (turnsFrom s turn lines).flatten = turn ++ transcript s lines := by
  induction lines generalizing s turn with
  | nil => simp [turnsFrom, transcript]
  | cons line rest ih =>
    unfold turnsFrom transcript
    by_cases hresult : isResult line
    · simp [hresult, ih]
    · simp [hresult, ih]

/-- Whatever lines agy writes, each native turn announces its tools once and gives their results,
says what its own deltas come to, and ends once; and it is what a stream with no steps of earlier
turns would have made of its lines. -/
theorem native_turns_assemble (model : String) (lines : List (Option Value)) :
    (nativeTurns (.new model) lines).flatten = transcript (.new model) lines ∧
      ∀ turn ∈ nativeTurns (.new model) lines, Assembled turn ∧
        ∃ origin : Stream, origin.Fresh ∧ turn = transcript origin (turn.map (·.line)) := by
  refine ⟨turnsFrom_flatten _ _ _, fun turn hturn => ?_⟩
  obtain ⟨origin, own, hfresh, rfl, hunended⟩ := nativeTurns_fresh (.new model) []
    ⟨rfl, rfl⟩ rfl rfl (fun _ hline => absurd hline List.not_mem_nil) hturn
  refine ⟨assembled hfresh hunended, origin, hfresh, ?_⟩
  rw [transcript_lines]

end
end SiliconOmni.Antigravity
