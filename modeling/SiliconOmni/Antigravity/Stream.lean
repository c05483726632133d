import Mathlib.Data.Finset.Basic
import Mathlib.Logic.Function.Basic
import SiliconOmni.Event
import SiliconOmni.Text

/-! agy's output lines, turned into omni events. A line is given as the JSON value it holds. -/
namespace SiliconOmni.Antigravity

def NAME : String := "antigravity-cli"

/-- An event with what it carries of the step it is for. -/
structure StepEvent extends Event where
  id : String := ""
  native : Fields := []

structure Stream where
  model : String := ""
  conversation : String := ""
  /-- What each step has said so far. -/
  text : ℤ → String := fun _ => ""
  /-- The steps whose tool was announced and has not finished. -/
  called : Finset ℤ := ∅

def stepIndex (step : Value) : ℤ := (step.at_ "step_index").asI64.getD (-1)

def textDelta (step : Value) : String := (step.str? "text_delta").getD ""

def active (step : Value) : Bool := step.str? "state" = some "ACTIVE"

namespace Stream

def new (model : String) : Stream := { model }

def event (s : Stream) (kind : EventType) : StepEvent :=
  { ((Event.new kind).from_ NAME).about s.model with
    native := if s.conversation = "" then []
      else [("conversation_id", .string s.conversation)] }

def rememberConversation (s : Stream) (value : Value) : Stream :=
  { s with conversation := (value.str? "conversation_id").getD s.conversation }

def stepEvent (s : Stream) (kind : EventType) (index : ℤ) : StepEvent :=
  let event := s.event kind
  if 0 ≤ index then
    { event with native := Entries.insert event.native "step_index" (.number index) }
  else event

@[simp] theorem stepEvent_eventType (s : Stream) (kind : EventType) (index : ℤ) :
    (s.stepEvent kind index).eventType = kind := by
  unfold stepEvent
  split_ifs <;> rfl

theorem stepEvent_index (s : Stream) (kind : EventType) {index : ℤ} (h : 0 ≤ index) :
    (s.stepEvent kind index).native.lookup "step_index" = some (.number index) := by
  rw [stepEvent, if_pos h]
  exact Entries.lookup_insert_self _ _ _

/-- Text comes as deltas of a step, and is said once the step is no longer active. -/
def speech (s : Stream) (step : Value) : List StepEvent × Stream :=
  let index := stepIndex step
  let said := s.text index ++ textDelta step
  if active step then ([], { s with text := Function.update s.text index said })
  else
    let thought := 0 < ((step.at_ "usage").at_ "thinking_tokens").asI64.getD 0
    let text := trim said
    ((if thought then [s.stepEvent .thinking index] else []) ++
        (if text ≠ "" then [{ s.stepEvent .text index with text }] else []),
      { s with text := Function.update s.text index "" })

theorem speech_text (s : Stream) (step : Value) : (s.speech step).2.text =
    Function.update s.text (stepIndex step)
      (if active step then s.text (stepIndex step) ++ textDelta step else "") := by
  unfold speech
  cases active step <;> rfl

theorem speech_called (s : Stream) (step : Value) : (s.speech step).2.called = s.called := by
  unfold speech
  cases active step <;> rfl

def toolName (step : Value) : String :=
  ((step.str? "tool_name").orElse fun _ => (step.at_ "tool_info").str? "name").getD "tool"

def call (s : Stream) (step : Value) : StepEvent :=
  { s.stepEvent .toolCall (stepIndex step) with
    tool := toolName step
    id := toString (stepIndex step)
    args := (((step.at_ "tool_info").at_ "parameters").asObject).getD [] }

def result (s : Stream) (step : Value) : StepEvent :=
  let info := step.at_ "tool_info"
  let failure := info.at_ "error"
  let failed := failure.asObject.isSome
  { s.stepEvent .toolResult (stepIndex step) with
    tool := toolName step
    id := toString (stepIndex step)
    result := if failed then failure.at_ "message" else info.at_ "output"
    ok := !failed && step.str? "state" ≠ some "ERROR" }

/-- A tool is announced by the first update of its step, and done once no longer active. -/
def tool (s : Stream) (step : Value) : List StepEvent × Stream :=
  let index := stepIndex step
  let calls := if index ∈ s.called then [] else [s.call step]
  if active step then (calls, { s with called := insert index s.called })
  else (calls ++ [s.result step], { s with called := s.called.erase index })

theorem tool_text (s : Stream) (step : Value) : (s.tool step).2.text = s.text := by
  unfold tool
  cases active step <;> rfl

theorem tool_called (s : Stream) (step : Value) : (s.tool step).2.called =
    if active step then insert (stepIndex step) s.called
    else s.called.erase (stepIndex step) := by
  unfold tool
  cases active step <;> rfl

def step (s : Stream) (step : Value) : List StepEvent × Stream :=
  match step.str? "step_type" with
  | some "agent_response" => s.speech step
  | some "tool" => s.tool step
  | _ => ([], s)

section
variable [Host]

/-- Step indexes are scoped to one native turn, so a turn's end forgets its steps. -/
def finished (s : Stream) (result : Value) : List StepEvent × Stream :=
  let s := { s with text := fun _ => "", called := ∅ }
  let failures :=
    if result.str? "status" = some "ERROR" then
      let said := match result.at_ "error" with
        | .string text => text
        | .null => "agy turn failed"
        | other => Host.json other
      [{ ((Event.failure (classify said) said).from_ NAME).about s.model with
        native := (s.event .error).native : StepEvent }]
    else []
  let ended := s.event .end_
  (failures ++ [{ ended with
      toEvent := ((ended.toEvent.with_ "status" (result.at_ "status")).with_ "seconds"
        (result.at_ "duration_seconds")).with_ "usage" (result.at_ "usage") }], s)

/-- One line of agy's output: none where it is no JSON. -/
def feed (s : Stream) : Option Value → List StepEvent × Stream
  | none => ([], s)
  | some data =>
      match data.str? "event" with
      | some "init" => ([], s.rememberConversation data)
      | some "step_update" =>
          let update := data.at_ "step_update"
          (s.rememberConversation update).step update
      | some "result" =>
          let result := data.at_ "result"
          (s.rememberConversation result).finished result
      | _ => ([], s)

end
end Stream
end SiliconOmni.Antigravity
