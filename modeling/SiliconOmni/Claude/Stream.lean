import SiliconOmni.Event
import SiliconOmni.Text

/-! Claude's output lines, turned into omni events. A line is given as the JSON value it holds. -/
namespace SiliconOmni
namespace Claude

def NAME : String := "claude-code-cli"

structure Stream where
  tools : Entries String := []
  /-- Lines written to the pipe and not confirmed yet. -/
  expected : List String := []
  turnOpen : Bool := false
  sessionId : String := ""
  model : String := ""
  deriving DecidableEq

/-- Claude echoes a line as written, or with the white space around it trimmed, or with a newline
added. -/
def sameMessage (echo line : String) : Bool :=
  if echo = line then true
  else
    let echo := trimEnd echo
    echo ≠ "" && (echo = trimEnd line || echo = trim line)

section
variable [Host]

def flattenBlock : Value → String
  | .null => ""
  | .string text => text
  | .object m =>
      if (m.lookup "type").bind Value.asStr = some "text" ∨
          (m.length = 1 ∧ (m.lookup "text").isSome) then
        ((m.lookup "text").bind Value.asStr).getD ""
      else Host.json (.object m)
  | other => Host.json other

/-- Content comes as a string or as a list of blocks. -/
def flattenContent : Option Value → String
  | none | some .null => ""
  | some (.string text) => text
  | some (.array blocks) => "\n".intercalate ((blocks.map flattenBlock).filter (· ≠ ""))
  | some other => flattenBlock other

def LOCAL_COMMAND : String := "<local-command-stdout>"
def INTERRUPTED : String := "[Request interrupted by user]"

/-- Whether replayed user text reads as output of the control channel. -/
def chatter (text : String) : Bool :=
  LOCAL_COMMAND.toList.isPrefixOf text.toList || text = INTERRUPTED

def replayEcho (data : Value) : Bool :=
  if !data.flag? "isReplay" then false
  else
    let content := (data.at_ "message").at_ "content"
    if chatter (flattenContent (some content)) then false
    else !(content.asArray.any fun blocks => blocks.any fun block =>
      block.str? "type" = some "tool_result")

def apiErrorMessage (data message : Value) : Bool :=
  [data, message].any fun value =>
    ["is_api_error_message", "isApiErrorMessage"].any fun field => value.flag? field

namespace Stream

def event (s : Stream) (eventType : EventType) : Event :=
  ((Event.new eventType).from_ NAME).about s.model

def ERROR_FIELDS : List String :=
  ["error", "error_details", "api_error", "api_error_code", "api_error_params",
    "api_error_status", "terminal_reason", "subtype"]

/-- Errors carry raw details and codes alongside the displayed text. -/
def failure (s : Stream) (data : Value) (text fallback : String) : Event :=
  let fields : Fields := ERROR_FIELDS.filterMap fun key =>
    ((data.get? key).filter (!·.isNull)).map fun value => (key, value)
  let extra : Fields := match ((data.at_ "message").get? "error").filter (!·.isNull) with
    | some error => Entries.insert fields "message_error" error
    | none => fields
  let error :=
    if text = "" then
      ((["error_details", "error", "message_error", "api_error_code", "api_error",
        "terminal_reason"].map fun key => flattenContent (extra.lookup key)).find?
          (· ≠ "")).getD fallback
    else text
  let details := Host.json (.object extra)
  (((Event.failure (classify (error ++ " " ++ details)) error).from_ NAME).about s.model).extras
    extra

/-- Register a line before it reaches the pipe. -/
def expectUser (s : Stream) (text : String) : Stream := { s with expected := s.expected ++ [text] }

def forgetLastUser (s : Stream) : Stream := { s with expected := s.expected.dropLast }

/-- `init` opens every turn and carries the session id and model. -/
def system (s : Stream) (data : Value) : Stream :=
  if data.str? "subtype" = some "init" then
    { s with
      sessionId := (data.str? "session_id").getD s.sessionId
      model := (data.str? "model").getD s.model }
  else s

def THINKING_BLOCKS : List String := ["thinking", "redacted_thinking"]

/-- One block of what the model says. -/
def block (s : Stream) (block : Value) : List Event × Stream :=
  let kind := (block.str? "type").getD ""
  let text := (block.str? "text").getD ""
  if kind = "text" then
    (if text ≠ "" then [(s.event .text).saying text] else [], s)
  else if THINKING_BLOCKS.contains kind then ([s.event .thinking], s)
  else if kind = "tool_use" then
    let id := (block.str? "id").getD ""
    let name := (block.str? "name").getD ""
    let args := ((block.at_ "input").asObject).getD []
    ([{ s.event .toolCall with tool := name, args }], { s with tools := Entries.insert s.tools id name })
  else
    let text := flattenContent (some block)
    (if text ≠ "" then [(s.event .text).saying text] else [], s)

def blocks : Stream → List Value → List Event × Stream
  | s, [] => ([], s)
  | s, first :: rest =>
      let (events, s) := s.block first
      let (later, s) := blocks s rest
      (events ++ later, s)

def assistant (s : Stream) (data : Value) : List Event × Stream :=
  let message := data.at_ "message"
  let s := { s with model := (message.str? "model").getD s.model }
  let content := ((message.at_ "content").asArray).getD []
  if apiErrorMessage data message then
    let texts := ((content.filter fun block => block.str? "type" = some "text").filterMap
      (·.str? "text")).filter (· ≠ "")
    ([s.failure data ("\n".intercalate texts) "Claude returned an API error"], s)
  else s.blocks content

/-- The confirmations of the next lines; the first `skipped` are inferred from a later echo. -/
def confirm : Stream → ℕ → ℕ → List Event × Stream
  | s, _, 0 => ([], s)
  | s, skipped, count + 1 =>
      match s.expected with
      | [] => ([], s)
      | text :: rest =>
          let opening := if s.turnOpen then EventType.injected else .start
          let confirmed := ((((Event.new .confirmed).saying text).with_ CONFIRMED_AS
            (.string opening.name)).from_ NAME).about s.model
          let confirmed :=
            if 0 < skipped then confirmed.with_ "inferred" (.bool true) else confirmed
          let (later, s) :=
            confirm { s with expected := rest, turnOpen := true } (skipped - 1) count
          (confirmed :: later, s)

/-- Whether the echoes are those of the lines from `start` on. -/
def matchesAt (expected texts : List String) (start : ℕ) : Bool :=
  (texts.zip (expected.drop start)).all fun (echo, line) => sameMessage echo line

/-- The texts of a replay: one block of text for each line. -/
def replayTexts (content : Value) : Option (List String) :=
  match content with
  | .string text => some [text]
  | .array blocks => blocks.mapM fun block =>
      if block.str? "type" = some "text" then block.str? "text" else none
  | _ => none

/-- Only an echo matching the lines actually written can confirm them. Claude reads in order, so an
echo of a later line confirms every line before it. -/
def replayed (s : Stream) (data : Value) : List Event × Stream :=
  match replayTexts ((data.at_ "message").at_ "content") with
  | none => ([], s)
  | some texts =>
      if texts = [] ∨ s.expected.length < texts.length then ([], s)
      else match (List.range (s.expected.length - texts.length + 1)).find?
          (matchesAt s.expected texts) with
        | none => ([], s)
        | some skipped => s.confirm skipped (skipped + texts.length)

/-- A `user` line is a tool result coming back. -/
def result (s : Stream) (block : Value) : List Event × Stream :=
  if block.str? "type" = some "tool_result" then
    let callId := (block.str? "tool_use_id").getD ""
    ([{ s.event .toolResult with
        tool := (s.tools.lookup callId).getD ""
        result := .string (flattenContent (block.get? "content"))
        ok := !block.flag? "is_error" }],
      { s with tools := Entries.remove s.tools callId })
  else ([], s)

def results : Stream → List Value → List Event × Stream
  | s, [] => ([], s)
  | s, first :: rest =>
      let (events, s) := s.result first
      let (later, s) := results s rest
      (events ++ later, s)

def rateLimited (s : Stream) (data : Value) : List Event :=
  let info := data.at_ "rate_limit_info"
  if info.str? "status" = some "rejected" then
    let sort := (info.str? "rateLimitType").getD "?"
    [(((Event.failure .limit s!"rate limited ({sort})").from_ NAME).about s.model).extras
      (info.asObject.getD [])]
  else []

/-- `result` closes the turn, successfully or not. -/
def finished (s : Stream) (data : Value) : List Event × Stream :=
  let subtype := (data.str? "subtype").getD ""
  let failures :=
    if data.flag? "is_error" ∨ subtype ≠ "success" ∨
        (data.at_ "terminal_reason").asStr = some "prompt_too_long" then
      let result := "\n".intercalate
        ((["result", "errors", "error"].map fun key => flattenContent (data.get? key)).filter
          (· ≠ ""))
      let fallback :=
        if subtype = "" then "unknown error"
        else if subtype = "success" then "Claude returned an API error"
        else subtype
      [s.failure data result fallback]
    else []
  let ended := ((((s.event .end_).with_ "stop_reason" (data.at_ "stop_reason")).with_ "cost_usd"
    (data.at_ "total_cost_usd")).with_ "usage" (data.at_ "usage")).with_ "turns"
      (data.at_ "num_turns")
  (failures ++ [ended], { s with turnOpen := false })

/-- A `user` line: an echo of what was written, or tool results. -/
def user (s : Stream) (data : Value) : List Event × Stream :=
  if replayEcho data then s.replayed data
  else match ((data.at_ "message").at_ "content").asArray with
    | some content => s.results content
    | none => ([], s)

/-- One line of Claude's output: none where it is no JSON. -/
def feed (s : Stream) : Option Value → List Event × Stream
  | none => ([], s)
  | some data =>
      match data.str? "type" with
      | some "system" => ([], s.system data)
      | some "assistant" => s.assistant data
      | some "user" => s.user data
      | some "rate_limit_event" => (s.rateLimited data, s)
      | some "result" => s.finished data
      | _ => ([], s)

theorem feed_user {s : Stream} {data : Value} (h : data.str? "type" = some "user") :
    s.feed (some data) = s.user data := by
  unfold feed
  dsimp only
  rw [h]
  rfl

end Stream
end
end Claude
end SiliconOmni
