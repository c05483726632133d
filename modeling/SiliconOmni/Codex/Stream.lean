import SiliconOmni.Provider

/-! Codex app-server notifications, turned into omni events. -/
namespace SiliconOmni.Codex

def SKIP : List String := ["userMessage", "hookPrompt"]
def SHELL : String := "commandExecution"
def NOISE : List String :=
  ["id", "type", "status", "aggregatedOutput", "exitCode", "durationMs", "processId"]

/-- An event with what it carries of the item it is for. -/
structure ItemEvent extends Event where
  id : String := ""
  native : Fields := []
  deriving DecidableEq

structure Stream where
  model : String := ""
  tokens : Value := .null
  deriving DecidableEq

def sort (item : Value) : String := (item.str? "type").getD ""

def toolName (item : Value) : String :=
  match item.str? "type" with
  | some kind => if kind = SHELL then "shell" else kind
  | none => "tool"

def without (item : Value) (drop : List String) : Fields :=
  (item.asObject.getD []).filter fun entry => !drop.contains entry.1

def arguments (item : Value) : Fields :=
  if item.str? "type" = some SHELL then
    [("command", (item.get? "command").getD (.string ""))]
  else without item NOISE

def outcome (item : Value) : Value :=
  if item.str? "type" = some SHELL then item.at_ "aggregatedOutput"
  else .object (without item ["id", "type"])

/-- Nobody saying how it exited is not the same as it exiting badly. -/
def exitedWell (item : Value) : Bool :=
  match item.get? "exitCode" with
  | none | some .null => true
  | some code => code.asI64 = some 0

/-- What an event carries of the notification it came from. -/
def marks (params : Value) : List (String × Option Value) :=
  [("thread_id", params.get? "threadId"),
    ("turn_id", (params.get? "turnId").orElse fun _ => (params.at_ "turn").get? "id"),
    ("item_id", (params.at_ "item").get? "id")]

def mark (event : ItemEvent) : String × Option Value → ItemEvent
  | (key, some value) =>
      if value.isNull then event
      else { event with native := Entries.insert event.native key value }
  | (_, none) => event

@[simp] theorem mark_toEvent (event : ItemEvent) (entry : String × Option Value) :
    (mark event entry).toEvent = event.toEvent := by
  obtain ⟨key, value⟩ := entry
  cases value with
  | none => rfl
  | some value =>
    rw [mark]
    split_ifs <;> rfl

def marked (params : Value) (event : ItemEvent) : ItemEvent := (marks params).foldl mark event

@[simp] theorem marked_toEvent (params : Value) (event : ItemEvent) :
    (marked params event).toEvent = event.toEvent := by
  simp only [marked, marks, List.foldl_cons, List.foldl_nil, mark_toEvent]

namespace Stream

def new (model : String) : Stream := { model }

def event (s : Stream) (kind : EventType) : ItemEvent :=
  { ((Event.new kind).from_ CODEX).about s.model with }

def started (s : Stream) (item : Value) : List ItemEvent :=
  let kind := sort item
  if SKIP.contains kind || kind = "agentMessage" then []
  else if kind = "reasoning" then [s.event .thinking]
  else [{ s.event .toolCall with
    tool := toolName item
    id := (item.str? "id").getD ""
    args := arguments item }]

def completed (s : Stream) (item : Value) : List ItemEvent :=
  let kind := sort item
  if SKIP.contains kind || kind = "reasoning" then []
  else if kind = "agentMessage" then
    let text := (item.str? "text").getD ""
    if text = "" then []
    else [{ s.event .text with text, extra := [("phase", item.at_ "phase")] }]
  else [{ s.event .toolResult with
    tool := toolName item
    id := (item.str? "id").getD ""
    result := outcome item
    ok := exitedWell item && item.str? "status" ≠ some "failed" }]

section
variable [Host]

def failure (s : Stream) (error : Value) (fallback : String) : ItemEvent :=
  let said := (error.str? "message").getD fallback
  let info := ((error.get? "codexErrorInfo").map Host.json).getD ""
  { (((Event.failure (classify s!"{said} {info}") said).from_ CODEX).about s.model).extras
      (error.asObject.getD []) with }

def finished (s : Stream) (turn : Value) : List ItemEvent :=
  (if turn.str? "status" = some "failed" then [s.failure (turn.at_ "error") "turn failed"]
    else []) ++
  [{ s.event .end_ with
    extra := [("status", turn.at_ "status"), ("ms", turn.at_ "durationMs"),
      ("usage", s.tokens)] }]

/-- A mid-turn error. Retryable ones do not end the turn. -/
def failed (s : Stream) (params : Value) : List ItemEvent :=
  let error := ((params.get? "error").filter (·.asObject.isSome)).getD params
  let event := s.failure error "codex error"
  [{ event with toEvent := event.toEvent.with_ "willRetry" (params.at_ "willRetry") }]

/-- What one notification says. -/
def said (s : Stream) (method : String) (params : Value) : List ItemEvent :=
  match method with
  | "item/started" => s.started (params.at_ "item")
  | "item/completed" => s.completed (params.at_ "item")
  | "turn/completed" => s.finished (params.at_ "turn")
  | "error" => s.failed params
  | _ => []

def feed (s : Stream) (method : String) (params : Value) : List ItemEvent × Stream :=
  ((s.said method params).map (marked params),
    if method = "thread/tokenUsage/updated" then { s with tokens := params } else s)

/-- How many turns a list of events ends. -/
def ends (events : List ItemEvent) : ℕ := events.countP fun event => event.is .end_

omit [Host] in
@[simp] theorem ends_append (a b : List ItemEvent) : ends (a ++ b) = ends a + ends b :=
  List.countP_append

omit [Host] in
theorem ends_marked (params : Value) (events : List ItemEvent) :
    ends (events.map (marked params)) = ends events := by
  simp [ends, List.countP_map, Function.comp_def]

/-- A completed turn ends once, whether it failed or not, and nothing else ends one. -/
theorem feed_ends (s : Stream) (method : String) (params : Value) :
    ends (s.feed method params).1 = if method = "turn/completed" then 1 else 0 := by
  rw [feed, ends_marked]
  unfold said
  split
  next =>
    rw [started]
    split_ifs <;> simp_all [ends, Event.is, event, Event.about, Event.from_, Event.new]
  next =>
    rw [completed]
    split_ifs <;> simp_all [ends, Event.is, event, Event.about, Event.from_, Event.new]
  next =>
    rw [finished]
    split_ifs <;> simp_all [ends, Event.is, event, failure, Event.about, Event.from_, Event.new,
      Event.failure, Event.extras]
  next =>
    simp [failed, ends, Event.is, failure, Event.about, Event.from_, Event.failure,
      Event.extras, Event.with_]
  next h => simp_all [ends]

end
end Stream
end SiliconOmni.Codex
