import Mathlib.Data.List.Infix
import SiliconOmni.Value

/-! The event vocabulary, and how a failure's wording becomes its kind. -/
namespace SiliconOmni

/-- What the machine outside supplies to the program: the Unicode tables of the standard
library, the JSON printer, path resolution, and the supply of message ids. -/
class Host where
  /-- The alphanumeric words of the lowered text. -/
  words : String → List String
  trim : String → String
  json : Value → String
  real : String → String
  here : String
  remote : String
  /-- The `n`th id drawn; a `Uuid::new_v4` is never empty and never drawn twice. -/
  uuid : ℕ → String
  uuid_injective : Function.Injective uuid
  uuid_ne_empty : ∀ n, uuid n ≠ ""

inductive EventType where
  | start | text | thinking | toolCall | toolResult | end_ | injected | error
  | switchProvider | newSession | config
  /-- `_omni_send_confirmed`: a delivery acknowledgement, never persisted. -/
  | confirmed
  | other (name : String)
  deriving DecidableEq, Repr, Inhabited

/-- The name the log and the wire use. -/
def EventType.name : EventType → String
  | .start => "start"
  | .text => "text"
  | .thinking => "thinking"
  | .toolCall => "tool.call"
  | .toolResult => "tool.result"
  | .end_ => "end"
  | .injected => "injected"
  | .error => "error"
  | .switchProvider => "switch_provider"
  | .newSession => "new_session"
  | .config => "config"
  | .confirmed => "_omni_send_confirmed"
  | .other name => name

def SCHEMA_VERSION : ℤ := 1

inductive ErrorKind where
  | auth | limit | contextLimit | unavailable | crash
  /-- `stderr` chatter, `omni` itself, or no kind at all. -/
  | other (name : String)
  deriving DecidableEq, Repr, Inhabited

def ErrorKind.name : ErrorKind → String
  | .auth => "auth"
  | .limit => "limit"
  | .contextLimit => "context_limit"
  | .unavailable => "unavailable"
  | .crash => "crash"
  | .other name => name

/-- One of the kinds `classify` can name. -/
def ErrorKind.isClassified : ErrorKind → Bool
  | .other _ => false
  | _ => true

/-- One thing that happened. -/
structure Event where
  v : ℤ := SCHEMA_VERSION
  eventType : EventType
  session : String := ""
  provider : String := ""
  model : String := ""
  text : String := ""
  tool : String := ""
  args : Fields := []
  result : Value := .null
  ok : Bool := true
  kind : ErrorKind := .other ""
  error : String := ""
  seq : ℤ := -1
  turn : ℤ := -1
  extra : Fields := []
  deriving DecidableEq, Repr, Inhabited

def GENERATION : String := "_omni_generation"
def CONFIRMED_AS : String := "_omni_confirmed_as"
def RUNNER_EPOCH : String := "_omni_runner_epoch"
def MESSAGE_ID : String := "message_id"

namespace Event

def new (eventType : EventType) : Event := { eventType }

/-- A failure, in omni's vocabulary. -/
def failure (kind : ErrorKind) (error : String) : Event :=
  { eventType := .error, ok := false, kind, error }

/-- A settings change or a piece of bookkeeping. -/
def config (what : String) : Event := { eventType := .config, text := what }

def from_ (e : Event) (provider : String) : Event := { e with provider }
def about (e : Event) (model : String) : Event := { e with model }
def saying (e : Event) (text : String) : Event := { e with text }
def with_ (e : Event) (key : String) (value : Value) : Event :=
  { e with extra := Entries.insert e.extra key value }
def extras (e : Event) (extra : Fields) : Event := { e with extra }

def is (e : Event) (eventType : EventType) : Bool := e.eventType = eventType

/-- Whether a provider would need to be told this. -/
def isHistory (e : Event) : Bool :=
  match e.eventType with
  | .start | .injected | .text | .thinking | .toolCall | .toolResult => true
  | _ => false

/-- START or INJECTED: the durable trace of one delivered user message. -/
def isOpening (e : Event) : Bool := e.is .start || e.is .injected

def messageId (e : Event) : Option String := (e.extra.lookup MESSAGE_ID).bind Value.asStr
def flag (e : Event) (key : String) : Option Bool := (e.extra.lookup key).bind Value.asBool
def late (e : Event) : Bool := e.flag "late" = some true
def willRetry (e : Event) : Bool := e.flag "willRetry" = some true
def interrupted (e : Event) : Bool := e.flag "interrupted" = some true

end Event

/-- Output of the model itself, which shows that an earlier error was survived. -/
def EventType.isModel : EventType → Bool
  | .text | .thinking | .toolCall | .toolResult => true
  | _ => false

section classify
variable [Host]

/-- Which kind of failure a provider's wording means. -/
def classify (text : String) : ErrorKind :=
  let words := Host.words text
  let has (wanted : List String) : Bool := words.any (wanted.contains ·)
  let phrase (wanted : List String) : Bool := decide (wanted <:+: words)
  if has ["contextwindowexceeded", "contextlengthexceeded"] ||
      phrase ["context", "window", "exceeded"] || phrase ["context", "length", "exceeded"] ||
      phrase ["context", "limit"] || phrase ["prompt", "is", "too", "long"] ||
      phrase ["prompt", "too", "long"] || phrase ["input", "is", "too", "long"] ||
      phrase ["maximum", "context", "length"] ||
      phrase ["exceeds", "the", "context", "window"] ||
      (phrase ["context", "window"] && phrase ["ran", "out", "of", "room"]) ||
      (has ["tokens"] && phrase ["exceeds", "the", "maximum"]) then .contextLimit
  else if has ["auth", "oauth", "authentication", "authorization", "unauthenticated",
      "unauthorized", "login", "signin", "401"] || phrase ["sign", "in"] then .auth
  else if has ["rate", "ratelimit", "ratelimits", "limit", "limited", "quota", "429"] then .limit
  else if has ["overload", "overloaded", "unavailable", "disconnect", "disconnected",
      "disconnection", "timeout", "timeouts", "404", "502", "503"] ||
      phrase ["timed", "out"] || phrase ["model", "not", "found"] ||
      phrase ["invalid", "model"] then .unavailable
  else .crash

end classify
end SiliconOmni
