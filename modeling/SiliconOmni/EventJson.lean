import SiliconOmni.Objects

/-! An event as the JSON object one line of the log holds. -/
namespace SiliconOmni

def EventType.ofName : String → EventType
  | "start" => .start
  | "text" => .text
  | "thinking" => .thinking
  | "tool.call" => .toolCall
  | "tool.result" => .toolResult
  | "end" => .end_
  | "injected" => .injected
  | "error" => .error
  | "switch_provider" => .switchProvider
  | "new_session" => .newSession
  | "config" => .config
  | "_omni_send_confirmed" => .confirmed
  | name => .other name

def ErrorKind.ofName : String → ErrorKind
  | "auth" => .auth
  | "limit" => .limit
  | "context_limit" => .contextLimit
  | "unavailable" => .unavailable
  | "crash" => .crash
  | name => .other name

namespace Event

/-- The fields of an event, most of which are left out at their defaults. -/
def fields (e : Event) : List Field :=
  [{ key := "v", value := .number e.v },
    { key := "type", value := .string e.eventType.name },
    { key := "session", value := .string e.session, skip := e.session = "" },
    { key := "provider", value := .string e.provider, skip := e.provider = "" },
    { key := "model", value := .string e.model, skip := e.model = "" },
    { key := "text", value := .string e.text, skip := e.text = "" },
    { key := "tool", value := .string e.tool, skip := e.tool = "" },
    { key := "args", value := .object e.args, skip := e.args.isEmpty },
    { key := "result", value := e.result, skip := e.result.isNull },
    { key := "ok", value := .bool e.ok, skip := e.ok },
    { key := "kind", value := .string e.kind.name, skip := e.kind.name = "" },
    { key := "error", value := .string e.error, skip := e.error = "" },
    { key := "seq", value := .number e.seq, skip := e.seq < 0 },
    { key := "turn", value := .number e.turn, skip := e.turn < 0 },
    { key := "extra", value := .object e.extra, skip := e.extra.isEmpty }]

def toValue (e : Event) : Value := .object (serialized e.fields)

/-- An event read back from its object. -/
def ofValue : Value → Option Event
  | .object m => do
      return {
        v := ← Ask.defaulted m "v" Value.asInt SCHEMA_VERSION
        eventType := .ofName (← (m.lookup "type").bind Value.asStr)
        session := ← Ask.defaulted m "session" Value.asStr ""
        provider := ← Ask.defaulted m "provider" Value.asStr ""
        model := ← Ask.defaulted m "model" Value.asStr ""
        text := ← Ask.defaulted m "text" Value.asStr ""
        tool := ← Ask.defaulted m "tool" Value.asStr ""
        args := ← Ask.defaulted m "args" Value.asObject []
        result := ← Ask.defaulted m "result" some .null
        ok := ← Ask.defaulted m "ok" Value.asBool true
        kind := .ofName (← Ask.defaulted m "kind" Value.asStr "")
        error := ← Ask.defaulted m "error" Value.asStr ""
        seq := ← Ask.defaulted m "seq" Value.asInt (-1)
        turn := ← Ask.defaulted m "turn" Value.asInt (-1)
        extra := ← Ask.defaulted m "extra" Value.asObject [] }
  | _ => none

/-- The type and the kind are spelled the one way their names are read. -/
structure Named (e : Event) : Prop where
  eventType : EventType.ofName e.eventType.name = e.eventType
  kind : ErrorKind.ofName e.kind.name = e.kind

theorem fields_once (e : Event) : (e.fields.map Field.key).Nodup := by
  simp [fields]

theorem ofValue_carries {e : Event} {m : Fields} (named : e.Named) (seq : -1 ≤ e.seq)
    (turn : -1 ≤ e.turn) (carries : Carries m e.fields) : ofValue (.object m) = some e := by
  have text (key text : String) (mem : { key, value := .string text, skip := text = "" } ∈ e.fields) :
      Ask.defaulted m key Value.asStr "" = some text :=
    carries.defaulted { key, value := .string text, skip := text = "" } mem rfl
      fun h => by simpa using h
  have number (key : String) (n : ℤ) (lower : -1 ≤ n)
      (mem : { key, value := .number n, skip := n < 0 } ∈ e.fields) :
      Ask.defaulted m key Value.asInt (-1) = some n :=
    carries.defaulted { key, value := .number n, skip := n < 0 } mem rfl fun h => by
      simp only [decide_eq_true_eq] at h
      omega
  have object (key : String) (map : Fields)
      (mem : { key, value := .object map, skip := map.isEmpty } ∈ e.fields) :
      Ask.defaulted m key Value.asObject [] = some map :=
    carries.defaulted { key, value := .object map, skip := map.isEmpty } mem rfl
      fun h => List.isEmpty_iff.mp h
  have type : m.lookup "type" = some (.string e.eventType.name) :=
    carries { key := "type", value := .string e.eventType.name } (by simp [fields])
  have v : Ask.defaulted m "v" Value.asInt SCHEMA_VERSION = some e.v :=
    carries.defaulted { key := "v", value := .number e.v } (by simp [fields]) rfl (by rintro ⟨⟩)
  have result : Ask.defaulted m "result" some .null = some e.result :=
    carries.defaulted { key := "result", value := e.result, skip := e.result.isNull }
      (by simp [fields]) rfl Value.eq_null_of_isNull
  have ok : Ask.defaulted m "ok" Value.asBool true = some e.ok :=
    carries.defaulted { key := "ok", value := .bool e.ok, skip := e.ok } (by simp [fields]) rfl id
  unfold ofValue
  simp only [type, v, result, ok, text "session" e.session (by simp [fields]),
    text "provider" e.provider (by simp [fields]), text "model" e.model (by simp [fields]),
    text "text" e.text (by simp [fields]), text "tool" e.tool (by simp [fields]),
    object "args" e.args (by simp [fields]), text "kind" e.kind.name (by simp [fields]),
    text "error" e.error (by simp [fields]), number "seq" e.seq seq (by simp [fields]),
    number "turn" e.turn turn (by simp [fields]), object "extra" e.extra (by simp [fields]),
    Option.bind_some, Value.asStr, Option.bind_eq_bind, named.eventType, named.kind]
  rfl

theorem ofValue_toValue {e : Event} (named : e.Named) (seq : -1 ≤ e.seq) (turn : -1 ≤ e.turn) :
    ofValue e.toValue = some e :=
  ofValue_carries named seq turn (carries_serialized e.fields_once)

end Event
end SiliconOmni
