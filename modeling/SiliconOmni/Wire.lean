import SiliconOmni.Client.Connection
import SiliconOmni.EventJson

/-! What a client and the daemon say to each other, as the JSON object of one line. -/
namespace SiliconOmni.Wire
open Client (Reply)
open Value (FitsI64)

def strings (names : List String) : Value := .array (names.map .string)

/-- What a client asks for. -/
structure Request where
  id : ℤ := 0
  op : String
  session : Option String := none
  text : Option String := none
  providers : Option (List String) := none
  cwd : Option String := none
  from_ : Option ℤ := none
  what : Option String := none
  value : Value := .null
  provider : Option String := none
  deriving DecidableEq, Repr

namespace Request

def fields (r : Request) : List Field :=
  [{ key := "id", value := .number r.id },
    { key := "op", value := .string r.op },
    optionField "session" .string r.session,
    optionField "text" .string r.text,
    optionField "providers" strings r.providers,
    optionField "cwd" .string r.cwd,
    optionField "from" .number r.from_,
    optionField "what" .string r.what,
    { key := "value", value := r.value, skip := r.value.isNull },
    optionField "provider" .string r.provider]

def keys : List String :=
  ["id", "op", "session", "text", "providers", "cwd", "from", "what", "value", "provider"]

def toValue (r : Request) : Value := .object (serialized r.fields)

def ofFields (m : Fields) : Option Request := do
  return {
    id := ← Ask.defaulted m "id" Value.asI64 0
    op := ← (m.lookup "op").bind Value.asStr
    session := ← Ask.optional m "session" Value.asStr
    text := ← Ask.optional m "text" Value.asStr
    providers := ← Ask.optional m "providers" Value.asStrings
    cwd := ← Ask.optional m "cwd" Value.asStr
    from_ := ← Ask.optional m "from" Value.asI64
    what := ← Ask.optional m "what" Value.asStr
    value := ← Ask.defaulted m "value" some .null
    provider := ← Ask.optional m "provider" Value.asStr }

def ofValue (value : Value) : Option Request := (fieldsOf keys value).bind ofFields

theorem fields_once (r : Request) : (r.fields.map Field.key).Nodup := by
  simp [fields, optionField]

/-- The object is one the request can be sent as. -/
structure Sent (r : Request) (m : Fields) : Prop where
  carries : Carries m r.fields
  id : FitsI64 r.id
  from_ : ∀ since, r.from_ = some since → FitsI64 since

theorem sent_serialized {r : Request} (id : FitsI64 r.id)
    (from_ : ∀ since, r.from_ = some since → FitsI64 since) : r.Sent (serialized r.fields) :=
  ⟨carries_serialized r.fields_once, id, from_⟩

theorem ofFields_sent {r : Request} {m : Fields} (sent : r.Sent m) : ofFields m = some r := by
  have carries := sent.carries
  have text (key : String) (o : Option String) (mem : optionField key .string o ∈ r.fields) :
      Ask.optional m key Value.asStr = some o :=
    carries.optional .string mem (fun _ _ => rfl) fun _ h => Value.noConfusion h
  have id : Ask.defaulted m "id" Value.asI64 0 = some r.id :=
    carries.defaulted { key := "id", value := .number r.id } (by simp [fields])
      (Value.asI64_number sent.id) (by rintro ⟨⟩)
  have op : (m.lookup "op").bind Value.asStr = some r.op := carries.text (by simp [fields])
  have providers : Ask.optional m "providers" Value.asStrings = some r.providers :=
    carries.optional strings (by simp [fields]) (fun texts _ => Value.asStrings_strings texts)
      fun _ h => Value.noConfusion h
  have from_ : Ask.optional m "from" Value.asI64 = some r.from_ :=
    carries.optional .number (by simp [fields])
      (fun since hsince => Value.asI64_number (sent.from_ since hsince))
      fun _ h => Value.noConfusion h
  have value : Ask.defaulted m "value" some .null = some r.value := by
    apply carries.defaulted { key := "value", value := r.value, skip := r.value.isNull }
      (by simp [fields]) rfl
    exact Value.eq_null_of_isNull
  unfold ofFields
  simp only [id, op, providers, from_, value, text "session" r.session (by simp [fields]),
    text "text" r.text (by simp [fields]), text "cwd" r.cwd (by simp [fields]),
    text "what" r.what (by simp [fields]), text "provider" r.provider (by simp [fields])]
  rfl

end Request

namespace Reply

def fields (r : Reply) : List Field :=
  [{ key := "id", value := .number r.id },
    { key := "ok", value := .bool r.ok },
    { key := "result", value := r.result, skip := r.result.isNull },
    optionField "error" .string r.error]

def keys : List String := ["id", "ok", "result", "error"]

def toValue (r : Reply) : Value := .object (serialized (fields r))

def ofFields (m : Fields) : Option Reply := do
  return {
    id := ← (m.lookup "id").bind Value.asI64
    ok := ← (m.lookup "ok").bind Value.asBool
    result := ← Ask.defaulted m "result" some .null
    error := ← Ask.optional m "error" Value.asStr }

def ofValue (value : Value) : Option Reply := (fieldsOf keys value).bind ofFields

def failed (id : ℤ) (error : String) : Reply := { id, ok := false, error := some error }

theorem fields_once (r : Reply) : ((fields r).map Field.key).Nodup := by
  simp [fields, optionField]

/-- The object is one the reply can be sent as: what else it comes to say, it is no `stream`. -/
structure Sent (r : Reply) (m : Fields) : Prop where
  carries : Carries m (fields r)
  id : FitsI64 r.id
  apart : m.lookup "stream" = none

theorem ofFields_sent {r : Reply} {m : Fields} (sent : Sent r m) : ofFields m = some r := by
  have carries := sent.carries
  have id : (m.lookup "id").bind Value.asI64 = some r.id :=
    carries.required { key := "id", value := .number r.id } (by simp [fields])
      (Value.asI64_number sent.id) rfl
  have ok : (m.lookup "ok").bind Value.asBool = some r.ok :=
    carries.required { key := "ok", value := .bool r.ok } (by simp [fields]) rfl rfl
  have result : Ask.defaulted m "result" some .null = some r.result := by
    apply carries.defaulted { key := "result", value := r.result, skip := r.result.isNull }
      (by simp [fields]) rfl
    exact Value.eq_null_of_isNull
  have error : Ask.optional m "error" Value.asStr = some r.error :=
    carries.optional .string (by simp [fields]) (fun _ _ => rfl) fun _ h => Value.noConfusion h
  unfold ofFields
  simp only [id, ok, result, error]
  rfl

end Reply

/-- The fields of an ask, the first of which tells which of the three it is. -/
def askFields : Ask → List Field
  | .key word =>
      [{ key := "how", value := .string "key" }, { key := "key", value := .string word }]
  | .intelligence value bench =>
      [{ key := "how", value := .string "intelligence" }, { key := "value", value := .number value },
        optionField "bench" .string bench]
  | .model provider name effort fast =>
      [{ key := "how", value := .string "model" }, optionField "provider" .string provider,
        { key := "model", value := .string name }, { key := "effort", value := .string effort },
        { key := "fast", value := .bool fast }]

def askKeys : String → List String
  | "key" => ["key"]
  | "intelligence" => ["value", "bench"]
  | _ => ["provider", "model", "effort", "fast"]

/-- A tagged structure is read from an object, or from its tag and then its fields. -/
def taggedFields : Value → Option Fields
  | .object m => some m
  | .array (.string how :: items) =>
      (fieldsOf (askKeys how) (.array items)).map fun m => ("how", .string how) :: m
  | _ => none

def dialFits : Ask → Bool
  | .intelligence value _ => FitsI64 value
  | _ => true

def askOf (value : Value) : Option Ask :=
  ((taggedFields value).bind fun m => Ask.ofValue (.object m)).filter dialFits

theorem askFields_eq (ask : Ask) : Value.object (serialized (askFields ask)) = ask.toValue := by
  cases ask with
  | key word => rfl
  | intelligence value bench => cases bench <;> rfl
  | model provider name effort fast => cases provider <;> rfl

theorem askFields_once (ask : Ask) : ((askFields ask).map Field.key).Nodup := by
  cases ask <;> simp [askFields, optionField]

theorem askOf_carries {ask : Ask} {m : Fields} (fits : dialFits ask = true)
    (carries : Carries m (askFields ask)) : askOf (.object m) = some ask := by
  have reads : Ask.ofValue (.object m) = some ask := by
    cases ask with
    | key word =>
      have how : (m.lookup "how").bind Value.asStr = some "key" :=
        carries.text (by simp [askFields])
      have key : (m.lookup "key").bind Value.asStr = some word :=
        carries.text (by simp [askFields])
      simp only [Ask.ofValue, how, key]
      rfl
    | intelligence value bench =>
      have how : (m.lookup "how").bind Value.asStr = some "intelligence" :=
        carries.text (by simp [askFields])
      have value : (m.lookup "value").bind Value.asInt = some value :=
        carries.required { key := "value", value := .number value } (by simp [askFields]) rfl rfl
      have bench : Ask.optional m "bench" Value.asStr = some bench :=
        carries.optional .string (by simp [askFields]) (fun _ _ => rfl)
          fun _ h => Value.noConfusion h
      simp only [Ask.ofValue, how, value, bench]
      rfl
    | model provider name effort fast =>
      have how : (m.lookup "how").bind Value.asStr = some "model" :=
        carries.text (by simp [askFields])
      have provider : Ask.optional m "provider" Value.asStr = some provider :=
        carries.optional .string (by simp [askFields]) (fun _ _ => rfl)
          fun _ h => Value.noConfusion h
      have name : (m.lookup "model").bind Value.asStr = some name :=
        carries.text (by simp [askFields])
      have effort : Ask.defaulted m "effort" Value.asStr "" = some effort :=
        carries.defaulted { key := "effort", value := .string effort } (by simp [askFields]) rfl
          (by rintro ⟨⟩)
      have fast : Ask.defaulted m "fast" Value.asBool false = some fast :=
        carries.defaulted { key := "fast", value := .bool fast } (by simp [askFields]) rfl
          (by rintro ⟨⟩)
      simp only [Ask.ofValue, how, provider, name, effort, fast]
      rfl
  unfold askOf taggedFields
  rw [Option.bind_some, reads, Option.filter_some, if_pos fits]

/-- An event as a frame carries it: with its id, with when it was, and with what its provider calls
the things it is about. -/
structure FullEvent extends Event where
  id : String := ""
  at_ : String := ""
  native : Fields := []
  deriving DecidableEq, Repr

namespace FullEvent

def fields (e : FullEvent) : List Field :=
  e.toEvent.fields ++
    [{ key := "id", value := .string e.id, skip := e.id = "" },
      { key := "at", value := .string e.at_ },
      { key := "native", value := .object e.native, skip := e.native.isEmpty }]

def keys : List String :=
  ["v", "type", "session", "provider", "model", "text", "tool", "id", "args", "result", "ok", "kind",
    "error", "at", "seq", "turn", "native", "extra"]

def numbersFit (e : Event) : Bool := FitsI64 e.v ∧ FitsI64 e.seq ∧ FitsI64 e.turn

def ofFields (m : Fields) : Option FullEvent := do
  return {
    toEvent := ← (Event.ofValue (.object m)).filter numbersFit
    id := ← Ask.defaulted m "id" Value.asStr ""
    at_ := ← Ask.defaulted m "at" Value.asStr ""
    native := ← Ask.defaulted m "native" Value.asObject [] }

def ofValue (value : Value) : Option FullEvent := (fieldsOf keys value).bind ofFields

theorem fields_once (e : FullEvent) : (e.fields.map Field.key).Nodup := by
  simp [fields, Event.fields]

/-- It is spelled and numbered as events are. -/
structure Regular (e : FullEvent) : Prop where
  named : e.Named
  seq : -1 ≤ e.seq
  turn : -1 ≤ e.turn
  fits : numbersFit e.toEvent = true

/-- The object is one the event can be sent as. -/
structure Sent (e : FullEvent) (m : Fields) : Prop where
  carries : Carries m e.fields
  regular : e.Regular

theorem sent_serialized {e : FullEvent} (regular : e.Regular) : e.Sent (serialized e.fields) :=
  ⟨carries_serialized e.fields_once, regular⟩

theorem ofFields_sent {e : FullEvent} {m : Fields} (sent : e.Sent m) : ofFields m = some e := by
  have carries := sent.carries
  obtain ⟨named, seq, turn, fits⟩ := sent.regular
  have event : Event.ofValue (.object m) = some e.toEvent :=
    Event.ofValue_carries named seq turn fun field mem =>
      carries field (List.mem_append_left _ mem)
  have id : Ask.defaulted m "id" Value.asStr "" = some e.id :=
    carries.defaulted { key := "id", value := .string e.id, skip := e.id = "" } (by simp [fields])
      rfl fun h => by simpa using h
  have at_ : Ask.defaulted m "at" Value.asStr "" = some e.at_ :=
    carries.defaulted { key := "at", value := .string e.at_ } (by simp [fields]) rfl
      (by rintro ⟨⟩)
  have native : Ask.defaulted m "native" Value.asObject [] = some e.native :=
    carries.defaulted { key := "native", value := .object e.native, skip := e.native.isEmpty }
      (by simp [fields]) rfl fun h => List.isEmpty_iff.mp h
  unfold ofFields
  rw [event, Option.filter_some, if_pos fits, id, at_, native]
  rfl

end FullEvent

/-- Where a chat has got to, as it rides along with an event. -/
structure Snapshot where
  session : String
  status : String
  ask : Ask
  providers : List String
  /-- The provider currently up, if any. -/
  provider : String
  model : String
  effort : String
  cwd : String
  seq : ℤ
  inTurn : Bool
  queued : ℕ
  deriving DecidableEq, Repr

namespace Snapshot

def fields (s : Snapshot) : List Field :=
  [{ key := "session", value := .string s.session },
    { key := "status", value := .string s.status },
    { key := "ask", value := s.ask.toValue },
    { key := "providers", value := strings s.providers },
    { key := "provider", value := .string s.provider },
    { key := "model", value := .string s.model },
    { key := "effort", value := .string s.effort },
    { key := "cwd", value := .string s.cwd },
    { key := "seq", value := .number s.seq },
    { key := "in_turn", value := .bool s.inTurn },
    { key := "queued", value := .number s.queued }]

def keys : List String :=
  ["session", "status", "ask", "providers", "provider", "model", "effort", "cwd", "seq", "in_turn",
    "queued"]

def ofFields (m : Fields) : Option Snapshot := do
  return {
    session := ← (m.lookup "session").bind Value.asStr
    status := ← (m.lookup "status").bind Value.asStr
    ask := ← (m.lookup "ask").bind askOf
    providers := ← (m.lookup "providers").bind Value.asStrings
    provider := ← (m.lookup "provider").bind Value.asStr
    model := ← (m.lookup "model").bind Value.asStr
    effort := ← (m.lookup "effort").bind Value.asStr
    cwd := ← (m.lookup "cwd").bind Value.asStr
    seq := ← (m.lookup "seq").bind Value.asI64
    inTurn := ← (m.lookup "in_turn").bind Value.asBool
    queued := ← (m.lookup "queued").bind Value.asU64 }

def ofValue (value : Value) : Option Snapshot := (fieldsOf keys value).bind ofFields

theorem fields_once (s : Snapshot) : (s.fields.map Field.key).Nodup := by
  simp [fields]

/-- The object is one the snapshot can be sent as. -/
structure Sent (s : Snapshot) (m : Fields) : Prop where
  carries : Carries m (s.fields.filter fun field => field.key ≠ "ask")
  ask : Nested m "ask" fun inner => Carries inner (askFields s.ask)
  dial : dialFits s.ask = true
  seq : FitsI64 s.seq
  queued : s.queued < 2 ^ 64

theorem sent_serialized {s : Snapshot} (dial : dialFits s.ask = true) (seq : FitsI64 s.seq)
    (queued : s.queued < 2 ^ 64) : s.Sent (serialized s.fields) where
  carries field mem := carries_serialized s.fields_once field (List.mem_of_mem_filter mem)
  ask := by
    have found := carries_serialized s.fields_once { key := "ask", value := s.ask.toValue }
      (by simp [fields])
    rw [← askFields_eq] at found
    exact ⟨_, found, carries_serialized (askFields_once s.ask)⟩
  dial := dial
  seq := seq
  queued := queued

theorem ofFields_sent {s : Snapshot} {m : Fields} (sent : s.Sent m) : ofFields m = some s := by
  have carries := sent.carries
  have text (key text : String)
      (mem : { key, value := .string text } ∈ s.fields.filter fun field => field.key ≠ "ask") :
      (m.lookup key).bind Value.asStr = some text := carries.text mem
  have ask : (m.lookup "ask").bind askOf = some s.ask :=
    sent.ask.required fun _ inner => askOf_carries sent.dial inner
  have providers : (m.lookup "providers").bind Value.asStrings = some s.providers :=
    carries.required { key := "providers", value := strings s.providers } (by simp [fields])
      (Value.asStrings_strings s.providers) rfl
  have seq : (m.lookup "seq").bind Value.asI64 = some s.seq :=
    carries.required { key := "seq", value := .number s.seq } (by simp [fields])
      (Value.asI64_number sent.seq) rfl
  have inTurn : (m.lookup "in_turn").bind Value.asBool = some s.inTurn :=
    carries.required { key := "in_turn", value := .bool s.inTurn } (by simp [fields]) rfl rfl
  have queued : (m.lookup "queued").bind Value.asU64 = some s.queued :=
    carries.required { key := "queued", value := .number s.queued } (by simp [fields])
      (Value.asU64_number sent.queued) rfl
  unfold ofFields
  simp only [ask, providers, seq, inTurn, queued, text "session" s.session (by simp [fields]),
    text "status" s.status (by simp [fields]), text "provider" s.provider (by simp [fields]),
    text "model" s.model (by simp [fields]), text "effort" s.effort (by simp [fields]),
    text "cwd" s.cwd (by simp [fields])]
  rfl

end Snapshot

/-- Something the daemon says on its own: an event, or a session ending. -/
structure Frame where
  stream : String
  session : String
  event : Option FullEvent := none
  snapshot : Option Snapshot := none
  deriving DecidableEq, Repr

namespace Frame

/-- An event, and where the session stands as it goes out. -/
def event_ (session : String) (event : FullEvent) (snapshot : Snapshot) : Frame :=
  { stream := "event", session, event := some event, snapshot := some snapshot }

/-- The session has stopped; nothing more will arrive for it. -/
def gone (session : String) (snapshot : Snapshot) : Frame :=
  { stream := "gone", session, snapshot := some snapshot }

def fields (f : Frame) : List Field :=
  [{ key := "stream", value := .string f.stream },
    { key := "session", value := .string f.session },
    optionField "event" (fun e => .object (serialized e.fields)) f.event,
    optionField "snapshot" (fun s => .object (serialized s.fields)) f.snapshot]

def keys : List String := ["stream", "session", "event", "snapshot"]

def toValue (f : Frame) : Value := .object (serialized f.fields)

def ofFields (m : Fields) : Option Frame := do
  return {
    stream := ← (m.lookup "stream").bind Value.asStr
    session := ← (m.lookup "session").bind Value.asStr
    event := ← Ask.optional m "event" FullEvent.ofValue
    snapshot := ← Ask.optional m "snapshot" Snapshot.ofValue }

def ofValue (value : Value) : Option Frame := (fieldsOf keys value).bind ofFields

theorem fields_once (f : Frame) : (f.fields.map Field.key).Nodup := by
  simp [fields, optionField]

/-- The object is one the frame can be sent as. -/
structure Sent (f : Frame) (m : Fields) : Prop where
  carries : Carries m (f.fields.filter fun field => field.key ∉ ["event", "snapshot"])
  event : NestedOption m "event" FullEvent.Sent f.event
  snapshot : NestedOption m "snapshot" Snapshot.Sent f.snapshot

theorem sent_serialized {f : Frame}
    (event : ∀ e, f.event = some e → e.Sent (serialized e.fields))
    (snapshot : ∀ s, f.snapshot = some s → s.Sent (serialized s.fields)) :
    f.Sent (serialized f.fields) where
  carries field mem := carries_serialized f.fields_once field (List.mem_of_mem_filter mem)
  event := (carries_serialized f.fields_once).nestedOption (fun e => serialized e.fields)
    (by simp [fields]) event
  snapshot := (carries_serialized f.fields_once).nestedOption (fun s => serialized s.fields)
    (by simp [fields]) snapshot

theorem ofFields_sent {f : Frame} {m : Fields} (sent : f.Sent m) : ofFields m = some f := by
  have carries := sent.carries
  have stream : (m.lookup "stream").bind Value.asStr = some f.stream :=
    carries.text (by simp [fields])
  have session : (m.lookup "session").bind Value.asStr = some f.session :=
    carries.text (by simp [fields])
  have event : Ask.optional m "event" FullEvent.ofValue = some f.event :=
    sent.event.optional fun _ _ => FullEvent.ofFields_sent
  have snapshot : Ask.optional m "snapshot" Snapshot.ofValue = some f.snapshot :=
    sent.snapshot.optional fun _ _ => Snapshot.ofFields_sent
  unfold ofFields
  simp only [stream, session, event, snapshot]
  rfl

end Frame

/-- A line from the daemon is one of these, told apart by which keys it has. -/
inductive Incoming where
  | reply (reply : Reply)
  | frame (frame : Frame)
  deriving DecidableEq

/-- The object is one this message can be sent as. -/
def Incoming.Sent : Incoming → Fields → Prop
  | .reply r, m => Reply.Sent r m
  | .frame f, m => f.Sent m

def readLine (value : Value) : Option Incoming :=
  if (value.get? "stream").isSome then (Frame.ofValue value).map .frame
  else (Reply.ofValue value).map .reply

theorem readLine_sent {message : Incoming} {m : Fields} (sent : message.Sent m) :
    readLine (.object m) = some message := by
  have get : (Value.object m).get? "stream" = m.lookup "stream" := rfl
  unfold readLine
  rw [get]
  cases message with
  | reply reply =>
    have hsent : Reply.Sent reply m := sent
    have hread : Reply.ofValue (.object m) = some reply := Reply.ofFields_sent hsent
    rw [hsent.apart, hread]
    rfl
  | frame frame =>
    have hsent : frame.Sent m := sent
    have hread : Frame.ofValue (.object m) = some frame := Frame.ofFields_sent hsent
    have hstream : m.lookup "stream" = some (.string frame.stream) :=
      hsent.carries { key := "stream", value := .string frame.stream } (by simp [Frame.fields])
    rw [hstream, hread]
    rfl

/-- Messages, the objects each can be sent as, and how they are read. -/
structure Coding (M : Type) where
  decode : Value → Option M
  Sends : M → Fields → Prop
  decodes : ∀ {message m}, Sends message m → decode (.object m) = some message

/-- What a client says. -/
def requests : Coding Request where
  decode := Request.ofValue
  Sends := Request.Sent
  decodes := Request.ofFields_sent

/-- What the daemon says. -/
def incomings : Coding Incoming where
  decode := readLine
  Sends := Incoming.Sent
  decodes := readLine_sent

end SiliconOmni.Wire
