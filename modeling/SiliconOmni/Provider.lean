import SiliconOmni.Choose

/-! What the conductor asks of a provider, and what the provider may answer or report. -/
namespace SiliconOmni

/-- What a successful `send` means at the provider boundary. -/
inductive Delivery where
  /-- The call itself confirms delivery in the current native turn. -/
  | immediate
  /-- Delivery is only confirmed later by a provider echo. -/
  | echoed
  /-- A mid-turn write is queued as a separate native turn. -/
  | nextTurn
  deriving DecidableEq, Repr

/-- Everything a runner needs to know that is not the conversation itself. -/
structure Config where
  model : String := ""
  effort : String := ""
  fast : Bool := false
  systemPrompt : String := ""
  appendSystemPrompt : String := ""
  disableSubagents : Bool := true
  disableMcp : Bool := true
  cwd : String
  deriving DecidableEq, Repr

def Config.default [Host] : Config := { cwd := Host.here }

/-- The same configuration in another directory, resolved. -/
def Config.at [Host] (config : Config) (cwd : String) : Config :=
  { config with cwd := Host.real cwd }

def CODEX : String := "codex-app-server"

/-- Can this provider change its system prompt on a session it already opened? -/
def retunesInstructions (name : String) : Bool := name ≠ CODEX

/-- One concrete runner: the provider it drives, and which of all runners ever built it is. -/
structure Handle where
  name : String
  instance_ : ℕ
  deriving DecidableEq, Repr

/-- How one replacement of the metadata ends. -/
inductive Write where
  | done
  /-- Nothing reached the disk. -/
  | refused (why : String)
  /-- The write reached the disk, and the process died right after it. -/
  | cut
  deriving DecidableEq, Repr

/-- How one append to the event log ends. -/
inductive Append where
  | done
  /-- The record is not whole on the disk. -/
  | refused (why : String)
  /-- The record is whole on the disk, and the write was reported to have failed all the same. -/
  | unconfirmed (why : String)
  /-- The record reached the disk, and the process died right after it. -/
  | cut
  deriving DecidableEq, Repr

/-- How the world outside answers while one wake is handled. Every answer may depend on how many
questions were asked before it, so a runner may die between any two of them. -/
structure Env where
  alive : ℕ → Handle → Bool := fun _ _ => true
  parkable : ℕ → Handle → Bool := fun _ _ => true
  nativeId : ℕ → Handle → String := fun _ _ => ""
  generation : ℕ → Handle → Option ℕ := fun _ _ => none
  installed : String → Bool := fun _ => true
  start : ℕ → Handle → Except String Unit := fun _ _ => .ok ()
  seeded : ℕ → Handle → Bool := fun _ _ => true
  send : ℕ → Handle → Except String Delivery := fun _ _ => .ok .immediate
  compact : ℕ → Handle → Except String Bool := fun _ _ => .ok false
  retune : ℕ → Handle → Bool := fun _ _ => false
  catchUp : ℕ → Handle → Bool := fun _ _ => true
  registry : ℕ → Registry := fun _ => { fresh := none, found := none, stale := none }
  append : ℕ → Append := fun _ => .done
  commit : ℕ → Write := fun _ => .done

/-- The event types an adapter emits. -/
inductive ReportType where
  | text | thinking | toolCall | toolResult | end_ | error | config | confirmed
  deriving DecidableEq, Repr

def ReportType.eventType : ReportType → EventType
  | .text => .text
  | .thinking => .thinking
  | .toolCall => .toolCall
  | .toolResult => .toolResult
  | .end_ => .end_
  | .error => .error
  | .config => .config
  | .confirmed => .confirmed

theorem unmarked_nil : ([] : Fields).lookup MESSAGE_ID = none ∧
    ([] : Fields).lookup "late" = none := ⟨rfl, rfl⟩

/-- One event as an adapter emits it. Position, turn and session are the conductor's to give, and
so are the two marks it keeps in `extra`. -/
structure Report where
  type : ReportType
  provider : String := ""
  model : String := ""
  text : String := ""
  tool : String := ""
  args : Fields := []
  result : Value := .null
  ok : Bool := true
  kind : ErrorKind := .other ""
  error : String := ""
  extra : Fields := []
  unmarked : extra.lookup MESSAGE_ID = none ∧ extra.lookup "late" = none := by
    first | exact unmarked_nil | decide

/-- The event a runner's ear posts, stamped with the runner's epoch. -/
def Report.heard (report : Report) (epoch : ℕ) : Event where
  eventType := report.type.eventType
  provider := report.provider
  model := report.model
  text := report.text
  tool := report.tool
  args := report.args
  result := report.result
  ok := report.ok
  kind := report.kind
  error := report.error
  extra := Entries.insert report.extra RUNNER_EPOCH (.number epoch)

end SiliconOmni
