import SiliconOmni.Provider
import SiliconOmni.Session
import SiliconOmni.Translate

/-! The conductor's state, its settings, and the primitive steps everything else is made of. -/
namespace SiliconOmni

inductive Status where
  | idle | waiting | busy | stopped
  deriving DecidableEq, Repr, Inhabited

/-- Text sent to the model when a full native session must be replaced. -/
structure ContextRecovery where
  limitMessage : String := "Session Limit was hit. New Session will be started"
  newSessionMessage : String :=
    "New session was auto-started due to context limit. Check on pending work."
  transcriptHeader : String := SEED_HEADER
  deriving DecidableEq, Repr

namespace ContextRecovery

def fields (texts : ContextRecovery) : Fields :=
  [("limit_message", .string texts.limitMessage),
    ("new_session_message", .string texts.newSessionMessage),
    ("transcript_header", .string texts.transcriptHeader)]

def toValue (texts : ContextRecovery) : Value := .object texts.fields

def ofValue : Value → Option ContextRecovery
  | .object m => do
      let d : ContextRecovery := {}
      return {
        limitMessage := ← Ask.defaulted m "limit_message" Value.asStr d.limitMessage
        newSessionMessage := ← Ask.defaulted m "new_session_message" Value.asStr d.newSessionMessage
        transcriptHeader := ← Ask.defaulted m "transcript_header" Value.asStr d.transcriptHeader }
  | _ => none

end ContextRecovery

inductive RecoveryStage where
  | compacting | retrying | handoff | continuing | resuming
  deriving DecidableEq, Repr

def RecoveryStage.name : RecoveryStage → String
  | .compacting => "Compacting"
  | .retrying => "Retrying"
  | .handoff => "Handoff"
  | .continuing => "Continuing"
  | .resuming => "Resuming"

def RecoveryStage.ofName : String → Option RecoveryStage
  | "Compacting" => some .compacting
  | "Retrying" => some .retrying
  | "Handoff" => some .handoff
  | "Continuing" => some .continuing
  | "Resuming" => some .resuming
  | _ => none

@[simp] theorem RecoveryStage.ofName_name (stage : RecoveryStage) : ofName stage.name = some stage := by
  cases stage <;> rfl

structure Recovery where
  stage : RecoveryStage
  messageId : String
  retry : String
  deriving DecidableEq, Repr

namespace Recovery

def toValue (recovery : Recovery) : Value :=
  .object [("stage", .string recovery.stage.name), ("message_id", .string recovery.messageId),
    ("retry", .string recovery.retry)]

def ofValue : Value → Option Recovery
  | .object m => do
      return {
        stage := ← RecoveryStage.ofName (← (m.lookup "stage").bind Value.asStr)
        messageId := ← (m.lookup "message_id").bind Value.asStr
        retry := ← (m.lookup "retry").bind Value.asStr }
  | _ => none

@[simp] theorem ofValue_toValue (recovery : Recovery) : ofValue recovery.toValue = some recovery := by
  obtain ⟨stage, messageId, retry⟩ := recovery
  simp [toValue, ofValue, List.lookup_cons, Value.asStr]

end Recovery

/-- The (provider, model, effort, config) a runner was built with. -/
structure Signature where
  provider : String
  model : String
  effort : String
  config : Config
  deriving DecidableEq, Repr

/-- A provider left running between uses, and the settings it was left with. -/
structure Parked where
  runner : Handle
  epoch : Option ℕ
  signature : Signature
  /-- How far up the log it had been told when it was set aside. -/
  synced : ℤ
  deriving DecidableEq, Repr

/-- Where a chat has got to, as everyone else reads it. -/
structure Snapshot where
  session : String
  status : Status
  ask : Ask
  providers : List String
  provider : String := ""
  model : String := ""
  effort : String := ""
  cwd : String
  seq : ℤ
  inTurn : Bool := false
  queued : ℕ
  deriving DecidableEq, Repr, Inhabited

structure Chat where
  sessionId : String
  store : Store
  meta_ : Meta
  providers : List String
  /-- Providers that failed this chat and are off the dial until it is next opened cold or the
  providers are set again. -/
  benched : List String := []
  /-- The kind of the last final error in the open turn, if the model has said nothing since. -/
  turnFailed : Option ErrorKind := none
  ask : Ask
  config : Config
  contextRecovery : ContextRecovery
  recovery : Option Recovery
  /-- Whether a compaction deadline is set. -/
  compactionDeadline : Bool := false
  historyStart : ℤ
  state : Snapshot
  runner : Option Handle := none
  /-- The concrete runner currently allowed to affect the conductor's state. -/
  runnerEpoch : Option ℕ := none
  nextRunnerEpoch : ℕ := 1
  /-- Last omni turn owned by each runner, kept after the runner is replaced. -/
  epochTurns : ℕ → Option ℤ := fun _ => none
  /-- A late history event is in the log but was not seen by the current native session. -/
  syncCeiling : Option ℤ := none
  parked : Entries Parked := []
  current : Option Signature := none
  launchedOnce : Bool := false
  outbox : List PendingMessage
  /-- Written to an echo-confirming provider, but not consumed there yet. -/
  awaiting : List PendingMessage := []
  /-- Delivered messages grouped by unfinished native turn, kept for failover. -/
  unanswered : List (List String) := []
  /-- Mid-turn messages a provider accepted as later native turns. -/
  nextTurns : ℕ := 0
  /-- Recorded, not yet handed on. -/
  unpublished : List Event := []
  /-- Current omni turn, starting at -1 before the first user message. -/
  turn : ℤ
  /-- Whether the current provider activity has a durable opening event. -/
  turnRecorded : Bool := false
  inTurn : Bool := false
  stopping : Bool := false
  terminal : Bool := false
  startupError : Option String := none
  autoremove : Bool
  announced : List String := []

/-- What happened between the conductor and the world outside. -/
inductive Obs where
  /-- The user's message is in the metadata, and its sender was told so. -/
  | accepted (message : PendingMessage)
  /-- Recovery wrote this message itself. -/
  | synthesized (message : PendingMessage)
  /-- `dial` is what the chat would route to at that moment, here and below. -/
  | started (runner : Handle) (config : Config) (nativeId : String) (history : List Event)
      (took : Bool) (dial : List String)
  | caughtUp (runner : Handle) (history : List Event) (took : Bool) (dial : List String)
  /-- The runner was asked whether its history has reached the provider. -/
  | seeded (runner : Handle) (yes : Bool)
  | sent (runner : Handle) (message : PendingMessage) (delivery : Option Delivery)
      (dial : List String)
  /-- The log's event at `seq` was delivered to, or came from, the attached runner. -/
  | shared (runner : Handle) (seq : ℤ)
  /-- The log's event at `seq` opens a native turn of the runner. -/
  | opened (runner : Handle) (seq : ℤ)
  /-- The log's event at `seq` is the runner's END of a native turn. -/
  | ended (seq : ℤ)
  /-- The log's event at `seq` is an END the conductor wrote itself. -/
  | closed (seq : ℤ)
  | retuned (runner : Handle) (model effort : String) (took : Bool)
  | compacted (runner : Handle) (took : Bool)
  | interrupted (runner : Handle)
  | stopped (runner : Handle)
  | parked (runner : Handle)
  | adopted (runner : Handle) (nativeId : String) (fresh : Bool)
  | published (event : Event)
  deriving DecidableEq

/-- Everything a step of the conductor may read or change. -/
structure Conf where
  env : Env
  /-- Questions put to the outside while this wake is handled. -/
  calls : ℕ := 0
  /-- Message ids drawn so far. -/
  ids : ℕ := 0
  /-- Runners built so far, over every opening of the session. -/
  built : ℕ := 0
  /-- What happened so far, newest first. -/
  trace : List Obs := []
  chat : Chat

/-- Why the conductor cannot go on. -/
inductive Halt where
  /-- Durable state could not be written. -/
  | failed
  /-- The process died. -/
  | cut
  deriving DecidableEq, Repr

abbrev Conductor := EStateM Halt Conf

namespace Chat

def disk (c : Chat) : Disk := { log := c.store.events, data := c.meta_.data }

/-- The providers this chat will route to: the list it was given, less any set aside. -/
def usable (c : Chat) : List String := c.providers.filter fun provider => !c.benched.contains provider

def signature (c : Chat) (rung : Pick) : Signature :=
  { provider := rung.provider, model := rung.model, effort := rung.effort, config := c.config }

/-- Has the system prompt moved since this runner was brought up? -/
def promptsMoved (c : Chat) : Bool :=
  match c.current with
  | some was => was.config.systemPrompt ≠ c.config.systemPrompt ||
      was.config.appendSystemPrompt ≠ c.config.appendSystemPrompt
  | none => false

/-- Who an event is about: the provider it names, else the one running. -/
def blamed (c : Chat) (provider : String) : String :=
  if provider = "" then (c.runner.map (·.name)).getD "" else provider

/-- What `record` fills in before the store gives an event its position. -/
def stamp (c : Chat) (event : Event) : Event :=
  { event with
    session := if event.session = "" then c.sessionId else event.session
    provider := if event.provider = "" then (c.runner.map (·.name)).getD "" else event.provider
    model :=
      if event.provider = "" ∧ c.runner.isSome ∧ event.model = "" then
        (c.current.map (·.model)).getD ""
      else event.model
    turn := if event.turn < 0 then c.turn else event.turn }

/-- The event as the log will hold it. -/
def logged (c : Chat) (event : Event) : Event := c.store.place c.sessionId (c.stamp event)

@[simp] theorem logged_eventType (c : Chat) (event : Event) :
    (c.logged event).eventType = event.eventType := rfl

@[simp] theorem logged_extra (c : Chat) (event : Event) :
    (c.logged event).extra = event.extra := rfl

@[simp] theorem logged_seq (c : Chat) (event : Event) :
    (c.logged event).seq = c.store.seq + 1 := rfl

/-- One write of the shared snapshot. -/
def settle (c : Chat) (f : Snapshot → Snapshot) : Chat :=
  { c with
    state := { f c.state with inTurn := c.inTurn, queued := c.outbox.length + c.awaiting.length } }

def refresh (c : Chat) : Chat :=
  c.settle fun state =>
    { state with
      ask := c.ask
      providers := c.usable
      cwd := c.config.cwd
      provider := if c.runner.isSome then (c.current.map (·.provider)).getD "" else ""
      model := (c.current.map (·.model)).getD ""
      effort := (c.current.map (·.effort)).getD "" }

/-- History a continuing native session genuinely missed. A fresh native id receives all of it. -/
def historyFor (c : Chat) (provider : String) (since : ℤ) (continuingNative : Bool) : List Event :=
  (c.store.history (max since c.historyStart)).filter fun event =>
    !continuingNative || event.provider ≠ provider || event.late

/-- Every runner still running, the attached one first. -/
def running (c : Chat) : List Handle := c.runner.toList ++ c.parked.map (·.2.runner)

/-- Storage is the source of truth, so losing it ends the session: the notice is published but
never recorded, and nothing stays attached or queued in memory. -/
def abandoned (c : Chat) (action error : String) : Chat :=
  let provider := (c.current.map (·.provider)).getD ""
  let model := (c.current.map (·.model)).getD ""
  let notice := Event.failure (.other "omni") s!"session persistence failed while {action}: {error}"
  let c := { c with
    terminal := true
    stopping := true
    runner := none
    parked := []
    current := none
    runnerEpoch := none
    inTurn := false
    turnRecorded := false
    outbox := []
    awaiting := []
    nextTurns := 0
    unpublished := c.unpublished ++
      [{ (notice.from_ provider).about model with session := c.sessionId, turn := c.turn }] }
  c.settle fun state => { state with status := .stopped, provider := "", model := "", effort := "" }

end Chat

def self : Conductor Chat := (·.chat) <$> get

def change (f : Chat → Chat) : Conductor Unit := modify fun s => { s with chat := f s.chat }

def note (obs : Obs) : Conductor Unit := modify fun s => { s with trace := obs :: s.trace }

def notes (obs : List Obs) : Conductor Unit := modify fun s => { s with trace := obs ++ s.trace }

/-- Put one question to the world outside. -/
def asks {α : Type} (question : Env → ℕ → α) : Conductor α :=
  modifyGet fun s => (question s.env s.calls, { s with calls := s.calls + 1 })

/-- A fresh message id. -/
def newId [Host] : Conductor String :=
  modifyGet fun s => (Host.uuid s.ids, { s with ids := s.ids + 1 })

def stop (runner : Handle) : Conductor Unit := note (.stopped runner)

def stopAll (runners : List Handle) : Conductor Unit :=
  notes (runners.map Obs.stopped).reverse

def persistenceFailed {α : Type} (action error : String) : Conductor α := do
  let c ← self
  notes (if c.inTurn then c.runner.toList.map .interrupted else [])
  stopAll c.running
  change fun c => c.abandoned action error
  throw .failed

/-- Replace the metadata, in memory exactly when the replacement reached the disk. A change that
changes nothing is not written. -/
def tryCommit (edit : MetaData → MetaData) : Conductor (Except String Unit) := do
  let c ← self
  match c.meta_.loadError with
  | some error =>
      return .error s!"existing session metadata could not be loaded: {error}"
  | none =>
      let next := edit c.meta_.data
      if next = c.meta_.data then return .ok ()
      else match ← asks Env.commit with
        | .done =>
            change fun c => { c with meta_.data := next }
            return .ok ()
        | .refused why => return .error why
        | .cut =>
            change fun c => { c with meta_.data := next }
            throw .cut

/-- A metadata change the session cannot go on without. -/
def commit (action : String) (edit : MetaData → MetaData) : Conductor Unit := do
  match ← tryCommit edit with
  | .ok () => pure ()
  | .error why => persistenceFailed action why

/-- Persist an event, then have everyone told. -/
def record (event : Event) : Conductor Event := do
  let c ← self
  match c.store.loadError with
  | some error =>
      persistenceFailed "appending the session event log"
        s!"refusing to append to a corrupt session log: {error}"
  | none =>
      let event := c.logged event
      match ← asks Env.append with
      | .done => change fun c => { c with store := c.store.push event }
      | .refused why => persistenceFailed "appending the session event log" why
      | .unconfirmed why =>
          -- the store in memory stays behind, but nothing reads it any more
          change fun c => { c with store := c.store.push event }
          persistenceFailed "appending the session event log" why
      | .cut =>
          change fun c => { c with store := c.store.push event }
          throw .cut
      change fun c => { c.settle fun state => { state with seq := event.seq } with
        unpublished := c.unpublished ++ [event] }
      return event

def settle (f : Snapshot → Snapshot) : Conductor Unit := change (·.settle f)

def become (status : Status) : Conductor Unit := settle fun state => { state with status }

def refresh : Conductor Unit := change Chat.refresh

/-- Hand on everything recorded while reacting to the last thing that happened. -/
def publish : Conductor Unit :=
  modify fun s =>
    { s with
      trace := (s.chat.unpublished.map Obs.published).reverse ++ s.trace
      chat := { s.chat with unpublished := [] } }

/-- Say what went wrong and go back to waiting, rather than hanging in 'busy'. -/
def blocked (why : String) : Conductor Unit := do
  let _ ← record (Event.failure .crash why)
  become .waiting

end SiliconOmni
