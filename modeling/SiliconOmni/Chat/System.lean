import SiliconOmni.Chat.Wakes

/-! A session over all its openings: the conductor reacting to one wake after another, stopping,
dying at any durable step, and being opened again from what it left on disk. -/
namespace SiliconOmni

/-- The ids of the messages whose opening event is in the log. -/
def deliveredIds (log : List Event) : List String :=
  (log.filter Event.isOpening).filterMap Event.messageId

section
variable [Host]

namespace Chat

/-- A chat that has read its two files and nothing more. -/
def loaded (sessionId : String) (disk : Disk) : Chat :=
  let store := Store.open_ sessionId disk.log
  let meta_ := Meta.open_ disk.data
  let error := match store.loadError, meta_.loadError with
    | some error, _ => some s!"loading existing session log: {error}"
    | none, some error => some s!"loading existing session metadata: {error}"
    | none, none => none
  { sessionId, store, meta_
    providers := []
    ask := .default
    config := Config.default
    contextRecovery := {}
    recovery := none
    historyStart := 0
    state := {
      session := sessionId, status := .idle, ask := .default, providers := [], cwd := Host.here
      seq := store.seq, queued := 0 }
    outbox := []
    turn := store.turn
    startupError := error
    autoremove := true }

/-- The first error found while opening is the one reported. -/
def orError (c : Chat) (error : String) : Chat :=
  { c with startupError := c.startupError.or (some error) }

/-- Read back the recovery state. -/
def restoreState (c : Chat) : Chat :=
  match c.meta_.data.get MetaData.RECOVERY with
  | none => c
  | some value => match Recovery.ofValue value with
    | some recovery =>
        let c := { c with recovery := some recovery }
        if recovery.stage ≠ RecoveryStage.compacting ∧ recovery.messageId = "" then
          c.orError "loading context recovery: message id is missing"
        else c
    | none => c.orError "loading context recovery: not a recovery state"

/-- Read back the history boundary. -/
def restoreHistory (c : Chat) : Chat :=
  match c.meta_.data.get MetaData.HISTORY_START with
  | none => c
  | some value => match value.asInt.filter fun since => 0 ≤ since ∧ since ≤ c.store.seq + 1 with
    | some since => { c with historyStart := since }
    | none => c.orError "loading context recovery: invalid history boundary"

def restoreRecovery (c : Chat) : Chat := c.restoreState.restoreHistory

/-- What this session was last told to run; a number on its own is an older spelling of the
dial. -/
def storedAsk (data : MetaData) : Option Ask := do
  let value ← (data.setting "ask").or (data.get "ask")
  match value.asI64 with
  | some number => return .intelligence number none
  | none => Ask.ofValue value

/-- The directory pinned to the session, else the one the opening client offers. -/
def storedCwd (data : MetaData) (openingCwd : Option String) : Option String :=
  ((((data.setting "cwd").bind Value.asStr).or ((data.get "cwd").bind Value.asStr)).filter
    (· ≠ "")).or (openingCwd.filter (· ≠ ""))

/-- Read back the settings, with the opening client's providers and directory as fallbacks. -/
def restoreSettings (c : Chat) (providers : List String) (openingCwd : Option String) : Chat :=
  let data := c.meta_.data
  let text (key : String) : String := ((data.setting key).bind Value.asStr).getD ""
  let on (key : String) (default : Bool) : Bool :=
    ((data.setting key).bind Value.asBool).getD default
  let config := (Config.default).at ((storedCwd data openingCwd).getD Host.here)
  { c with
    ask := (storedAsk data).getD .default
    providers := ((data.setting "active_providers").bind Value.asStrings).getD providers
    config := { config with
      systemPrompt := text "system_prompt"
      appendSystemPrompt := text "append_system_prompt"
      disableSubagents := !on "subagents" false
      disableMcp := !on "mcp" false }
    autoremove := on "autoremove" true
    contextRecovery :=
      ((data.setting "context_recovery").bind ContextRecovery.ofValue).getD {} }

/-- The settings as they are pinned when a session is first opened. -/
def settings (c : Chat) : Fields :=
  [("active_providers", .array (c.providers.map .string)),
    ("ask", c.ask.toValue),
    ("system_prompt", .string c.config.systemPrompt),
    ("append_system_prompt", .string c.config.appendSystemPrompt),
    ("subagents", .bool !c.config.disableSubagents),
    ("mcp", .bool !c.config.disableMcp),
    ("autoremove", .bool c.autoremove),
    ("cwd", .string c.config.cwd),
    ("context_recovery", c.contextRecovery.toValue)]

/-- The chat with its outbox and the snapshot others see first. -/
def opened (c : Chat) : Chat :=
  { c with
    outbox := c.meta_.data.pending
    state := {
      session := c.sessionId, status := .idle, ask := c.ask, providers := c.providers
      cwd := c.config.cwd, seq := c.store.seq, queued := c.meta_.data.pending.length } }

end Chat

/-- Write to the metadata while opening: a failure is kept for `run` to report. -/
def openCommit (what : String) (edit : MetaData → MetaData) : Conductor Unit := do
  if (← self).startupError.isNone then
    match ← tryCommit edit with
    | .ok () => pure ()
    | .error why => change fun c => c.orError s!"{what}: {why}"

/-- What the files say of messages and recovery. -/
def openFiles : Conductor Unit := do
  change Chat.restoreRecovery
  let delivered := deliveredIds (← self).store.events
  openCommit "reconciling delivered messages" (·.reconcile delivered)

/-- The settings, pinned to the session when it is first opened. -/
def openSettings (providers : List String) (openingCwd : Option String) : Conductor Unit := do
  change fun c => c.restoreSettings providers openingCwd
  let settings := (← self).settings
  openCommit "initializing session settings" (·.initializeSettings settings)
  change Chat.opened

/-- Open a session from its files. -/
def openAt (providers : List String) (openingCwd : Option String) : Conductor Unit := do
  openFiles
  openSettings providers openingCwd

/-- The conductor thread up to its first wait. -/
def begin_ : Conductor Unit := do
  match (← self).startupError with
  | some error => persistenceFailed "opening durable session state" error
  | none => become .waiting

end

/-- A session: its conductor, what is left to do for the wake being handled, and whether the
conductor has ended. -/
structure System where
  conf : Conf
  stack : List Call := []
  ended : Bool := false

inductive Move where
  /-- The next wake arrives. -/
  | receive (wake : Wake) (env : Env)
  /-- The call on top of the stack is run. -/
  | advance
  /-- A compaction took longer than its deadline. -/
  | deadline (env : Env)
  /-- The process is gone, and the session is opened again. -/
  | reopen (providers : List String) (cwd : Option String) (env : Env)

namespace System
variable [Host]

/-- Open the session `sessionId` on `disk`, after everything `past` saw. -/
def opening (sessionId : String) (disk : Disk) (past : Conf) (providers : List String)
    (cwd : Option String) (env : Env) : System :=
  let conf := { past with env, calls := 0, chat := Chat.loaded sessionId disk }
  match (do openAt providers cwd; begin_ : Conductor Unit) conf with
  | .ok () conf => { conf }
  | .error _ conf => { conf, ended := true }

/-- A session opened for the first time. -/
def fresh (sessionId : String) (providers : List String) (cwd : Option String) (env : Env) :
    System :=
  opening sessionId {} { env, chat := Chat.loaded sessionId {} } providers cwd env

/-- Whether the conductor waits for its next wake. With a compaction under way it waits only as
long as its deadline, and not at all when none is set. -/
def waiting (s : System) : Bool :=
  s.stack.isEmpty && !s.ended && (!s.conf.chat.compacting || s.conf.chat.compactionDeadline)

/-- Run the top call; an error ends the conductor, which still publishes what it has unless the
process died. -/
def advance (s : System) : Option System :=
  match s.ended, s.stack with
  | false, call :: rest =>
      match run call s.conf with
      | .ok calls conf =>
          let stack := calls ++ rest
          some { conf, stack, ended := stack.isEmpty && conf.chat.stopping }
      | .error .failed conf =>
          match publish conf with
          | .ok () conf | .error _ conf => some { conf, ended := true }
      | .error .cut conf => some { conf, ended := true }
  | _, _ => none

def step (s : System) : Move → Option System
  | .receive wake env =>
      if s.waiting ∧ ∀ epoch ∈ wake.epochs, epoch < s.conf.chat.nextRunnerEpoch then
        some { s with conf := { s.conf with env, calls := 0 }, stack := wake.calls }
      else none
  | .advance => s.advance
  | .deadline env =>
      if s.stack.isEmpty ∧ !s.ended ∧ s.conf.chat.compacting then
        some { s with
          conf := { s.conf with env, calls := 0 }, stack := [.startHandoff, .publish] }
      else none
  | .reopen providers cwd env =>
      some (opening s.conf.chat.sessionId s.conf.chat.disk s.conf providers cwd env)

/-- Every way a session can be first opened, and every move after that. -/
def machine : Lib.Machine System Move where
  init s := ∃ sessionId providers cwd env, s = fresh sessionId providers cwd env
  step := step

/-- The states some run reaches whose moves all meet `ok`. -/
abbrev Reach (ok : System → Move → Prop) : System → Prop := machine.Reach ok

/-- The states of all runs. -/
abbrev Reachable : System → Prop := Reach fun _ _ => True

/-- A run of the session from its first opening. -/
def after (sessionId : String) (providers : List String) (env : Env) (moves : List Move) :
    Option System :=
  machine.exec (fresh sessionId providers none env) moves

theorem reachable_after {sessionId : String} {providers : List String} {env : Env}
    {moves : List Move} {s : System} (h : after sessionId providers env moves = some s) :
    Reachable s := by
  have start : Reachable (fresh sessionId providers none env) :=
    .init ⟨sessionId, providers, none, env, rfl⟩
  exact start.exec (Lib.Machine.along_of_forall (fun _ _ => trivial) _ _) h

end System
end SiliconOmni
