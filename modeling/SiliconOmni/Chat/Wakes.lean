import SiliconOmni.Chat.Turns
import SiliconOmni.Lib.Transition

/-! The conductor thread: opening a session, what arrives on its queue, and how it stops. -/
namespace SiliconOmni

/-- What the conductor is asked to do. -/
inductive Wake where
  | launch
  | launchReady
  | send (text : String)
  | sendDurable (text : String)
  | heard (epoch : ℕ) (report : Report)
  | set (change : Change)
  | configure (changes : List Change)
  /-- Stop, and the runners' events still queued behind it. -/
  | stop (drained : List (ℕ × Report))

/-- Notices that are true of a provider rather than of a moment. -/
def ONCE : List String := ["unsupported", "approximated"]

section
variable [Host]

def launchOnce : Conductor (List Call) := do
  let c ← self
  if c.launchedOnce then return []
  else
    change fun c => { c with launchedOnce := true }
    if c.recovery.isSome then return [.resumeRecovery]
    else if ← ready then return [.flush]
    else return [.attempt "starting up" [.flush]]

/-- Has this provider already told us it cannot do this? -/
def repeated (event : Event) : Conductor Bool := do
  if event.is .config ∧ ONCE.contains event.text then
    let extra := Host.json (.object event.extra)
    let said := event.text ++ "\x01" ++ event.provider ++ "\x01" ++ extra
    if (← self).announced.contains said then return true
    else
      change fun c => { c with announced := said :: c.announced }
      return false
  else return false

def Event.epoch (event : Event) : Option ℕ := (event.extra.lookup RUNNER_EPOCH).bind Value.asNat

/-- Did this come from a provider omni has already moved on from? -/
def straggler (event : Event) : Conductor Bool := do
  let c ← self
  if event.epoch.isSome ∧ c.runnerEpoch ≠ event.epoch then return true
  else match c.runner with
    | none => return false
    | some runner =>
        if event.provider ≠ "" ∧ event.provider ≠ runner.name then return true
        else
          let theirs := (event.extra.lookup GENERATION).bind Value.asNat
          match theirs, ← asks fun env n => env.generation n runner with
          | some event, some current => return event ≠ current
          | _, _ => return false

/-- Context exhaustion is recognized even when an adapter labelled it a generic crash. -/
def Event.reclassified (event : Event) : Event :=
  let extra := Host.json (.object event.extra)
  { event with
    kind :=
      if event.is .error ∧ classify (event.error ++ " " ++ extra) = .contextLimit then .contextLimit
      else event.kind }

/-- The event against the turn its own runner last owned. -/
def Event.returned (event : Event) (c : Chat) : Event :=
  { event with
    turn := if event.turn < 0 then (event.epoch.bind c.epochTurns).getD event.turn else event.turn }

/-- The event without its queue provenance, marked when its runner has been replaced. -/
def Event.admitted (event : Event) (late : Bool) : Event :=
  let extra := Entries.remove (Entries.remove event.extra GENERATION) RUNNER_EPOCH
  { event with extra := if late then Entries.insert extra "late" (.bool true) else extra }

/-- Whether a native compaction is under way. -/
def Chat.compacting (c : Chat) : Bool :=
  c.recovery.any fun recovery => recovery.stage = RecoveryStage.compacting

/-- The attached runner's END closes the turn, which may have failed. -/
def reactToEnd (event : Event) : Conductor (List Call) := do
  let c ← self
  notes (if c.compacting then [] else [.ended event.seq])
  change fun c => { c with inTurn := false, turnRecorded := false }
  if c.recovery.isSome then return [.recoveryEnded event]
  else
    change fun c => { c with turnFailed := none }
    match c.turnFailed with
    | some .contextLimit => return [.recoverContext true]
    | some kind =>
        -- the provider ended the turn on an error it could not get past
        if c.autoremove then return [.failed event.provider kind.name]
        else return [.finishTurn]
    | none => return [.finishTurn]

/-- An error the attached runner will not retry past by itself. -/
def reactToError (event : Event) : Conductor (List Call) := do
  let c ← self
  match c.recovery with
  | some recovery =>
      if event.kind.isClassified then
        change fun c => { c with turnFailed := some event.kind }
        if event.kind = .crash ∨ event.kind = .auth then
          if recovery.stage = .compacting then return [.startHandoff]
          else return [.recoveryFailed event.error]
        else return []
      else return []
  | none =>
      match event.kind with
      | .contextLimit =>
          change fun c => { c with turnFailed := some .contextLimit }
          return []
      | .auth => return [.unauthenticated event.provider]
      | .crash => return [.failed event.provider "crash"]
      | .limit | .unavailable =>
          if c.inTurn then
            change fun c => { c with turnFailed := some event.kind }
            return []
          else return []
      | .other _ => return []

/-- What a recorded event of the attached runner makes the conductor do. -/
def react (event : Event) : Conductor (List Call) := do
  let c ← self
  if c.stopping then
    -- a real END emitted while interrupting wins over the synthetic one
    if event.is .end_ then
      note (.ended event.seq)
      change fun c => { c with inTurn := false, turnRecorded := false, nextTurns := 0 }
      return []
    else return []
  else if event.eventType.isModel then
    change fun c => { c with turnFailed := none }
    become .busy
    return []
  else if event.is .end_ then reactToEnd event
  else if event.is .error ∧ !event.willRetry then reactToError event
  else return []

/-- What a delivery acknowledgement says it opened. -/
def Event.confirmedAs (event : Event) : Option EventType :=
  match (event.extra.lookup CONFIRMED_AS).bind Value.asStr with
  | some "start" => some .start
  | some "injected" => some .injected
  | _ => none

/-- The durable opening event an acknowledgement confirms. -/
def Chat.confirmation (c : Chat) (event : Event) (message : PendingMessage)
    (opening : EventType) : Event :=
  let extra := Entries.insert (Entries.remove event.extra CONFIRMED_AS) MESSAGE_ID
    (.string message.id)
  { event with
    eventType := opening
    turn := if opening = .start then c.turn + 1 else event.turn
    extra :=
      if opening = .start then extra else Entries.insert extra "landed" (.string "same_turn") }

/-- What a confirmed delivery shows of the attached runner. -/
def Chat.confirming (c : Chat) (opening : EventType) (seq : ℤ) : List Obs :=
  match c.runner with
  | some runner =>
      if opening = .start then [.opened runner seq, .shared runner seq] else [.shared runner seq]
  | none => []

/-- Turn a delivery acknowledgement into the one durable user event it confirms. -/
def confirm (event : Event) : Conductor (List Call) := do
  let c ← self
  match c.awaiting, event.confirmedAs with
  | message :: rest, some opening =>
      if message.text = event.text then
        let event ← record (c.confirmation event message opening)
        notes (c.confirming opening event.seq)
        change fun c => { c with turn := max c.turn event.turn }
        rememberRunnerTurn
        completeMessage message.id
        change fun c => { c with awaiting := rest }
        rememberMessage message.text (opening = .start)
        change fun c => { c with turnRecorded := true, inTurn := true }
        become .busy
        return []
      else return []
  | _, _ => return []

/-- A late history event keeps the watermark of the attached runner below its own position. -/
def Chat.ceilingAfter (c : Chat) (event : Event) : Option ℤ :=
  if event.isHistory ∧ c.runner.isSome then
    some ((c.syncCeiling.map (min · (event.seq - 1))).getD (event.seq - 1))
  else c.syncCeiling

def absorb (epoch : ℕ) (report : Report) : Conductor (List Call) := do
  let event := (report.heard epoch).reclassified.returned (← self)
  let late ← straggler event
  let event := event.admitted late
  if ← repeated event then return []
  else if event.is .confirmed then
    if late then return [] else confirm event
  else
    let event ← record event
    let c ← self
    if late then
      -- still logged, but there is nothing left to react to
      change fun c => { c with syncCeiling := c.ceilingAfter event }
      return []
    else
      notes (c.runner.toList.map (.shared · event.seq))
      react event

def saveSetting (key : String) (value : Value) (action : String) : Conductor Unit :=
  commit action (·.setSetting key value)

/-- Make one setting durable, then current; what is recorded about it. -/
def applyChange : Change → Conductor (String × Fields)
  | .providers providers => do
      let value := Value.array (providers.map .string)
      saveSetting "active_providers" value "saving active-provider metadata"
      -- saying the list again is saying every name on it is wanted
      change fun c => { c with providers, benched := [] }
      return ("providers", [("providers", value)])
  | .model ask => do
      saveSetting "ask" ask.toValue "saving model metadata"
      change fun c => { c with ask }
      return ("model", [("ask", ask.toValue)])
  | .systemPrompt text => do
      saveSetting "system_prompt" (.string text) "saving system-prompt metadata"
      change fun c => { c with config.systemPrompt := text }
      return ("system_prompt", [("chars", .number text.length)])
  | .appendSystemPrompt text => do
      saveSetting "append_system_prompt" (.string text) "saving appended-system-prompt metadata"
      change fun c => { c with config.appendSystemPrompt := text }
      return ("append_system_prompt", [("chars", .number text.length)])
  | .subagents on => do
      saveSetting "subagents" (.bool on) "saving subagent metadata"
      -- whether a provider can honour this may have changed
      change fun c => { c with config.disableSubagents := !on, announced := [] }
      return ("subagents", [("on", .bool on)])
  | .mcp on => do
      saveSetting "mcp" (.bool on) "saving MCP metadata"
      change fun c => { c with config.disableMcp := !on, announced := [] }
      return ("mcp", [("on", .bool on)])
  | .autoremove on => do
      saveSetting "autoremove" (.bool on) "saving provider-autoremove metadata"
      change fun c => { c with autoremove := on }
      return ("autoremove_unauthenticated", [("on", .bool on)])
  | .cwd path => do
      let config := (← self).config.at path
      saveSetting "cwd" (.string config.cwd) "saving working-directory metadata"
      change fun c => { c with config }
      return ("cwd", [("cwd", .string config.cwd)])
  | .contextRecovery texts => do
      saveSetting "context_recovery" texts.toValue "saving context recovery texts"
      change fun c => { c with contextRecovery := texts }
      return ("context_recovery", texts.fields)

def apply : List Change → Conductor (List Call)
  | [] => return []
  | change :: rest => do
      let (what, extra) ← applyChange change
      let _ ← record ((Event.config what).extras extra)
      refresh
      return [.apply rest]

end

/-- Put one runner down, out of the turn it may be in, keeping hold of its native session. -/
def dismiss (runner : Handle) : Conductor Unit := do
  if (← self).inTurn then note (.interrupted runner)
  let native ← asks fun env n => env.nativeId n runner
  if native ≠ "" then
    match ← tryCommit (·.bind runner.name native) with
    | .ok () => pure ()
    | .error why =>
        stop runner
        persistenceFailed "saving a provider session id" why
  stop runner

def release : Conductor Unit := do
  match (← self).runner with
  | some runner =>
      change fun c => { c with runner := none }
      dismiss runner
  | none => pure ()

/-- Put every runner down; what they say on their way out is still to be heard. -/
def shutdown : Conductor (List Call) := do
  change fun c => { c with stopping := true }
  release
  let c ← self
  change fun c => { c with parked := [] }
  stopAll (c.parked.map (·.2.runner))
  return []

/-- The END of a turn the runners left open. -/
def closeLast : Conductor Unit := do
  let c ← self
  if c.inTurn ∧ c.turnRecorded then
    let provider := (c.current.map (·.provider)).getD ""
    let model := (c.current.map (·.model)).getD ""
    let event ← record ((((Event.new .end_).from_ provider).about model
      |>.with_ "interrupted" (.bool true)).with_ "stopped" (.bool true))
    note (.closed event.seq)

/-- Close the turn that is still open, and give back what was never echoed. -/
def stopped : Conductor (List Call) := do
  change fun c => { c with runnerEpoch := none }
  closeLast
  change fun c =>
    { c with
      inTurn := false
      turnRecorded := false
      nextTurns := 0
      outbox := c.awaiting ++ c.outbox
      awaiting := [] }
  let _ ← record (Event.config "stop")
  become .stopped
  return []

section
variable [Host]

/-- Run one call, and answer with the calls its body ends by making. -/
def run : Call → Conductor (List Call)
  | .launchOnce => launchOnce
  | .enqueue text => enqueue text
  | .dispatchQueued => dispatchQueued
  | .flush => flush
  | .deliver => deliver
  | .refused why => refused why
  | .attempt why next => attempt why next
  | .replace rung why next => attemptReplace rung why next
  | .absorb epoch report => absorb epoch report
  | .unauthenticated provider => unauthenticated provider
  | .failed provider kind => failed provider kind
  | .recoverContext delivered => recoverContext delivered
  | .startHandoff => startHandoff
  | .recoveryMessage stage text fresh => recoveryMessage stage text fresh
  | .recoveryEnded end_ => recoveryEnded end_
  | .recoveryFailed why => recoveryFailed why
  | .resumeRecovery => resumeRecovery
  | .finishTurn => finishTurn
  | .settleIdle => settleIdle
  | .apply changes => apply changes
  | .shutdown => shutdown
  | .stopped => stopped
  | .publish => do
      publish
      return []

/-- What the conductor thread does with one wake. -/
def Wake.calls : Wake → List Call
  | .launch | .launchReady => [.launchOnce, .publish]
  | .send text => [.enqueue text, .dispatchQueued, .publish]
  -- the daemon's request is answered between the two halves
  | .sendDurable text => [.enqueue text, .publish, .dispatchQueued, .publish]
  | .heard epoch report => [.absorb epoch report, .publish]
  | .set change => [.apply [change], .publish]
  | .configure changes => [.apply changes, .publish]
  | .stop drained =>
      .shutdown :: drained.map (fun (epoch, report) => .absorb epoch report) ++
        [.stopped, .publish]

/-- The runner epochs a wake's events carry. -/
def Wake.epochs : Wake → List ℕ
  | .heard epoch _ => [epoch]
  | .stop drained => drained.map (·.1)
  | _ => []

end
end SiliconOmni
