import SiliconOmni.Chat.Runners

/-! Turns: delivering queued messages, closing turns, and replacing a full native session. A
function that ends by calling others answers with the calls still to make. -/
namespace SiliconOmni

/-- A setting the next turn boundary will pick up. -/
inductive Change where
  | providers (providers : List String)
  | model (ask : Ask)
  | systemPrompt (text : String)
  | appendSystemPrompt (text : String)
  | subagents (on : Bool)
  | mcp (on : Bool)
  | autoremove (on : Bool)
  | cwd (path : String)
  | contextRecovery (texts : ContextRecovery)
  deriving DecidableEq, Repr

/-- A call the conductor has still to make while it handles a wake. -/
inductive Call where
  | launchOnce
  | enqueue (text : String)
  | dispatchQueued
  | flush
  /-- One round of the loop in `flush`. -/
  | deliver
  /-- A send the runner turned down, and why. -/
  | refused (why : String)
  /-- One round of the loop in `attempt`; `next` is what its caller does when it succeeds. -/
  | attempt (why : String) (next : List Call)
  /-- The rest of that round, where nothing could be changed in place. -/
  | replace (rung : Pick) (why : String) (next : List Call)
  /-- An event as the ear of the runner with that epoch posted it. -/
  | absorb (epoch : ℕ) (report : Report)
  | unauthenticated (provider : String)
  | failed (provider kind : String)
  | recoverContext (delivered : Bool)
  | startHandoff
  | recoveryMessage (stage : RecoveryStage) (text : String) (fresh : Bool)
  | recoveryEnded (end_ : Event)
  | recoveryFailed (why : String)
  | resumeRecovery
  | finishTurn
  /-- What `finish_turn` does after its flush. -/
  | settleIdle
  | apply (changes : List Change)
  | shutdown
  /-- What `shutdown` does after its drain. -/
  | stopped
  | publish

section
variable [Host]

/-- Is there anywhere left to go? If the rest were only set aside, they all get another chance on
the next send. -/
def anyoneLeft : Conductor Bool := do
  let c ← self
  if c.usable ≠ [] then return true
  else if c.providers = [] then
    blocked "every provider is unauthenticated; log one back in and send again"
    return false
  else
    change fun c => { c with benched := [] }
    refresh
    blocked "every provider failed; send again to try them all once more"
    return false

/-- A provider is off the dial: put down whatever it had parked, say so. -/
def movedOn (name why : String) : Conductor Unit := do
  match (← self).parked.lookup name with
  | some stale =>
      change fun c => { c with parked := c.parked.remove name }
      stop stale.runner
  | none => pure ()
  let left := (← self).usable
  let _ ← record (((Event.config "provider_removed").from_ name |>.with_ "why" (.string why))
    |>.with_ "left" (.array (left.map .string)))
  refresh

/-- Take a provider off this chat's dial without taking it off the chat. `false` means it was not
on the dial, or nobody is left to move to. -/
def sideline (name why : String) : Conductor Bool := do
  let c ← self
  if c.providers.contains name ∧ !c.benched.contains name then
    change fun c => { c with benched := name :: c.benched }
    movedOn name why
    anyoneLeft
  else return false

/-- One that will not start is set aside and the next on the dial is tried. A dial that resolves
to nothing at all is a different failure, and is only reported. -/
def notStarted (why err : String) (next : List Call) : Conductor (List Call) := do
  let culprit := match ← rung with
    | .ok rung => rung.provider
    | .error _ => ""
  let message := s!"could not start a provider ({why}): {err}"
  if culprit = "" ∨ !(← self).autoremove then
    blocked message
    return []
  else
    let _ ← record ((Event.failure .crash message).from_ culprit)
    if ← sideline culprit "would not start" then return [.attempt why next] else return []

/-- Bring a provider up, and survive it refusing to come up: the round up to a change in place. -/
def attempt (why : String) (next : List Call) : Conductor (List Call) := do
  match ← rung with
  | .ok rung => if ← retuneInPlace rung then return next else return [.replace rung why next]
  | .error err => notStarted why err next

def attemptReplace (rung : Pick) (why : String) (next : List Call) : Conductor (List Call) := do
  match ← replace rung with
  | .ok () => return next
  | .error err => notStarted why err next

/-- How the attached runner is put down: a turn it is in the middle of is interrupted first. -/
def Chat.puttingDown (c : Chat) : List Obs :=
  match c.runner with
  | some runner => .stopped runner :: if c.inTurn then [.interrupted runner] else []
  | none => []

def putDown : Conductor Unit := do
  notes (← self).puttingDown
  change fun c => { c with runner := none, runnerEpoch := none }

/-- New deliveries of everything delivered to native turns that have not ended. -/
def drawRetries : Conductor (List PendingMessage) :=
  modifyGet fun s =>
    let texts := s.chat.unanswered.flatten
    (texts.mapIdx fun i text => { id := Host.uuid (s.ids + i), text },
      { s with ids := s.ids + texts.length })

/-- Queue again, ahead of newer work, what was written but never echoed; and ahead of that, for a
retry, what was delivered but not finished. -/
def requeue (retry : Bool) : Conductor Unit := do
  -- a write that was never echoed was never delivered
  change fun c => { c with outbox := c.awaiting ++ c.outbox, awaiting := [] }
  if retry ∧ (← self).unanswered ≠ [] then
    let messages ← drawRetries
    commit "saving failed messages for retry" (·.retry messages)
    change fun c => { c with outbox := messages ++ c.outbox }
  change fun c => { c with unanswered := [], turnFailed := none, nextTurns := 0 }

/-- Put the runner down and end the turn it was in the middle of. -/
def closeTurn (provider : String) (extra : Fields) (retry : Bool) : Conductor Unit := do
  putDown
  requeue retry
  let c ← self
  if c.inTurn ∧ c.turnRecorded then
    change fun c => { c with inTurn := false, turnRecorded := false }
    let event ← record (((Event.new .end_).from_ provider).extras extra)
    note (.closed event.seq)
  change fun c => { c with inTurn := false }
  change fun c => c.settle fun state =>
    { state with status := if retry ∧ c.outbox ≠ [] then .busy else .waiting }

/-- A provider that could not carry the turn: close the turn, set it aside, move the chat. -/
def failed (provider kind : String) : Conductor (List Call) := do
  let c ← self
  let name := c.blamed provider
  closeTurn name [("failed", .string kind)] c.autoremove
  if !c.autoremove then return []
  else if c.providers.contains name then
    if ← sideline name kind then return [.attempt "provider failed" [.flush]] else return []
  else return [.attempt "provider failed" [.flush]]

/-- A provider lost its login mid-run. Take it off the chat, durably, and move on. -/
def unauthenticated (provider : String) : Conductor (List Call) := do
  let c ← self
  let name := c.blamed provider
  closeTurn name [("unauthenticated", .string name)] c.autoremove
  if !c.autoremove then return []
  else if !c.providers.contains name then
    return [.attempt "provider lost its login" [.flush]]
  else
    let remaining := c.providers.filter (· ≠ name)
    commit "saving an automatically-removed provider"
      (·.setSetting "active_providers" (.array (remaining.map .string)))
    change fun c =>
      { c with providers := remaining, benched := c.benched.filter (· ≠ name) }
    movedOn name "unauthenticated"
    if ← anyoneLeft then return [.attempt "provider lost its login" [.flush]] else return []

/-- The message a next recovery state retires: a synthesized retry that a handoff replaces. -/
def superseded (old next : Option Recovery) : Option String := do
  let next ← next
  let old ← old
  if next.stage = .handoff ∧ old.stage = .retrying ∧ old.retry ≠ "" then some old.messageId
  else none

def saveRecovery (recovery : Option Recovery) (since : Option ℤ)
    (message : Option PendingMessage) : Conductor Unit := do
  let gone := superseded (← self).recovery recovery
  commit "saving context recovery"
    (·.recover ((recovery.map Recovery.toValue).getD .null) since message gone)
  change fun c =>
    { c with
      recovery
      outbox := message.toList ++ MetaData.without gone c.outbox
      awaiting := MetaData.without gone c.awaiting
      historyStart := since.getD c.historyStart
      compactionDeadline :=
        c.compactionDeadline && recovery.any fun r => r.stage = .compacting }

/-- Try the provider's own compaction once, then a text-only handoff once. -/
def recoverContext (delivered : Bool) : Conductor (List Call) := do
  let c ← self
  let opened := (c.store.history c.historyStart).filter fun event =>
    event.turn = c.turn ∧ event.isOpening
  let retry := if delivered then "\n\n".intercalate (opened.map (·.text)) else ""
  saveRecovery (some { stage := .compacting, messageId := "", retry }) none none
  change fun c => { c with turnFailed := none }
  match c.runner with
  | some runner =>
      let answer ← asks fun env n => env.compact n runner
      note (.compacted runner (answer.toOption = some true))
      if answer.toOption = some true then
        change fun c => { c with compactionDeadline := true, inTurn := true }
        become .busy
        let _ ← record (Event.config "context_compaction")
        return []
      else return [.startHandoff]
  | none => return [.startHandoff]

/-- End the turn and put every runner down, so that the next message opens a clean session. -/
def startClean : Conductor Unit := do
  closeTurn ((← self).blamed "") [("context_limit", .bool true)] false
  let c ← self
  change fun c => { c with parked := [] }
  stopAll (c.parked.map (·.2.runner))

/-- Queue a message of recovery's own in front of everything else, as its next stage. -/
def queueRecovery (stage : RecoveryStage) (text : String) (fresh : Bool) : Conductor Unit := do
  let message : PendingMessage := { id := ← newId, text }
  note (.synthesized message)
  let recovery : Recovery :=
    { stage, messageId := message.id, retry := if stage = .retrying then text else "" }
  let seq := (← self).store.seq
  saveRecovery (some recovery) (if fresh then some (seq + 1) else none) (some message)
  change fun c => { c with turnFailed := none }
  become .busy

def recoveryMessage (stage : RecoveryStage) (text : String) (fresh : Bool) :
    Conductor (List Call) := do
  if fresh then
    startClean
    queueRecovery stage text true
  else queueRecovery stage text false
  return [.dispatchQueued]

def startHandoff : Conductor (List Call) := do
  let c ← self
  let history := (c.store.history c.historyStart).filter fun event =>
    event.isOpening || event.is .text
  let transcript := flatten history c.contextRecovery.transcriptHeader
  let text :=
    if transcript = "" then c.contextRecovery.limitMessage
    else transcript ++ "\n\n" ++ c.contextRecovery.limitMessage
  return [.recoveryMessage .handoff text true]

def recoveryFailed (why : String) : Conductor (List Call) := do
  let provider := (← self).blamed ""
  closeTurn provider [("context_recovery_failed", .bool true)] false
  saveRecovery none none none
  -- no recursive recovery: even the text alone can exceed a window
  let _ ← record (((Event.failure .contextLimit why).from_ provider).with_ "recovery_failed"
    (.bool true))
  refresh
  return []

/-- Whether a turn of recovery did not complete, going by its END. -/
def Event.unfinished (end_ : Event) : Bool :=
  end_.interrupted ||
    (match (end_.extra.lookup "status").bind Value.asStr with
      | some status => status = "failed" || status = "interrupted"
      | none => false)

def recoveryEnded (end_ : Event) : Conductor (List Call) := do
  let c ← self
  let failure := c.turnFailed
  change fun c =>
    { c with inTurn := false, turnRecorded := false, unanswered := [], turnFailed := none }
  let failed := failure.isSome || end_.unfinished
  match c.recovery with
  | none => return []
  | some recovery =>
      if recovery.stage = .compacting then
        if failed then return [.startHandoff]
        else if recovery.retry ≠ "" then
          return [.recoveryMessage .retrying recovery.retry false]
        else match c.outbox with
          | message :: _ =>
              saveRecovery (some { stage := .retrying, messageId := message.id, retry := "" })
                none none
              return [.dispatchQueued]
          | [] =>
              saveRecovery none none none
              return [.finishTurn]
      else if recovery.stage = .retrying ∧ failure = some .contextLimit then
        return [.startHandoff]
      else if failed then
        return [.recoveryFailed
          ((failure.map ErrorKind.name).getD "recovery turn did not complete")]
      else if recovery.stage = .handoff then
        return [.recoveryMessage .continuing c.contextRecovery.newSessionMessage true]
      else match recovery.stage, c.outbox with
        | .continuing, message :: _ | .resuming, message :: _ =>
            -- a rejected queued message gets one attempt in the clean session
            saveRecovery (some { recovery with stage := .resuming, messageId := message.id })
              none none
            return [.dispatchQueued]
        | _, _ =>
            saveRecovery none none none
            if ← runnerAlive then return [.finishTurn]
            else return [.attempt "resuming recovered session" [.finishTurn]]

/-- The failure a turn of recovery ended on, refolded from the log. -/
def refoldFailure (events : List Event) (opening end_ : Event) : Option ErrorKind :=
  (events.filter fun event =>
      decide (opening.seq < event.seq) && decide (event.seq < end_.seq) &&
        decide (event.turn = opening.turn) && !event.late).foldl
    (fun failure event =>
      if event.is .error ∧ event.kind.isClassified ∧ !event.willRetry then some event.kind
      else if event.eventType.isModel then none
      else failure) none

/-- A durable handoff must still rotate if the daemon stopped after END. -/
def resumeRecovery : Conductor (List Call) := do
  let c ← self
  match c.recovery with
  | none => return []
  | some recovery =>
      if recovery.stage = .compacting then return [.startHandoff]
      else if c.outbox.any (·.id = recovery.messageId) then
        return [.attempt "resuming context recovery" [.flush]]
      else
        let events := c.store.eventsSince c.historyStart
        match events.find? fun event => event.messageId = some recovery.messageId with
        | none => return [.attempt "resuming context recovery" [.flush]]
        | some opening =>
            match events.find? fun event => decide (opening.seq < event.seq) &&
                decide (event.turn = opening.turn) && event.is .end_ && !event.late with
            | some end_ =>
                if end_.interrupted then return [.startHandoff]
                else
                  change fun c => { c with turnFailed := refoldFailure events opening end_ }
                  return [.recoveryEnded end_]
            | none => return [.startHandoff]

/-- The attached runner has been told everything up to here, but for what came in late. -/
def markTold : Conductor Unit := do
  let c ← self
  match c.runner with
  | some runner =>
      commit "saving a provider watermark"
        (·.markSynced runner.name (c.syncCeiling.getD c.store.seq))
  | none => pure ()

def finishTurn : Conductor (List Call) := do
  change fun c => { c with unanswered := c.unanswered.tail }
  let c ← self
  if 0 < c.nextTurns then
    -- the END is a boundary in the stream, but a later native turn is already queued
    change fun c => { c with nextTurns := c.nextTurns - 1, inTurn := true, turnRecorded := true }
    become .busy
    return []
  else
    markTold
    if c.awaiting ≠ [] then
      change fun c => { c with inTurn := true }
      become .busy
      return []
    else if ← stale then
      become .busy
      return [.attempt "settings changed" [.flush, .settleIdle]]
    else return [.flush, .settleIdle]

def settleIdle : Conductor (List Call) := do
  let c ← self
  if !c.inTurn ∧ c.outbox = [] ∧ c.awaiting = [] then become .waiting
  return []

/-- Put a message in the transactional outbox, and tell its sender. No provider work yet. -/
def enqueue (text : String) : Conductor (List Call) := do
  let message : PendingMessage := { id := ← newId, text }
  commit "saving an accepted user message" (·.enqueue message)
  change fun c => { c with outbox := c.outbox ++ [message] }
  become .busy
  note (.accepted message)
  return []

/-- Make sure something can carry what is queued, then hand it over. -/
def dispatchQueued : Conductor (List Call) := do
  if ← runnerAlive then
    if (← self).inTurn then return [.flush]
    else if ← stale then return [.attempt "settings changed" [.flush]]
    else return [.flush]
  else return [.attempt "no provider is running" [.flush]]

/-- Hand queued messages over, never to a runner we are about to replace. -/
def flush : Conductor (List Call) := do
  if ← ready then return [.deliver]
  else
    let c ← self
    if c.outbox ≠ [] then
      if !(← runnerAlive) then
        let queued := c.outbox.length
        blocked s!"nothing is running; {queued} message(s) still queued"
    return []

/-- Recovery delivers its own message only. -/
def Chat.holdsBack (c : Chat) (message : PendingMessage) : Bool :=
  match c.recovery with
  | some recovery => recovery.stage = .compacting || recovery.messageId ≠ message.id
  | none => false

/-- Delivered messages with one more, which joins the current native turn or opens a later one. -/
def remembered (unanswered : List (List String)) (text : String) (nextTurn : Bool) :
    List (List String) :=
  match nextTurn, unanswered with
  | false, current :: later => (current ++ [text]) :: later
  | _, groups => groups ++ [[text]]

def rememberMessage (text : String) (nextTurn : Bool) : Conductor Unit :=
  change fun c => { c with unanswered := remembered c.unanswered text nextTurn }

def completeMessage (id : String) : Conductor Unit :=
  commit "retiring a delivered user message" (·.complete id)

/-- The opening event of a message the runner took. -/
def Chat.opening (c : Chat) (message : PendingMessage) (delivery : Delivery) : Event :=
  let event := ((Event.new (if c.inTurn then .injected else .start)).saying message.text).with_
    MESSAGE_ID (.string message.id)
  if c.inTurn then
    event.with_ "landed" (.string (if delivery = .nextTurn then "next_turn" else "same_turn"))
  else { event with turn := c.turn + 1 }

/-- One round of the loop in `flush`. A delivery is recorded only once the runner has taken it. -/
def deliver : Conductor (List Call) := do
  let c ← self
  match c.outbox, c.runner with
  | message :: rest, some runner =>
      if c.holdsBack message then return []
      else
        let sent ← asks fun env n => env.send n runner
        note (.sent runner message sent.toOption c.usable)
        match sent with
        | .error why => return [.refused why]
        | .ok .echoed =>
            -- START or INJECTED waits for the replay that will make it durable
            change fun c =>
              { c with awaiting := c.awaiting ++ [message], outbox := rest, inTurn := true }
            become .busy
            return [.deliver]
        | .ok delivery =>
            let event ← record (c.opening message delivery)
            let queued : Bool := delivery = .nextTurn ∧ c.inTurn
            notes (if queued || !c.inTurn then [.opened runner event.seq, .shared runner event.seq]
              else [.shared runner event.seq])
            change fun c =>
              { c with
                turn := max c.turn event.turn
                nextTurns := if queued then c.nextTurns + 1 else c.nextTurns }
            rememberRunnerTurn
            completeMessage message.id
            rememberMessage message.text queued
            change fun c =>
              { c with outbox := rest, turnRecorded := true, inTurn := true }
            become .busy
            return [.deliver]
  | _, _ => return []

/-- A refused send: the message stays queued, and the provider is dealt with. -/
def refused (why : String) : Conductor (List Call) := do
  let c ← self
  let name := (c.runner.map (·.name)).getD ""
  if classify why = .contextLimit then
    let _ ← record ((Event.failure .contextLimit why).from_ name)
    if c.recovery.isSome then
      change fun c => { c with turnFailed := some .contextLimit }
      return [.recoveryEnded (Event.new .end_)]
    else if c.inTurn then
      -- an active native turn still owns its END
      change fun c => { c with turnFailed := some .contextLimit }
      return []
    else return [.recoverContext false]
  else if c.recovery.isSome then return [.recoveryFailed why]
  else
    let kind := classify why
    let error ← record ((Event.failure kind s!"{name} would not take the message: {why}").from_
      name)
    if kind = .auth then return [.unauthenticated error.provider]
    else return [.failed name kind.name]

end
end SiliconOmni
