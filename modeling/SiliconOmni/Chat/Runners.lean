import SiliconOmni.Chat.State

/-! Bringing runners up, setting them aside, and taking them back. -/
namespace SiliconOmni

def runnerAlive : Conductor Bool := do
  match (← self).runner with
  | some runner => asks fun env n => env.alive n runner
  | none => return false

section
variable [Host]

/-- What the current settings ask for. -/
def rung : Conductor (Except String Pick) := do
  let c ← self
  let registry ← asks Env.registry
  return resolve registry c.ask c.usable

/-- Has anything been asked for that the running CLI cannot honour? A dial we can no longer
resolve counts. -/
def stale : Conductor Bool := do
  match (← self).current with
  | none => return false
  | some current =>
      match ← rung with
      | .ok rung => return current ≠ (← self).signature rung
      | .error _ => return true

/-- Is what the settings ask for up and running? -/
def ready : Conductor Bool := do
  if ← runnerAlive then return !(← stale) else return false

end

/-- Is this only a model or effort change on the provider already running? -/
def tunable (rung : Pick) : Conductor Bool := do
  let c ← self
  match c.current with
  | none => return false
  | some current =>
      if ← runnerAlive then
        let wanted := c.signature rung
        return current.provider = wanted.provider ∧ current.config = wanted.config ∧
          (current.model, current.effort) ≠ (wanted.model, wanted.effort)
      else return false

def rememberRunnerTurn : Conductor Unit :=
  change fun c =>
    { c with
      epochTurns := match c.runnerEpoch with
        | some epoch => Function.update c.epochTurns epoch (some c.turn)
        | none => c.epochTurns }

def retune (runner : Handle) (rung : Pick) : Conductor Bool := do
  let took ← asks fun env n => env.retune n runner
  note (.retuned runner rung.model rung.effort took)
  return took

/-- The first half of `rebuild`: change the running provider's model or effort without a restart,
if nothing else is wanted and it agrees. -/
def retuneInPlace (rung : Pick) : Conductor Bool := do
  if ← tunable rung then
    match (← self).runner with
    | none => return false
    | some runner =>
        if ← retune runner rung then
          change fun c => { c with current := some (c.signature rung) }
          let _ ← record ((((Event.config "retune").from_ rung.provider).about rung.model
            |>.with_ "effort" (.string rung.effort)).with_ "fast" (.bool rung.fast))
          refresh
          return true
        else return false
  else return false

/-- Set a provider aside still running, so coming back costs nothing. One that fixes its
instructions when a session is opened is let go instead when its prompt has changed. -/
def park (runner : Handle) : Conductor Unit := do
  let name := runner.name
  let epoch := (← self).runnerEpoch
  change fun c => { c with runnerEpoch := none }
  let native ← asks fun env n => env.nativeId n runner
  if native ≠ "" ∧ !retunesInstructions name ∧ (← self).promptsMoved then
    stop runner
    let bound ← tryCommit (·.bind name "")
    let marked ← tryCommit (·.markSynced name (-1))
    match bound, marked with
    | .ok (), .ok () =>
        change fun c => { c with parked := c.parked.remove name }
        let _ ← record (((Event.config "reopening").from_ name |>.with_ "was" (.string native))
          |>.with_ "why" (.string "its system prompt is fixed when the session is opened"))
    | .error why, _ | .ok (), .error why =>
        persistenceFailed "releasing a provider session whose prompt changed" why
  else
    if native ≠ "" then
      match ← tryCommit (·.bind name native) with
      | .ok () => pure ()
      | .error why =>
          stop runner
          persistenceFailed "saving a provider session id" why
    let c ← self
    let synced := (c.meta_.data.native name).synced
    let parkable ← asks fun env n => env.parkable n runner
    match parkable, c.current with
    | true, some signature =>
        note (.parked runner)
        change fun c =>
          { c with parked := c.parked.insert name { runner, epoch, signature, synced } }
    | _, _ => stop runner

/-- Take a parked provider back, if it can be brought up to date in place. -/
def unpark (provider : String) : Conductor (Option (Handle × Option ℕ)) := do
  match (← self).parked.lookup provider with
  | none => return none
  | some parked =>
      change fun c => { c with parked := c.parked.remove provider }
      if ← asks fun env n => env.alive n parked.runner then
        let missed := (← self).historyFor provider (parked.synced + 1) true
        let took ← asks fun env n => env.catchUp n parked.runner
        note (.caughtUp parked.runner missed took (← self).usable)
        if took then
          let seeded ← asks fun env n => env.seeded n parked.runner
          note (.seeded parked.runner seeded)
          if seeded then
            match ← tryCommit (·.markSynced provider (← self).store.seq) with
            | .ok () => pure ()
            | .error why =>
                stop parked.runner
                persistenceFailed "saving a provider watermark" why
          return some (parked.runner, parked.epoch)
        else
          stop parked.runner
          return none
      else return none

/-- A parked runner whose settings still match what is wanted, and whether its tuning does. -/
def takeParked (provider : String) (wanted : Signature) :
    Conductor (Option (Handle × Option ℕ × Bool)) := do
  match (← self).parked.lookup provider with
  | none => return none
  | some parked =>
      if parked.signature.config ≠ wanted.config then
        -- its config is out of date; it cannot be reused
        change fun c => { c with parked := c.parked.remove provider }
        stop parked.runner
        return none
      else
        let matches_ : Bool := parked.signature.model = wanted.model ∧
          parked.signature.effort = wanted.effort
        return (← unpark provider).map fun (runner, epoch) => (runner, epoch, matches_)

/-- Say who was brought up, and whether on a native session of its own. -/
def recordLaunch (rung : Pick) (native : String) (fresh : Bool) : Conductor Unit := do
  let _ ← record ((((Event.config "launch").from_ rung.provider).about rung.model
    |>.with_ "effort" (.string rung.effort)).with_ "fast" (.bool rung.fast)
    |>.with_ "native" (.string native))
  if fresh then
    let _ ← record ((((Event.new .newSession).from_ rung.provider).about rung.model)
      |>.with_ "native" (.string native))

/-- Make a runner the attached one, and its native session the one its provider holds. -/
def adopt (runner : Handle) (epoch : Option ℕ) (rung : Pick) (fresh : Bool) : Conductor Unit := do
  let native ← asks fun env n => env.nativeId n runner
  let seeded ← asks fun env n => env.seeded n runner
  note (.seeded runner seeded)
  note (.adopted runner native fresh)
  change fun c => { c with runner := some runner, runnerEpoch := epoch, syncCeiling := none }
  rememberRunnerTurn
  change fun c => { c with current := some (c.signature rung) }
  commit "saving a provider session id" (·.bind rung.provider native)
  if seeded then
    let seq := (← self).store.seq
    commit "saving a provider watermark" (·.markSynced rung.provider seq)
  recordLaunch rung native fresh
  refresh

section
variable [Host]

/-- Build one runner and start it on `nativeId`, told the history from `since` on. -/
def bringUp (rung : Pick) (config : Config) (nativeId : String) (since : ℤ) :
    Conductor (Except String (Handle × ℕ)) := do
  let c ← self
  let epoch := c.nextRunnerEpoch
  change fun c =>
    { c with
      nextRunnerEpoch := epoch + 1
      epochTurns := Function.update c.epochTurns epoch (some c.turn) }
  if (← get).env.installed rung.provider then
    let runner ← modifyGet fun s =>
      ({ name := rung.provider, instance_ := s.built : Handle }, { s with built := s.built + 1 })
    let history := (← self).historyFor rung.provider since (nativeId ≠ "")
    match ← asks fun env n => env.start n runner with
    | .ok () =>
        note (.started runner config nativeId history true (← self).usable)
        return .ok (runner, epoch)
    | .error why =>
        note (.started runner config nativeId history false (← self).usable)
        return .error why
  else
    let name := Host.json (.string rung.provider)
    return .error s!"unknown provider {name}"

def launchConfig (c : Chat) (rung : Pick) : Config :=
  { c.config with model := rung.model, effort := rung.effort, fast := rung.fast }

/-- Start a runner, on the native session its provider holds if that still exists. -/
def launchFresh (rung : Pick) (native : Native) : Conductor (Except String Unit) := do
  let config := launchConfig (← self) rung
  match ← bringUp rung config native.id (native.synced + 1) with
  | .error why => return .error why
  | .ok (runner, epoch) =>
      if native.id ≠ "" ∧ (← asks fun env n => env.nativeId n runner) ≠ native.id then
        -- the provider no longer knows that session: start clean and tell it everything
        stop runner
        let now ← asks fun env n => env.nativeId n runner
        let _ ← record (((Event.config "reseed").from_ rung.provider
          |>.with_ "lost" (.string native.id)).with_ "now" (.string now))
        match ← bringUp rung config "" 0 with
        | .error why => return .error why
        | .ok (runner, epoch) =>
            adopt runner (some epoch) rung true
            return .ok ()
      else
        adopt runner (some epoch) rung (native.id = "")
        return .ok ()

def launch (rung : Pick) : Conductor (Except String Unit) := do
  let c ← self
  let native := c.meta_.data.native rung.provider
  match ← takeParked rung.provider (c.signature rung) with
  | some (kept, epoch, tuningMatches) =>
      let usable ← if tuningMatches then pure true else retune kept rung
      if usable then
        adopt kept epoch rung false
        return .ok ()
      else
        stop kept
        launchFresh rung native
  | none => launchFresh rung native

/-- Say that the conversation moves to another provider, which gets to say what it cannot do. -/
def recordSwitch (previous : String) (rung : Pick) : Conductor Unit := do
  if previous ≠ rung.provider then
    change fun c => { c with announced := [] }
    if previous ≠ "" then
      let _ ← record ((((Event.new .switchProvider).from_ rung.provider).about rung.model
        |>.with_ "from" (.string previous)).with_ "to" (.string rung.provider)
        |>.with_ "fast" (.bool rung.fast))

/-- The second half of `rebuild`: put the attached runner aside and bring up the one the settings
ask for. -/
def replace (rung : Pick) : Conductor (Except String Unit) := do
  let c ← self
  -- `current` outlives the runner, so one that crashed is still named as where we came from
  let previous := match c.runner, c.current with
    | some runner, _ => runner.name
    | none, some current => current.provider
    | none, none => ""
  match c.runner with
  | some runner =>
      change fun c => { c with runner := none }
      park runner
  | none => pure ()
  recordSwitch previous rung
  launch rung

end
end SiliconOmni
