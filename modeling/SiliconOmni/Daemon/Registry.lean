import Mathlib.Data.Nat.Notation
import Mathlib.Data.List.Basic
import Mathlib.Logic.Function.Basic
import SiliconOmni.Lib.Transition

/-! The registry of live sessions: threads that open, stop, reap and shut down sessions, one step
between two locks at a time. Sessions, gates, threads and connections are known by number. -/
namespace SiliconOmni.Daemon

/-- A conductor, and what the registry keeps beside its handle. -/
structure Live where
  name : ℕ
  /-- The snapshot says the conductor has stopped. -/
  stopped : Bool := false
  /-- The snapshot says it is busy, or in a turn. -/
  busy : Bool := false
  /-- The conductor's thread has come to its end. -/
  ended : Bool := false
  stopping : Bool := false
  joined : Bool := false
  /-- The connections listening. -/
  listeners : List ℕ := []
  /-- When the last listener left, if there is none. -/
  alone : Option ℕ := none
  /-- Whose `attach` holds the listener lock. -/
  attaching : Option ℕ := none
  deriving DecidableEq, Repr

namespace Live

def without (live : Live) (conn : ℕ) : List ℕ := live.listeners.filter (· ≠ conn)

/-- Has this been sitting with nobody listening for longer than the grace? -/
def cold (live : Live) (now grace : ℕ) : Bool :=
  !live.busy && match live.alone with
    | some since => decide (since + grace < now)
    | none => false

/-- The connection no longer listens; the clock starts if it was the last. -/
def detach (live : Live) (conn now : ℕ) : Live :=
  { live with
    listeners := live.without conn
    alone := if live.without conn = [] then some now else live.alone }

/-- The end of `attach`, after the replay. -/
def attached (live : Live) (conn now : ℕ) (closed : Bool) : Live :=
  if closed then { live.detach conn now with attaching := none }
  else { live with listeners := live.listeners ++ [conn], alone := none, attaching := none }

end Live

/-- What a caller asks of one session. -/
inductive Op where
  | open (conn : ℕ)
  | send
  | set
  | stop
  /-- One candidate of a reap; the others are still to come. -/
  | reap (grace : ℕ) (todo : List ℕ)
  deriving DecidableEq, Repr

/-- How far an operation has come while it holds the gate. -/
inductive Stage where
  | begin
  /-- The first critical section of an open. -/
  | look (conn : ℕ)
  | configure (conn live : ℕ)
  /-- About to attach; `fresh` if this open made the conductor. -/
  | attach (conn live : ℕ) (fresh : Bool)
  | replay (conn live : ℕ) (fresh : Bool)
  /-- Finding out the providers, with nothing locked but the gate. -/
  | discover (conn : ℕ)
  /-- The second critical section. -/
  | insert (conn : ℕ)
  /-- Waiting for the settings and the launch. -/
  | start (conn live : ℕ)
  | abandon (live : ℕ)
  /-- About to shut a conductor; an open goes on to discovery afterwards. -/
  | shut (live : ℕ) (conn : Option ℕ)
  | join (live : ℕ) (conn : Option ℕ)
  | ask (live : ℕ)
  | done
  deriving DecidableEq, Repr

inductive Pc where
  | idle
  /-- Holds a clone of the gate. -/
  | waiting (name gate : ℕ) (op : Op)
  | inside (name gate : ℕ) (op : Op) (stage : Stage)
  /-- The gate is reclaimed if nobody else refers to it, and still locked. -/
  | leaving (gate : ℕ) (op : Op)
  /-- The gate is unlocked; the clone is still there. -/
  | left (gate : ℕ) (op : Op)
  | reaping (grace : ℕ) (todo : List ℕ)
  /-- Holds the lock of the session map. -/
  | forgetting (conn : ℕ) (todo : List ℕ)
  /-- `shutdown` has set the flag. -/
  | closing
  | putting (todo : List ℕ)
  | shutting (live : ℕ) (todo : List ℕ)
  | joining (live : ℕ) (todo : List ℕ)
  deriving DecidableEq, Repr

structure Registry where
  sessions : ℕ → Option ℕ := fun _ => none
  /-- The thread that holds the lock of the session map across steps. -/
  lock : Option ℕ := none
  gates : ℕ → Option ℕ := fun _ => none
  gatesMade : ℕ := 0
  owner : ℕ → Option ℕ := fun _ => none
  /-- The threads that hold a clone of the gate. -/
  clones : ℕ → List ℕ := fun _ => []
  lives : ℕ → Live := fun _ => { name := 0 }
  made : ℕ := 0
  closing : Bool := false
  /-- A shutdown has returned. -/
  down : Bool := false
  pc : ℕ → Pc := fun _ => .idle
  closed : ℕ → Bool := fun _ => false
  forgotten : ℕ → Bool := fun _ => false
  now : ℕ := 0

namespace Registry

def setPc (s : Registry) (t : ℕ) (pc : Pc) : Registry :=
  { s with pc := Function.update s.pc t pc }

def setLive (s : Registry) (i : ℕ) (live : Live) : Registry :=
  { s with lives := Function.update s.lives i live }

def remove (s : Registry) (name : ℕ) : Registry :=
  { s with sessions := Function.update s.sessions name none }

/-- The conductors in the session map. -/
def opened (s : Registry) : List ℕ :=
  (List.range s.made).filter fun i => s.sessions (s.lives i).name = some i

/-- What makes a session a candidate for reaping. -/
def eligible (s : Registry) (grace live : ℕ) : Bool :=
  (s.lives live).stopped || (s.lives live).cold s.now grace

/-- `stop_locked_if` up to the shutting. -/
def stopLockedIf (s : Registry) (name : ℕ) (ok : ℕ → Bool) : Option (Registry × Stage) :=
  if s.lock ≠ none then none
  else match s.sessions name with
    | some live => if ok live then some (s.remove name, .shut live none) else some (s, .done)
    | none => some (s, .done)

/-- Where an operation goes after a conductor is shut. -/
def after : Option ℕ → Stage
  | some conn => .discover conn
  | none => .done

/-- Where `open` goes when the connection could not be attached. -/
def refused (live : ℕ) (fresh : Bool) : Stage := if fresh then .abandon live else .done

/-- A conductor for `name` starts, and is in the map. -/
def create (s : Registry) (name : ℕ) : Registry :=
  { s with
    lives := Function.update s.lives s.made { name }
    sessions := Function.update s.sessions name (some s.made)
    made := s.made + 1 }

theorem create_new (s : Registry) (name : ℕ) : (s.create name).lives s.made = { name } :=
  Function.update_self ..

theorem create_old (s : Registry) (name : ℕ) {live : ℕ} (h : live ≠ s.made) :
    (s.create name).lives live = s.lives live := Function.update_of_ne h ..

theorem create_here (s : Registry) (name : ℕ) : (s.create name).sessions name = some s.made :=
  Function.update_self ..

theorem create_there (s : Registry) {name other : ℕ} (h : other ≠ name) :
    (s.create name).sessions other = s.sessions other := Function.update_of_ne h ..

/-- One step of an operation on `name`; `ok` is what the conductor or the probes answer. -/
def body (s : Registry) (name : ℕ) (op : Op) (ok : Bool) : Stage → Option (Registry × Stage)
  | .begin => match op with
      | .open conn => some (s, if s.closing then .done else .look conn)
      | .send | .set =>
          if s.lock ≠ none then none
          else match s.sessions name with
            | some live => some (s, .ask live)
            | none => some (s, .done)
      | .stop => s.stopLockedIf name fun _ => true
      | .reap grace _ => s.stopLockedIf name (s.eligible grace)
  | .look conn =>
      if s.lock ≠ none then none
      else match s.sessions name with
        | some live =>
            if (s.lives live).stopped then some (s.remove name, .shut live (some conn))
            else some (s, .configure conn live)
        | none => some (s, .discover conn)
  | .configure conn live => some (s, if ok then .attach conn live false else .done)
  | .attach conn live fresh =>
      let l := s.lives live
      if l.attaching ≠ none then none
      else if s.closed conn ∨ l.stopping ∨ l.stopped then some (s, refused live fresh)
      else
        some (s.setLive live { l with listeners := l.without conn, attaching := some conn },
          .replay conn live fresh)
  | .replay conn live fresh =>
      let l := s.lives live
      some (s.setLive live (l.attached conn s.now (s.closed conn)),
        if s.closed conn then refused live fresh else .done)
  | .discover conn => some (s, if s.closed conn then .done else .insert conn)
  | .insert conn =>
      if s.lock ≠ none then none
      else if s.closing ∨ !ok then some (s, .done)
      else some (s.create name, .start conn s.made)
  | .start conn live => some (s, if ok then .attach conn live true else .abandon live)
  | .abandon live => if s.lock ≠ none then none else some (s.remove name, .shut live none)
  | .shut live conn =>
      let l := s.lives live
      if l.attaching ≠ none then none
      else if l.stopping then some (s, after conn)
      else some (s.setLive live { l with stopping := true }, .join live conn)
  | .join live conn =>
      let l := s.lives live
      if l.ended then some (s.setLive live { l with joined := true }, after conn) else none
  | .ask _ => some (s, .done)
  | .done => none

inductive Act where
  /-- A thread calls `open`, `send`, `set` or `stop`, and takes a clone of the gate. -/
  | call (t name : ℕ) (op : Op)
  | reap (t grace : ℕ)
  /-- The reaper goes on to one of its candidates. -/
  | next (t name : ℕ)
  | enter (t : ℕ)
  | go (t : ℕ) (ok : Bool)
  | reclaim (t : ℕ)
  | unlock (t : ℕ)
  | drop (t : ℕ)
  | forget (t conn : ℕ)
  | visit (t live : ℕ)
  | detach (conn live : ℕ)
  | shutdown (t : ℕ)
  | take (t : ℕ)
  | put (t live : ℕ)
  | swap (t : ℕ)
  | join (t : ℕ)
  /-- A call with nothing left to do returns. -/
  | finish (t : ℕ)
  | close (conn : ℕ)
  | tick
  /-- The conductor becomes busy, or idle. -/
  | stir (live : ℕ) (busy : Bool)
  | halt (live : ℕ)
  | exit (live : ℕ)
  deriving DecidableEq, Repr

/-- `gate`: the session's gate, made if there is none, and one more clone of it. -/
def gate (s : Registry) (t name : ℕ) (op : Op) : Registry :=
  match s.gates name with
  | some g =>
      { s with clones := Function.update s.clones g (t :: s.clones g) }.setPc t
        (.waiting name g op)
  | none =>
      let g := s.gatesMade
      { s with
        gates := Function.update s.gates name (some g)
        gatesMade := g + 1
        clones := Function.update s.clones g [t] }.setPc t (.waiting name g op)

/-- The map and this holder are all that refer to the gate. -/
def last (s : Registry) (name gate : ℕ) : Bool :=
  s.gates name = some gate && (s.clones gate).length + 1 = 2

/-- Where a thread goes when it is done with one session. -/
def home : Op → Pc
  | .reap grace todo => .reaping grace todo
  | _ => .idle

def isReap : Op → Bool
  | .reap .. => true
  | _ => false

def step (s : Registry) : Act → Option Registry
  | .call t name op =>
      if s.pc t = .idle ∧ !isReap op then some (s.gate t name op) else none
  | .reap t grace =>
      if s.pc t = .idle ∧ s.lock = none then
        some (s.setPc t
          (.reaping grace ((s.opened.filter (s.eligible grace)).map fun i => (s.lives i).name)))
      else none
  | .next t name => match s.pc t with
      | .reaping grace todo =>
          if name ∈ todo then some (s.gate t name (.reap grace (todo.erase name))) else none
      | _ => none
  | .enter t => match s.pc t with
      | .waiting name g op =>
          if s.owner g = none then
            some ({ s with owner := Function.update s.owner g (some t) }.setPc t
              (.inside name g op .begin))
          else none
      | _ => none
  | .go t ok => match s.pc t with
      | .inside name g op stage =>
          (s.body name op ok stage).map fun r => r.1.setPc t (.inside name g op r.2)
      | _ => none
  | .reclaim t => match s.pc t with
      | .inside name g op .done =>
          some ({ s with
            gates := if s.last name g then Function.update s.gates name none else s.gates }.setPc t
              (.leaving g op))
      | _ => none
  | .unlock t => match s.pc t with
      | .leaving g op =>
          some ({ s with owner := Function.update s.owner g none }.setPc t (.left g op))
      | _ => none
  | .drop t => match s.pc t with
      | .left g op =>
          some ({ s with clones := Function.update s.clones g ((s.clones g).erase t) }.setPc t
            (home op))
      | _ => none
  | .forget t conn =>
      -- `talk` closes the connection first
      if s.pc t = .idle ∧ s.closed conn ∧ s.lock = none then
        some ({ s with lock := some t }.setPc t (.forgetting conn s.opened))
      else none
  | .visit t live => match s.pc t with
      | .forgetting conn todo =>
          if live ∈ todo ∧ (s.lives live).attaching = none then
            some ((s.setLive live ((s.lives live).detach conn s.now)).setPc t
              (.forgetting conn (todo.erase live)))
          else none
      | _ => none
  | .detach conn live =>
      if (s.lives live).attaching = none then
        some (s.setLive live ((s.lives live).detach conn s.now))
      else none
  | .shutdown t =>
      if s.pc t = .idle then some ({ s with closing := true }.setPc t .closing) else none
  | .take t =>
      if s.pc t = .closing ∧ s.lock = none then
        some ({ s with sessions := fun _ => none }.setPc t (.putting s.opened))
      else none
  | .put t live => match s.pc t with
      | .putting todo =>
          if live ∈ todo then some (s.setPc t (.shutting live (todo.erase live))) else none
      | _ => none
  | .swap t => match s.pc t with
      | .shutting live todo =>
          let l := s.lives live
          if l.attaching ≠ none then none
          else if l.stopping then some (s.setPc t (.putting todo))
          else some ((s.setLive live { l with stopping := true }).setPc t (.joining live todo))
      | _ => none
  | .join t => match s.pc t with
      | .joining live todo =>
          let l := s.lives live
          if l.ended then some ((s.setLive live { l with joined := true }).setPc t (.putting todo))
          else none
      | _ => none
  | .finish t => match s.pc t with
      | .reaping _ [] => some (s.setPc t .idle)
      | .forgetting conn [] =>
          some ({ s with
            lock := none, forgotten := Function.update s.forgotten conn true }.setPc t .idle)
      | .putting [] => some ({ s with down := true }.setPc t .idle)
      | _ => none
  | .close conn => some { s with closed := Function.update s.closed conn true }
  | .tick => some { s with now := s.now + 1 }
  | .stir live busy => some (s.setLive live { s.lives live with busy })
  | .halt live => some (s.setLive live { s.lives live with stopped := true })
  | .exit live => some (s.setLive live { s.lives live with stopped := true, ended := true })

/-- What one step can do, and what has to hold for it. -/
inductive Moves (s : Registry) : Act → Registry → Prop where
  | call {t name : ℕ} {op : Op} (idle : s.pc t = .idle) (calls : isReap op = false) :
      Moves s (.call t name op) (s.gate t name op)
  | reap {t grace : ℕ} (idle : s.pc t = .idle) (unlocked : s.lock = none) :
      Moves s (.reap t grace) (s.setPc t
        (.reaping grace ((s.opened.filter (s.eligible grace)).map fun i => (s.lives i).name)))
  | next {t name grace : ℕ} {todo : List ℕ} (reaping : s.pc t = .reaping grace todo)
      (due : name ∈ todo) :
      Moves s (.next t name) (s.gate t name (.reap grace (todo.erase name)))
  | enter {t name g : ℕ} {op : Op} (waiting : s.pc t = .waiting name g op)
      (free : s.owner g = none) :
      Moves s (.enter t) ({ s with owner := Function.update s.owner g (some t) }.setPc t
        (.inside name g op .begin))
  | go {t name g : ℕ} {op : Op} {ok : Bool} {stage stage' : Stage} {r : Registry}
      (inside : s.pc t = .inside name g op stage)
      (does : s.body name op ok stage = some (r, stage')) :
      Moves s (.go t ok) (r.setPc t (.inside name g op stage'))
  | reclaim {t name g : ℕ} {op : Op} (done : s.pc t = .inside name g op .done) :
      Moves s (.reclaim t) ({ s with
        gates := if s.last name g then Function.update s.gates name none else s.gates }.setPc t
          (.leaving g op))
  | unlock {t g : ℕ} {op : Op} (leaving : s.pc t = .leaving g op) :
      Moves s (.unlock t) ({ s with owner := Function.update s.owner g none }.setPc t (.left g op))
  | drop {t g : ℕ} {op : Op} (gone : s.pc t = .left g op) :
      Moves s (.drop t) ({ s with
        clones := Function.update s.clones g ((s.clones g).erase t) }.setPc t (home op))
  | forget {t conn : ℕ} (idle : s.pc t = .idle) (closed : s.closed conn = true)
      (unlocked : s.lock = none) :
      Moves s (.forget t conn) ({ s with lock := some t }.setPc t (.forgetting conn s.opened))
  | visit {t live conn : ℕ} {todo : List ℕ} (forgetting : s.pc t = .forgetting conn todo)
      (due : live ∈ todo) (settled : (s.lives live).attaching = none) :
      Moves s (.visit t live) ((s.setLive live ((s.lives live).detach conn s.now)).setPc t
        (.forgetting conn (todo.erase live)))
  | detach {conn live : ℕ} (settled : (s.lives live).attaching = none) :
      Moves s (.detach conn live) (s.setLive live ((s.lives live).detach conn s.now))
  | shutdown {t : ℕ} (idle : s.pc t = .idle) :
      Moves s (.shutdown t) ({ s with closing := true }.setPc t .closing)
  | take {t : ℕ} (closing : s.pc t = .closing) (unlocked : s.lock = none) :
      Moves s (.take t) ({ s with sessions := fun _ => none }.setPc t (.putting s.opened))
  | put {t live : ℕ} {todo : List ℕ} (putting : s.pc t = .putting todo) (due : live ∈ todo) :
      Moves s (.put t live) (s.setPc t (.shutting live (todo.erase live)))
  /-- Another thread has already told the conductor to stop. -/
  | pass {t live : ℕ} {todo : List ℕ} (shutting : s.pc t = .shutting live todo)
      (settled : (s.lives live).attaching = none) (stopping : (s.lives live).stopping = true) :
      Moves s (.swap t) (s.setPc t (.putting todo))
  | swap {t live : ℕ} {todo : List ℕ} (shutting : s.pc t = .shutting live todo)
      (settled : (s.lives live).attaching = none) (running : (s.lives live).stopping = false) :
      Moves s (.swap t) ((s.setLive live { s.lives live with stopping := true }).setPc t
        (.joining live todo))
  | join {t live : ℕ} {todo : List ℕ} (joining : s.pc t = .joining live todo)
      (ended : (s.lives live).ended = true) :
      Moves s (.join t) ((s.setLive live { s.lives live with joined := true }).setPc t
        (.putting todo))
  | reaped {t grace : ℕ} (reaping : s.pc t = .reaping grace []) :
      Moves s (.finish t) (s.setPc t .idle)
  | forgot {t conn : ℕ} (forgetting : s.pc t = .forgetting conn []) :
      Moves s (.finish t) ({ s with
        lock := none, forgotten := Function.update s.forgotten conn true }.setPc t .idle)
  | emptied {t : ℕ} (putting : s.pc t = .putting []) :
      Moves s (.finish t) ({ s with down := true }.setPc t .idle)
  | close {conn : ℕ} : Moves s (.close conn) { s with closed := Function.update s.closed conn true }
  | tick : Moves s .tick { s with now := s.now + 1 }
  | stir {live : ℕ} {busy : Bool} :
      Moves s (.stir live busy) (s.setLive live { s.lives live with busy })
  | halt {live : ℕ} : Moves s (.halt live) (s.setLive live { s.lives live with stopped := true })
  | exit {live : ℕ} :
      Moves s (.exit live) (s.setLive live { s.lives live with stopped := true, ended := true })

theorem moves_of_step {s t : Registry} {act : Act} (h : s.step act = some t) : s.Moves act t := by
  cases act with
  | call thread name op =>
    obtain ⟨⟨idle, calls⟩, ⟨⟩⟩ := Option.ite_none_right_eq_some.mp h
    exact .call idle (by simpa using calls)
  | reap thread grace =>
    obtain ⟨⟨idle, unlocked⟩, ⟨⟩⟩ := Option.ite_none_right_eq_some.mp h
    exact .reap idle unlocked
  | next thread name =>
    dsimp only [step] at h
    split at h
    · next reaping =>
      obtain ⟨due, ⟨⟩⟩ := Option.ite_none_right_eq_some.mp h
      exact .next reaping due
    · cases h
  | enter thread =>
    dsimp only [step] at h
    split at h
    · next waiting =>
      obtain ⟨free, ⟨⟩⟩ := Option.ite_none_right_eq_some.mp h
      exact .enter waiting free
    · cases h
  | go thread ok =>
    dsimp only [step] at h
    split at h
    · next inside =>
      obtain ⟨⟨r, stage'⟩, does, rfl⟩ := Option.map_eq_some_iff.mp h
      exact .go inside does
    · cases h
  | reclaim thread =>
    dsimp only [step] at h
    split at h
    · next done =>
      cases h
      exact .reclaim done
    · cases h
  | unlock thread =>
    dsimp only [step] at h
    split at h
    · next leaving =>
      cases h
      exact .unlock leaving
    · cases h
  | drop thread =>
    dsimp only [step] at h
    split at h
    · next gone =>
      cases h
      exact .drop gone
    · cases h
  | forget thread conn =>
    obtain ⟨⟨idle, closed, unlocked⟩, ⟨⟩⟩ := Option.ite_none_right_eq_some.mp h
    exact .forget idle closed unlocked
  | visit thread live =>
    dsimp only [step] at h
    split at h
    · next forgetting =>
      obtain ⟨⟨due, settled⟩, ⟨⟩⟩ := Option.ite_none_right_eq_some.mp h
      exact .visit forgetting due settled
    · cases h
  | detach conn live =>
    obtain ⟨settled, ⟨⟩⟩ := Option.ite_none_right_eq_some.mp h
    exact .detach settled
  | shutdown thread =>
    obtain ⟨idle, ⟨⟩⟩ := Option.ite_none_right_eq_some.mp h
    exact .shutdown idle
  | take thread =>
    obtain ⟨⟨closing, unlocked⟩, ⟨⟩⟩ := Option.ite_none_right_eq_some.mp h
    exact .take closing unlocked
  | put thread live =>
    dsimp only [step] at h
    split at h
    · next putting =>
      obtain ⟨due, ⟨⟩⟩ := Option.ite_none_right_eq_some.mp h
      exact .put putting due
    · cases h
  | swap thread =>
    dsimp only [step] at h
    split at h
    · next shutting =>
      split_ifs at h with attaching stopping
      · cases h
        exact .pass shutting (not_not.mp attaching) stopping
      · cases h
        exact .swap shutting (not_not.mp attaching) (Bool.eq_false_iff.mpr stopping)
    · cases h
  | join thread =>
    dsimp only [step] at h
    split at h
    · next joining =>
      obtain ⟨ended, ⟨⟩⟩ := Option.ite_none_right_eq_some.mp h
      exact .join joining ended
    · cases h
  | finish thread =>
    dsimp only [step] at h
    split at h
    · next reaping =>
      cases h
      exact .reaped reaping
    · next forgetting =>
      cases h
      exact .forgot forgetting
    · next putting =>
      cases h
      exact .emptied putting
    · cases h
  | close conn =>
    cases h
    exact .close
  | tick =>
    cases h
    exact .tick
  | stir live busy =>
    cases h
    exact .stir
  | halt live =>
    cases h
    exact .halt
  | exit live =>
    cases h
    exact .exit

def machine : Lib.Machine Registry Act where
  init s := s = {}
  step := step

end Registry
end SiliconOmni.Daemon
