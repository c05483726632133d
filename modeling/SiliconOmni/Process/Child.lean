import Mathlib.Data.Int.Notation
import Mathlib.Data.Nat.Notation
import Mathlib.Logic.Function.Basic
import Mathlib.Tactic.Common
import SiliconOmni.Lib.Transition

/-! A provider's CLI as a child process, with the threads that read it, call back and stop it. -/
namespace SiliconOmni

/-- Whether callbacks may still start, and how many of them are running. -/
structure CallbackGate where
  accepting : Bool := true
  active : ℕ := 0
  deriving DecidableEq, Repr

namespace CallbackGate

/-- The section in which `call` lets a callback start, or turns it away. -/
def enter (gate : CallbackGate) : Option CallbackGate :=
  if gate.accepting then some { gate with active := gate.active + 1 } else none

def leave (gate : CallbackGate) : CallbackGate := { gate with active := gate.active - 1 }

/-- The section that `disable` and `close` begin with. -/
def disable (gate : CallbackGate) : CallbackGate := { gate with accepting := false }

end CallbackGate

inductive Pipe where
  | stdout
  | stderr
  deriving DecidableEq, Repr

/-- The threads that call back: a pump for each pipe, and the reaper. -/
inductive Caller where
  | pump (pipe : Pipe)
  | reaper
  deriving DecidableEq, Repr

/-- What a callback is given. -/
inductive Word where
  | line (pipe : Pipe) (text : String)
  | exit (code : ℤ)
  deriving DecidableEq, Repr

def Word.caller : Word → Caller
  | line pipe _ => .pump pipe
  | exit _ => .reaper

/-- How far a thread is with the word it has in hand. -/
inductive Hand where
  | empty
  | ready (word : Word)
  /-- The callback has been let in and has not run yet. -/
  | inside (word : Word)
  /-- The callback has run and is still counted. -/
  | after
  | ended
  deriving DecidableEq, Repr

namespace Hand

/-- The word that is still to be let in. -/
def next : Hand → List Word
  | ready word => [word]
  | _ => []

/-- The word that has been let in and is still to be heard. -/
def due : Hand → List Word
  | inside word => [word]
  | _ => []

/-- Whether the gate counts it. -/
def busy : Hand → Bool
  | inside _ | after => true
  | _ => false

end Hand

/-- How far a thread is with stopping the child. -/
inductive Stopper where
  | away
  /-- The child has seen the end of its input. -/
  | closing
  /-- Its group was sent SIGTERM. -/
  | signalled
  /-- Its group was sent SIGKILL. -/
  | slain
  /-- The guardian has been let go. -/
  | released
  /-- The gate is shut, and the callbacks that run are waited for. -/
  | shut
  | stopped
  deriving DecidableEq, Repr

/-- `line.trim_end_matches(['\r', '\n'])`. -/
def tidy (line : String) : String :=
  .ofList (line.toList.reverse.dropWhile fun c => c = '\r' ∨ c = '\n').reverse

/-- A `LineProcess` with the threads that serve it. What was read and heard, how the child ended and
whether it was sent SIGKILL are kept for the record. -/
structure Process where
  running : Bool := true
  stdin : Bool := true
  guarded : Bool := true
  gate : CallbackGate := {}
  hands : Caller → Hand := fun _ => .empty
  stops : ℕ → Stopper := fun _ => .away
  sent : List String := []
  spoken : List Word := []
  heard : List Word := []
  killed : Bool := false

namespace Process

/-- A child as `start` leaves it: nobody reads a pipe that has no listener. -/
def start (onLine onStderr onExit : Bool) : Process where
  hands
    | .pump .stdout => if onLine then .empty else .ended
    | .pump .stderr => if onStderr then .empty else .ended
    | .reaper => if onExit then .empty else .ended

/-- Where a thread goes on after a callback: a pump reads on, the reaper is done. -/
def rest : Caller → Hand
  | .pump _ => .empty
  | .reaper => .ended

def setHand (s : Process) (caller : Caller) (hand : Hand) : Process :=
  { s with hands := Function.update s.hands caller hand }

def setStop (s : Process) (thread : ℕ) (stop : Stopper) : Process :=
  { s with stops := Function.update s.stops thread stop }

/-- The moves of the child, of the threads that call back, and of the threads that stop it. -/
inductive Move where
  /-- A line is read from a pipe. -/
  | read (pipe : Pipe) (line : String)
  /-- A pipe ends, or says something that is no text. -/
  | close (pipe : Pipe)
  /-- The child's status is there, and `running` goes down. -/
  | exit (code : ℤ)
  | enter (caller : Caller)
  | hear (caller : Caller)
  | leave (caller : Caller)
  /-- `send_line`, to a pipe that takes the line or is broken. -/
  | send (text : String) (taken : Bool)
  | stop (thread : ℕ)
  | signal (thread : ℕ)
  | kill (thread : ℕ)
  | settle (thread : ℕ)
  | shut (thread : ℕ)
  | done (thread : ℕ)
  /-- The last handle is let go. -/
  | drop
  deriving DecidableEq, Repr

def read (s : Process) (pipe : Pipe) (line : String) : Option Process :=
  if s.hands (.pump pipe) = .empty then
    let text := tidy line
    if text = "" then some s
    else
      let word := .line pipe text
      some { s.setHand (.pump pipe) (.ready word) with spoken := s.spoken ++ [word] }
  else none

/-- The child ends: the flag goes down before anybody is told. -/
def exit (s : Process) (code : ℤ) : Option Process :=
  if s.running then
    let s := { s with running := false }
    some (if s.hands .reaper = .empty then
      { s.setHand .reaper (.ready (.exit code)) with spoken := s.spoken ++ [.exit code] } else s)
  else none

def enter (s : Process) (caller : Caller) : Option Process :=
  match s.hands caller with
  | .ready word =>
    match s.gate.enter with
    | some gate => some { s.setHand caller (.inside word) with gate }
    | none => some (s.setHand caller (rest caller))
  | _ => none

/-- The callback runs. -/
def hear (s : Process) (caller : Caller) : Option Process :=
  match s.hands caller with
  | .inside word => some { s.setHand caller .after with heard := s.heard ++ [word] }
  | _ => none

def leave (s : Process) (caller : Caller) : Option Process :=
  match s.hands caller with
  | .after => some { s.setHand caller (rest caller) with gate := s.gate.leave }
  | _ => none

def sendLine (s : Process) (text : String) (taken : Bool) : Bool × Process :=
  if s.stdin then
    if taken then (true, { s with sent := s.sent ++ [text] }) else (false, { s with stdin := false })
  else (false, s)

/-- The moves of `stop`: the end of the input first, then the group, then the kill; the guardian is
let go, the gate is shut, and the callbacks that run are waited for. -/
def stopping (s : Process) (thread : ℕ) : Move → Option Process
  | .stop _ =>
    match s.stops thread with
    | .away | .stopped => some { s.setStop thread .closing with stdin := false }
    | _ => none
  | .signal _ => if s.stops thread = .closing then some (s.setStop thread .signalled) else none
  | .kill _ =>
    if s.stops thread = .signalled then some { s.setStop thread .slain with killed := true }
    else none
  | .settle _ =>
    match s.stops thread with
    | .closing | .signalled =>
      if s.running then none else some { s.setStop thread .released with guarded := false }
    | .slain => some { s.setStop thread .released with guarded := false }
    | _ => none
  | .shut _ =>
    if s.stops thread = .released then
      some { s.setStop thread .shut with gate := s.gate.disable }
    else none
  | .done _ =>
    if s.stops thread = .shut ∧ s.gate.active = 0 then some (s.setStop thread .stopped) else none
  | _ => none

def drop (s : Process) : Process :=
  { s with
    gate := s.gate.disable
    stdin := false
    killed := s.killed || s.running
    guarded := false }

def step (s : Process) : Move → Option Process
  | .read pipe line => s.read pipe line
  | .close pipe =>
    if s.hands (.pump pipe) = .empty then some (s.setHand (.pump pipe) .ended) else none
  | .exit code => s.exit code
  | .enter caller => s.enter caller
  | .hear caller => s.hear caller
  | .leave caller => s.leave caller
  | .send text taken => some (s.sendLine text taken).2
  | .drop => some s.drop
  | .stop t => s.stopping t (.stop t)
  | .signal t => s.stopping t (.signal t)
  | .kill t => s.stopping t (.kill t)
  | .settle t => s.stopping t (.settle t)
  | .shut t => s.stopping t (.shut t)
  | .done t => s.stopping t (.done t)

def machine : Lib.Machine Process Move where
  init s := ∃ onLine onStderr onExit, s = start onLine onStderr onExit
  step := step

section
variable {s : Process} {caller other : Caller} {hand : Hand}

@[simp] theorem setHand_self : (s.setHand caller hand).hands caller = hand :=
  Function.update_self ..

theorem setHand_other (h : other ≠ caller) :
    (s.setHand caller hand).hands other = s.hands other :=
  Function.update_of_ne h ..

end
end Process
end SiliconOmni
