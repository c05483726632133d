import Mathlib.Data.Int.Notation
import Mathlib.Data.PNat.Basic
import Mathlib.Data.List.Basic
import SiliconOmni.Lib.Transition

/-! The daemon's request threads: a reader for each connection, an admission gate over all of them,
and a lane for each session on one connection. -/
namespace SiliconOmni.Daemon

structure Request where
  id : ℤ
  op : String
  session : Option String := none
  provider : Option String := none
  deriving DecidableEq, Repr

/-- Operations which address the same mutable thing share a lane. -/
def laneKey (request : Request) : Option String :=
  (request.session.map fun session => s!"session:{session}").or
    (if request.op = "account" then
      let provider := request.provider.getD ""
      some s!"account:{provider}"
    else if request.op = "test" then
      let provider := request.provider.getD "registry"
      some s!"test:{provider}"
    else none)

/-- One lane: the ticket being served, and the tickets drawn by its reader. -/
structure Lane where
  turn : ℕ := 0
  next : ℕ := 0
  /-- The drawn tickets that a task was admitted with. -/
  admitted : ℕ := 0
  deriving DecidableEq, Repr

inductive Phase where
  /-- In `Lane::enter`. -/
  | entering
  /-- Answering its request. -/
  | running
  /-- Its turn is dropped, its slot not yet. -/
  | left
  deriving DecidableEq, Repr

/-- A thread that holds one admission slot. -/
structure Task where
  serial : ℕ
  conn : ℕ
  request : Request
  ticket : ℕ
  phase : Phase
  deriving DecidableEq, Repr

/-- Where the thread that reads a connection is. -/
inductive Reader where
  | reading
  /-- In `begin`, with the ticket it drew. -/
  | admitting (request : Request) (ticket : ℕ)
  /-- At the `close_and_wait` of a `shutdown` request. -/
  | stopping
  | gone
  deriving DecidableEq, Repr

/-- Who calls `close_and_wait`: a reader, or a thread of the daemon's own. -/
inductive Closer where
  | reader (conn : ℕ)
  | daemon (thread : ℕ)
  deriving DecidableEq, Repr

/-- What the lanes let through, oldest first. -/
inductive Mark where
  | began (conn : ℕ) (request : Request)
  | ended (conn : ℕ) (request : Request)
  deriving DecidableEq, Repr

def Mark.conn : Mark → ℕ
  | began conn _ | ended conn _ => conn

def Mark.request : Mark → Request
  | began _ request | ended _ request => request

structure Requests where
  active : ℕ := 0
  accepting : Bool := true
  readers : ℕ → Reader := fun _ => .reading
  lanes : ℕ → String → Lane := fun _ _ => {}
  tasks : List Task := []
  /-- The closers between `close` and the return of `wait`. -/
  waiting : List Closer := []
  /-- Some `close_and_wait` has returned. -/
  returned : Bool := false
  /-- Successful calls of `begin`. -/
  begun : ℕ := 0
  /-- The requests each connection sent, in wire order. -/
  wire : ℕ → List Request := fun _ => []
  marks : List Mark := []

inductive Act where
  | receive (conn : ℕ) (request : Request)
  /-- The connection ends, or sends what cannot be read. -/
  | hangUp (conn : ℕ)
  /-- `begin` returns. -/
  | begin (conn : ℕ)
  | enter (serial : ℕ)
  | leave (serial : ℕ)
  | finish (serial : ℕ)
  | close (closer : Closer)
  /-- `wait` returns. -/
  | drained (closer : Closer)
  deriving DecidableEq, Repr

namespace Requests

def task (s : Requests) (serial : ℕ) : Option Task := s.tasks.find? (·.serial = serial)

/-- The lane a task's ticket is for. -/
def laneOf (s : Requests) (task : Task) : Option Lane :=
  (laneKey task.request).map (s.lanes task.conn)

/-- Whether `Lane::enter` does not return yet. -/
def waits (s : Requests) (task : Task) : Bool :=
  task.phase = .entering && (s.laneOf task).any fun lane => lane.turn ≠ task.ticket

def setReader (s : Requests) (conn : ℕ) (reader : Reader) : Requests :=
  { s with readers := Function.update s.readers conn reader }

/-- Change the lane that a request on this connection is for, if there is one. -/
def editLane (s : Requests) (conn : ℕ) (request : Request) (f : Lane → Lane) : Requests :=
  match laneKey request with
  | some key =>
      { s with
        lanes := Function.update s.lanes conn
          (Function.update (s.lanes conn) key (f (s.lanes conn key))) }
  | none => s

def setPhase (s : Requests) (serial : ℕ) (phase : Phase) : Requests :=
  { s with
    tasks := s.tasks.map fun task => if task.serial = serial then { task with phase } else task }

def mark (s : Requests) (mark : Mark) : Requests := { s with marks := s.marks ++ [mark] }

/-- A reader draws the ticket of a request, before it asks the gate. -/
def drew (s : Requests) (conn : ℕ) (request : Request) : Requests :=
  let ticket := ((laneKey request).map fun key => (s.lanes conn key).next).getD 0
  let s := s.editLane conn request fun lane => { lane with next := lane.next + 1 }
  { s with wire := Function.update s.wire conn (s.wire conn ++ [request]) }.setReader conn
    (.admitting request ticket)

def receive (s : Requests) (conn : ℕ) (request : Request) : Option Requests :=
  if s.readers conn = .reading then
    if request.op = "shutdown" then some (s.setReader conn .stopping)
    else some (s.drew conn request)
  else none

/-- A slot is taken, and the request's thread started. -/
def spawned (s : Requests) (conn : ℕ) (request : Request) (ticket : ℕ) : Requests :=
  let s := s.editLane conn request fun lane => { lane with admitted := lane.admitted + 1 }
  let task : Task := { serial := s.begun, conn, request, ticket, phase := .entering }
  { s with
    active := s.active + 1
    tasks := s.tasks ++ [task]
    begun := s.begun + 1 }.setReader conn .reading

/-- `begin` answers: refused once the gate is closed, admitted where a slot is free. -/
def begin (limit : ℕ+) (s : Requests) (conn : ℕ) : Option Requests :=
  match s.readers conn with
  | .admitting request ticket =>
      if !s.accepting then some (s.setReader conn .gone)
      else if s.active < limit then some (s.spawned conn request ticket)
      else none
  | _ => none

def enter (s : Requests) (serial : ℕ) : Option Requests :=
  match s.task serial with
  | some task =>
      if task.phase = .entering ∧ !s.waits task then
        some ((s.setPhase serial .running).mark (.began task.conn task.request))
      else none
  | none => none

/-- The turn is dropped before the slot. -/
def leave (s : Requests) (serial : ℕ) : Option Requests :=
  match s.task serial with
  | some task =>
      if task.phase = .running then
        let s := s.editLane task.conn task.request fun lane => { lane with turn := lane.turn + 1 }
        some ((s.setPhase serial .left).mark (.ended task.conn task.request))
      else none
  | none => none

def finish (s : Requests) (serial : ℕ) : Option Requests :=
  match s.task serial with
  | some task =>
      if task.phase = .left then
        some { s with active := s.active - 1, tasks := s.tasks.filter (·.serial ≠ serial) }
      else none
  | none => none

/-- A reader closes the gate only for a `shutdown` request. -/
def mayClose (s : Requests) : Closer → Bool
  | .reader conn => s.readers conn = .stopping
  | .daemon _ => true

def close (s : Requests) (closer : Closer) : Option Requests :=
  if s.mayClose closer ∧ closer ∉ s.waiting then
    some { s with accepting := false, waiting := closer :: s.waiting }
  else none

def drained (s : Requests) (closer : Closer) : Option Requests :=
  if closer ∈ s.waiting ∧ s.active = 0 then
    let s := { s with waiting := s.waiting.filter (· ≠ closer), returned := true }
    some (match closer with
      | .reader conn => s.setReader conn .gone
      | .daemon _ => s)
  else none

def step (limit : ℕ+) (s : Requests) : Act → Option Requests
  | .receive conn request => s.receive conn request
  | .hangUp conn => if s.readers conn = .reading then some (s.setReader conn .gone) else none
  | .begin conn => s.begin limit conn
  | .enter serial => s.enter serial
  | .leave serial => s.leave serial
  | .finish serial => s.finish serial
  | .close closer => s.close closer
  | .drained closer => s.drained closer

def machine (limit : ℕ+) : Lib.Machine Requests Act where
  init s := s = {}
  step := step limit

end Requests
end SiliconOmni.Daemon
