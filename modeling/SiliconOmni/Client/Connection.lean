import Mathlib.Logic.Function.Basic
import SiliconOmni.Event
import SiliconOmni.Lib.Transition

/-! One connection to the daemon shared by many callers: calls, one reader, subscriptions and the
disconnect, each a thread that takes one step between two locks at a time. Calls and subscriptions
are known by number. -/
namespace SiliconOmni.Client
open Lib (Machine)

structure Reply where
  id : ℤ
  ok : Bool
  result : Value := .null
  error : Option String := none
  deriving DecidableEq

structure Frame where
  stream : String
  session : String
  event : Option Event := none
  deriving DecidableEq

/-- A line from the daemon is one of these. -/
inductive Incoming where
  | reply (reply : Reply)
  | frame (frame : Frame)
  deriving DecidableEq

inductive Error where
  | io (message : String)
  | json (message : String)
  /-- The daemon answered with `ok: false`. -/
  | daemon (message : String)
  /-- No reply arrived before the deadline. -/
  | timeout (op : String)
  | disconnected
  deriving DecidableEq

/-- How far a call has come. -/
inductive CallPc where
  | idle
  /-- It has drawn its id. -/
  | named (id : ℤ)
  | registered (id : ℤ)
  /-- The connection was alive when it looked. -/
  | checked (id : ℤ)
  /-- The socket failed; about to disconnect. -/
  | broken (id : ℤ) (error : Error)
  /-- It is the one that disconnects. -/
  | closing (id : ℤ) (error : Error)
  /-- The write failed; about to take itself out of `pending`. -/
  | failing (id : ℤ) (error : Error)
  | waiting (id : ℤ)
  | timedOut (id : ℤ)
  | returned (id : ℤ) (result : Except Error Value)

/-- One `call_with_timeout`, and the channel its answer comes by. -/
structure Call where
  op : String := ""
  pc : CallPc := .idle
  answers : List (Except Error Reply) := []
  /-- Whether the connection was down already when the call began. -/
  late : Bool := false

inductive Reader where
  | reading
  | holding (line : Incoming)
  /-- A reply whose waiter is out of `pending` and not told yet. -/
  | settling (reply : Reply) (call : ℕ)
  | ended

/-- How far the disconnect has come. -/
inductive Phase where
  | up
  | swapped
  /-- The calls taken out of `pending` and not told yet. -/
  | waking (waiters : List ℕ)
  | cleared
  | down
  deriving DecidableEq

inductive SubPc where
  | unborn
  | named (id : ℕ)
  | kept (id : ℕ)
  /-- Being dropped: out of the subscribers, and the receiver still there. -/
  | dropping (id : ℕ)
  | gone
  deriving DecidableEq

/-- A subscription: the frames that wait in its channel, and those already taken from it. -/
structure Sub where
  session : String := ""
  pc : SubPc := .unborn
  queue : List Frame := []
  received : List Frame := []

/-- What happened under the lock of the subscribers. -/
inductive Happening where
  | frame (frame : Frame)
  | enrolled (sub : ℕ)
  | removed (sub : ℕ)
  | cleared

structure Inner where
  nextId : ℤ := 1
  pending : List (ℤ × ℕ) := []
  subscribers : Entries (List (ℕ × ℕ)) := []
  nextSubscriber : ℕ := 1
  alive : Bool := true
  calls : ℕ → Call := fun _ => {}
  reader : Reader := .reading
  phase : Phase := .up
  subs : ℕ → Sub := fun _ => {}
  /-- The lines read from the socket, those that are no message left out. -/
  wire : List Incoming := []
  history : List Happening := []

/-- What the write of a request to the socket comes to. -/
inductive Written where
  | sent
  | unprintable (message : String)
  | failed (message : String)

inductive Move where
  | call (k : ℕ) (op : String)
  | register (k : ℕ)
  | check (k : ℕ)
  | write (k : ℕ) (written : Written)
  | breakOff (k : ℕ)
  | brokenOff (k : ℕ)
  | forget (k : ℕ)
  | receive (k : ℕ)
  | timeout (k : ℕ)
  /-- A request whose reply is ignored draws an id. -/
  | notify
  /-- Any other thread disconnects: one whose notice or lifecycle call failed. -/
  | disconnect
  | take
  | wake (k : ℕ)
  | clear
  | shutdown
  | read (line : Option Incoming)
  | route
  | settle
  | eof
  | subscribe (j : ℕ) (session : String)
  | enrol (j : ℕ)
  /-- The session is detached, and the subscription kept. -/
  | detach (j : ℕ)
  | drop (j : ℕ)
  | hangUp (j : ℕ)
  | recv (j : ℕ)

namespace Inner

def setCall (s : Inner) (k : ℕ) (call : Call) : Inner :=
  { s with calls := Function.update s.calls k call }

def setPc (s : Inner) (k : ℕ) (pc : CallPc) : Inner := s.setCall k { s.calls k with pc }

/-- Put an answer into the channel of a call. -/
def tell (s : Inner) (k : ℕ) (answer : Except Error Reply) : Inner :=
  s.setCall k { s.calls k with answers := (s.calls k).answers ++ [answer] }

def setSub (s : Inner) (j : ℕ) (sub : Sub) : Inner :=
  { s with subs := Function.update s.subs j sub }

def forgetCall (s : Inner) (id : ℤ) : Inner :=
  { s with pending := s.pending.filter (·.1 ≠ id) }

/-- `disconnect` up to the swap: only the first caller goes on. -/
def swap (s : Inner) : Inner := if s.alive then { s with alive := false, phase := .swapped } else s

/-- Whether the sender of the call's channel is still somewhere. -/
def held (s : Inner) (k : ℕ) : Bool :=
  s.pending.any (·.2 = k) ||
    (match s.reader with | .settling _ call => call = k | _ => false) ||
    (match s.phase with | .waking waiters => waiters.contains k | _ => false)

/-- What a reply means to the caller. -/
def outcome (op : String) (reply : Reply) : Except Error Value :=
  if reply.ok then .ok reply.result
  else .error (.daemon (reply.error.getD (op ++ " failed")))

def answered (op : String) : Except Error Reply → Except Error Value
  | .ok reply => outcome op reply
  | .error error => .error error

/-- Hand a frame to every listener of its session, and let go of those that hung up. -/
def dispatchFrame (s : Inner) (frame : Frame) : Inner :=
  let s := { s with history := s.history ++ [Happening.frame frame] }
  match s.subscribers.lookup frame.session with
  | none => s
  | some listeners =>
      let hears (j : ℕ) : Bool := (s.subs j).pc ≠ SubPc.gone
      { s with
        subs := fun j =>
          if listeners.any (·.2 = j) && hears j then
            { s.subs j with queue := (s.subs j).queue ++ [frame] }
          else s.subs j
        subscribers := s.subscribers.insert frame.session (listeners.filter (hears ·.2)) }

def removeSubscription (s : Inner) (j : ℕ) (id : ℕ) : Inner :=
  let session := (s.subs j).session
  let s := { s with history := s.history ++ [Happening.removed j] }
  match s.subscribers.lookup session with
  | none => s
  | some listeners =>
      let rest := listeners.filter fun listener => listener.1 ≠ id
      { s with subscribers := if rest = [] then s.subscribers.remove session
          else s.subscribers.insert session rest }

/-- One step of a call. -/
def callStep (s : Inner) (k : ℕ) : Move → Option Inner
  | .call _ op => match (s.calls k).pc with
      | .idle => some ({ s with nextId := s.nextId + 1 }.setCall k
          { op, pc := .named s.nextId, late := !s.alive })
      | _ => none
  | .register _ => match (s.calls k).pc with
      | .named id => some ({ s with pending := (id, k) :: s.pending.filter (·.1 ≠ id) }.setPc k
          (.registered id))
      | _ => none
  | .check _ => match (s.calls k).pc with
      | .registered id =>
          some (s.setPc k (if s.alive then .checked id else .failing id .disconnected))
      | _ => none
  | .write _ written => match (s.calls k).pc with
      | .checked id => some (s.setPc k (match written with
          | .sent => .waiting id
          | .unprintable message => .failing id (.json message)
          | .failed message =>
              .broken id (.io ("could not send " ++ (s.calls k).op ++ ": " ++ message))))
      | _ => none
  | .breakOff _ => match (s.calls k).pc with
      | .broken id error =>
          some (s.swap.setPc k (if s.alive then .closing id error else .failing id error))
      | _ => none
  | .brokenOff _ => match (s.calls k).pc with
      | .closing id error => if s.phase = .down then some (s.setPc k (.failing id error)) else none
      | _ => none
  | .forget _ => match (s.calls k).pc with
      | .failing id error => some ((s.forgetCall id).setPc k (.returned id (.error error)))
      | .timedOut id =>
          some ((s.forgetCall id).setPc k (.returned id (.error (.timeout (s.calls k).op))))
      | _ => none
  | .receive _ => match (s.calls k).pc with
      | .waiting id => match (s.calls k).answers with
          | answer :: rest => some (s.setCall k { s.calls k with
              pc := .returned id (answered (s.calls k).op answer)
              answers := rest })
          | [] => if s.held k then none else some (s.setPc k (.returned id (.error .disconnected)))
      | _ => none
  | .timeout _ => match (s.calls k).pc with
      | .waiting id => if (s.calls k).answers = [] then some (s.setPc k (.timedOut id)) else none
      | _ => none
  | _ => none

/-- One step of the thread that disconnects. -/
def disconnectStep (s : Inner) : Move → Option Inner
  | .take => if s.phase = .swapped then
      some { s with pending := [], phase := .waking (s.pending.map (·.2)) } else none
  | .wake k => match s.phase with
      | .waking waiters =>
          if k ∈ waiters then
            some ({ s with phase := .waking (waiters.erase k) }.tell k (.error .disconnected))
          else none
      | _ => none
  | .clear => if s.phase = .waking [] then
      some { s with subscribers := [], history := s.history ++ [Happening.cleared], phase := .cleared }
      else none
  | .shutdown => if s.phase = .cleared then some { s with phase := .down } else none
  | _ => none

/-- One step of `read_daemon`. -/
def readStep (s : Inner) : Move → Option Inner
  | .read line => match s.reader, line with
      | .reading, some line => some { s with reader := .holding line, wire := s.wire ++ [line] }
      | .reading, none => some s
      | _, _ => none
  | .route => match s.reader with
      | .holding (.reply reply) => match s.pending.lookup reply.id with
          | some k => some { s.forgetCall reply.id with reader := .settling reply k }
          | none => some { s with reader := .reading }
      | .holding (.frame frame) => some { s.dispatchFrame frame with reader := .reading }
      | _ => none
  | .settle => match s.reader with
      | .settling reply k => some ({ s with reader := .reading }.tell k (.ok reply))
      | _ => none
  | .eof => match s.reader with
      | .reading => some { s.swap with reader := .ended }
      | _ => none
  | _ => none

/-- One step of the owner of a subscription. -/
def subStep (s : Inner) (j : ℕ) : Move → Option Inner
  | .subscribe _ session => match (s.subs j).pc with
      | .unborn => some ({ s with nextSubscriber := s.nextSubscriber + 1 }.setSub j
          { session, pc := .named s.nextSubscriber })
      | _ => none
  | .enrol _ => match (s.subs j).pc with
      | .named id =>
          let session := (s.subs j).session
          let listeners := (s.subscribers.lookup session).getD []
          some ({ s with
            subscribers := s.subscribers.insert session ((id, j) :: listeners.filter (·.1 ≠ id))
            history := s.history ++ [Happening.enrolled j] }.setSub j { s.subs j with pc := .kept id })
      | _ => none
  | .detach _ => match (s.subs j).pc with
      | .kept id => some (s.removeSubscription j id)
      | _ => none
  | .drop _ => match (s.subs j).pc with
      | .kept id =>
          some ((s.removeSubscription j id).setSub j { s.subs j with pc := .dropping id })
      | _ => none
  | .hangUp _ => match (s.subs j).pc with
      | .dropping _ => some (s.setSub j { s.subs j with pc := .gone })
      | _ => none
  | .recv _ => match (s.subs j).queue with
      | frame :: rest => some (s.setSub j { s.subs j with
          queue := rest
          received := (s.subs j).received ++ [frame] })
      | [] => none
  | _ => none

def step (s : Inner) (m : Move) : Option Inner :=
  match m with
  | .call k _ | .register k | .check k | .write k _ | .breakOff k | .brokenOff k | .forget k
  | .receive k | .timeout k => s.callStep k m
  | .notify => some { s with nextId := s.nextId + 1 }
  | .disconnect => some s.swap
  | .take | .wake _ | .clear | .shutdown => s.disconnectStep m
  | .read _ | .route | .settle | .eof => s.readStep m
  | .subscribe j _ | .enrol j | .detach j | .drop j | .hangUp j | .recv j => s.subStep j m

end Inner

/-- A connection, with threads that interleave in any way. -/
def connection : Machine Inner Move where
  init s := s = {}
  step := Inner.step

end SiliconOmni.Client
