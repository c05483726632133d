import Mathlib.Data.Nat.Notation
import Mathlib.Logic.Function.Basic
import SiliconOmni.Event
import SiliconOmni.Lib.Transition

/-! A Python Chat: threads that call it, the link threads, the dispatcher and the daemon, each one
step between two locks at a time. Threads, connections, generations and calls are known by number. -/
namespace SiliconOmni.Python

inductive Status where
  | idle | waiting | busy | stopped
  deriving DecidableEq, Repr

/-- Where the daemon says a session stands. -/
structure Snapshot where
  status : Status := .idle
  seq : ℤ := -1
  inTurn : Bool := false
  deriving DecidableEq, Repr

/-- A message sent and not yet seen to open a turn, or to land in one. -/
structure Ticket where
  text : String
  after : ℤ
  deriving DecidableEq, Repr

/-- A record of the session's log; its `seq` is its place there. -/
structure Record where
  type : EventType
  text : String := ""
  /-- The send call whose message it opens. -/
  opens : Option ℕ := none
  deriving DecidableEq, Repr

inductive Frame where
  | event (seq : ℕ) (record : Record) (snapshot : Option Snapshot)
  | disconnected
  | gone (snapshot : Option Snapshot)
  deriving DecidableEq, Repr

/-- What the daemon writes on a connection. -/
inductive Line where
  | frame (frame : Frame)
  | reply (call : ℕ) (snapshot : Option Snapshot)
  deriving DecidableEq, Repr

/-- A `Link`, and what the daemon holds of it. -/
structure Link where
  alive : Bool := true
  /-- The daemon still has its end. -/
  up : Bool := true
  /-- The generation whose handler listens. -/
  listener : Option ℕ := none
  /-- The daemon's subscription: the next record it streams. -/
  cursor : Option ℕ := none
  wire : List Line := []
  /-- What the link's thread is about to put in the inbox. -/
  hand : Option (ℕ × Frame) := none

/-- The thread that hands events to callbacks. -/
inductive Caller where
  | getting
  | holding (generation : ℕ) (frame : Frame)
  | calling
  /-- Out of its loop, and still there. -/
  | leaving
  deriving DecidableEq, Repr

/-- What a thread opens the session for. -/
inductive Why where
  | start
  | send (text : String)
  | refresh
  deriving DecidableEq, Repr

/-- How far the daemon is with an `open`. -/
inductive Stage where
  | asked
  | attached
  | answered
  deriving DecidableEq, Repr

/-- A request other than `open`. -/
inductive Ask where
  | send (ticket : Ticket)
  | status
  | detach
  | stop
  deriving DecidableEq, Repr

/-- Why a Chat settles down. -/
inductive Left where
  | detached
  | lost
  | stopped (connection : Option ℕ)
  deriving DecidableEq, Repr

/-- A message the daemon accepted, and how long the log was then. -/
structure Taken where
  text : String
  place : ℕ
  deriving DecidableEq, Repr

/-- How far a thread has come. -/
inductive Pc where
  | idle
  /-- In `start`, before its lock. -/
  | starting (since : ℤ) (why : Why)
  /-- Holds the start lock; `open` is under way. -/
  | opening (connection generation call : ℕ) (since : ℤ) (why : Why) (stage : Stage)
  /-- `send`, before the ticket. -/
  | noting (text : String)
  /-- The ticket is there; about to call the daemon. -/
  | posting (ticket : Ticket) (call : ℕ)
  | refreshing
  | asking (connection call : ℕ) (ask : Ask) (served : Bool)
  /-- About to make an uncertain call safe to repeat. -/
  | losing (connection : Option ℕ)
  | unlistening (left : Left)
  | clearing (left : Left)
  | signing (left : Left)
  | settled (left : Left)
  deriving DecidableEq, Repr

structure Process where
  -- the Chat
  connection : Option ℕ := none
  inbox : List (Option (ℕ × Frame)) := []
  caller : Option Caller := none
  opened : Bool := false
  started : Bool := false
  finished : Bool := false
  /-- Who holds the start lock while `open` is under way. -/
  lock : Option ℕ := none
  generation : Option ℕ := none
  state : Snapshot := {}
  seen : ℤ := -1
  awaiting : List Ticket := []
  -- generations: those told to go on, and those the daemon accepted
  generations : ℕ := 0
  ready : ℕ → Bool := fun _ => false
  accepted : ℕ → Bool := fun _ => false
  -- links and calls
  links : ℕ → Link := fun _ => {}
  linksMade : ℕ := 0
  calls : ℕ := 0
  answers : ℕ → Option (Option Snapshot) := fun _ => none
  pc : ℕ → Pc := fun _ => .idle
  -- the daemon
  log : List Record := []
  /-- The sends that were written to it. -/
  posted : ℕ → Option Ticket := fun _ => none
  taken : ℕ → Option Taken := fun _ => none
  /-- Where a generation's range begins. -/
  origin : ℕ → Option ℕ := fun _ => none
  /-- Where the range of the first open that succeeded began. -/
  first : Option ℕ := none
  /-- The events given to callbacks, under their generations. -/
  given : List (ℕ × ℕ) := []

namespace Process

def setPc (s : Process) (t : ℕ) (pc : Pc) : Process := { s with pc := Function.update s.pc t pc }

def setLink (s : Process) (c : ℕ) (link : Link) : Process :=
  { s with links := Function.update s.links c link }

/-- `self.connection is not None and self.connection.alive` -/
def connected (s : Process) : Bool := s.connection.any fun c => (s.links c).alive

/-- `Link.open` -/
def connect (s : Process) : Process × ℕ :=
  ({ s with connection := some s.linksMade, linksMade := s.linksMade + 1 }, s.linksMade)

/-- `link`: the connection, or another one if it is dead. -/
def link (s : Process) : Process × ℕ :=
  match s.connection with
  | some c => if (s.links c).alive then (s, c) else s.connect
  | none => s.connect

/-- `Link.close` -/
def close (s : Process) (c : ℕ) : Process :=
  s.setLink c { s.links c with alive := false, up := false, cursor := none }

def unlisten (s : Process) (c : ℕ) : Process := s.setLink c { s.links c with listener := none }

/-- `dispatching` -/
def dispatching (s : Process) : Process :=
  if s.caller = none then { s with caller := some .getting } else s

/-- `_normalize_snapshot(snapshot) if snapshot else self.state` -/
def told (s : Process) (snapshot : Option Snapshot) : Snapshot := snapshot.getD s.state

/-- Where `start` returns to. -/
def next : Why → Pc
  | .start => .idle
  | .send text => .noting text
  | .refresh => .refreshing

/-- `start` up to the call of `open`. -/
def listen (s : Process) (t : ℕ) (since : ℤ) (why : Why) : Process :=
  let (s, c) := { s with opened := false }.link
  let g := s.generations
  { s.setLink c { s.links c with listener := some g } with
    generation := some g, generations := g + 1, calls := s.calls + 1, lock := some t }.setPc t
      (.opening c g s.calls since why .asked)

/-- `start` after `open` succeeded. -/
def succeed (s : Process) (t g : ℕ) (since : ℤ) (why : Why) (snapshot : Option Snapshot) : Process :=
  let state := s.told snapshot
  let floor := if since < 0 then state.seq else since - 1
  { s with
    state, opened := true, started := true, seen := max s.seen floor
    accepted := Function.update s.accepted g true
    ready := Function.update s.ready g true
    first := s.first.or (s.origin g)
    lock := none }.dispatching.setPc t (next why)

/-- `start` after `open` failed. -/
def refuse (s : Process) (t c g : ℕ) : Process :=
  let s := (s.unlisten c).close c
  { s with
    connection := if s.connection = some c then none else s.connection
    ready := Function.update s.ready g true
    lock := none }.setPc t .idle

/-- What an event does to the tickets. -/
def release (awaiting : List Ticket) (seq : ℕ) (record : Record) (state : Snapshot) : List Ticket :=
  if record.type = .start ∨ record.type = .injected then
    awaiting.eraseP fun ticket => ticket.after < seq && record.text == ticket.text
  else if record.type = .error ∧ state.status = .waiting ∧ !state.inTurn then []
  else awaiting

/-- One frame of an accepted generation that is still the current one. -/
def deliver (s : Process) (g : ℕ) : Frame → Process
  | .disconnected =>
      { s with
        opened := false, awaiting := []
        state := { s.state with status := .waiting, inTurn := false }
        caller := some .leaving }
  | .gone snapshot =>
      { s with
        awaiting := [], state := { s.told snapshot with status := .stopped }
        opened := false, finished := true, caller := some .leaving }
  | .event seq record snapshot =>
      let state := s.told snapshot
      let stopped := state.status = .stopped
      { s with
        state
        seen := max s.seen seq
        awaiting := if stopped then [] else release s.awaiting seq record state
        opened := s.opened && !stopped
        finished := s.finished || stopped
        caller := some .calling
        given := s.given ++ [(g, seq)] }

/-- The daemon drops the subscription that a connection has. -/
def unsubscribe (s : Process) (c : ℕ) : Process := s.setLink c { s.links c with cursor := none }

/-- The daemon writes a line. -/
def write (s : Process) (c : ℕ) (line : Line) : Process :=
  s.setLink c { s.links c with wire := (s.links c).wire ++ [line] }

inductive Act where
  /-- The program calls `start`, `send`, `refresh`, `history`, `detach` or `stop`. -/
  | start (t : ℕ) (since : ℤ)
  | send (t : ℕ) (text : String)
  | refresh (t : ℕ)
  | history (t : ℕ)
  | detach (t : ℕ)
  | stop (t : ℕ)
  /-- `start` takes its lock. -/
  | enter (t : ℕ)
  /-- No link could be opened. -/
  | unlinked (t : ℕ)
  /-- The reply to a call is in. -/
  | answered (t : ℕ)
  /-- A call raised: it was refused, took too long, or the connection went. -/
  | raised (t : ℕ)
  | go (t : ℕ)
  /-- The daemon appends a record, accepts a send, serves a call, streams a record. -/
  | record (record : Record)
  | accept (k : ℕ)
  | attach (t : ℕ)
  | serve (t : ℕ) (snapshot : Snapshot)
  | stream (c : ℕ) (snapshot : Snapshot)
  | part (c : ℕ) (snapshot : Snapshot)
  /-- A connection breaks. -/
  | drop (c : ℕ)
  /-- The link's thread takes a line, puts a frame in the inbox, comes to the end. -/
  | pump (c : ℕ)
  | arrived (c : ℕ)
  | hangUp (c : ℕ)
  /-- The dispatcher takes a frame, hands it over, is back from the callbacks, ends. -/
  | get
  | deliver
  | called
  | ended
  deriving DecidableEq, Repr

/-- Only a message that was accepted is opened, under its own text. -/
def writable (s : Process) (record : Record) : Bool :=
  match record.opens with
  | none => true
  | some k =>
      (record.type = .start || record.type = .injected) &&
        (s.taken k).any fun taken => record.text = taken.text

/-- `start` once it has the lock. -/
def enter (s : Process) (t : ℕ) (since : ℤ) (why : Why) : Process :=
  if s.finished then s.setPc t .idle
  else if s.opened && s.connected then s.setPc t (next why)
  else s.listen t since why

/-- The reply to a request other than `open` is in. -/
def answer (s : Process) (t c : ℕ) (snapshot : Option Snapshot) : Ask → Process
  | .send _ => s.setPc t .idle
  | .status => { s with state := s.told snapshot }.setPc t .idle
  | .detach => { s with opened := false }.setPc t (.unlistening .detached)
  | .stop => { s with finished := true, opened := false }.setPc t (.unlistening (.stopped (some c)))

/-- A request other than `open` raised. -/
def raise (s : Process) (t c : ℕ) : Ask → Process
  | .send ticket => { s with awaiting := s.awaiting.erase ticket }.setPc t .idle
  | .status => s.setPc t .idle
  | .detach | .stop => s.setPc t (.losing (some c))

/-- Sends a request. -/
def ask (s : Process) (t c : ℕ) (ask : Ask) : Process :=
  { s with calls := s.calls + 1 }.setPc t (.asking c s.calls ask false)

/-- `_connection_lost` up to `settle_down` -/
def lose (s : Process) (connection : Option ℕ) : Process :=
  let s := { s with opened := false }
  match connection with
  | some c =>
      let s := (s.unlisten c).close c
      { s with connection := if s.connection = some c then none else s.connection }
  | none => s

/-- After `settle_down`. -/
def leave (s : Process) : Left → Process
  | .detached => s
  | .lost => { s with awaiting := [], state := { s.state with status := .waiting, inTurn := false } }
  | .stopped connection =>
      let s := { s with awaiting := [], state := { s.state with status := .stopped } }
      match connection with
      | some c =>
          { s.close c with connection := if s.connection = some c then none else s.connection }
      | none => s

/-- What a thread does next by itself. -/
def go (s : Process) (t : ℕ) : Pc → Option Process
  | .noting text =>
      let ticket := { text, after := max s.seen s.state.seq }
      some ({ s with
        awaiting := s.awaiting ++ [ticket], state := { s.state with status := .busy }
        calls := s.calls + 1 }.setPc t (.posting ticket s.calls))
  | .posting ticket k =>
      let (s, c) := s.link
      some ({ s with posted := Function.update s.posted k (some ticket) }.setPc t
        (.asking c k (.send ticket) false))
  | .refreshing => match s.connection with
      | some c => some (s.ask t c .status)
      | none => some (s.setPc t .idle)
  | .losing connection => some ((s.lose connection).setPc t (.unlistening .lost))
  | .unlistening left =>
      let s := match s.connection with
        | some c => s.unlisten c
        | none => s
      some (s.setPc t (.clearing left))
  | .clearing left => some ({ s with awaiting := [] }.setPc t (.signing left))
  | .signing left =>
      let s := if s.caller = none then s else { s with inbox := s.inbox ++ [none] }
      some (s.setPc t (.settled left))
  | .settled left => some ((s.leave left).setPc t .idle)
  | _ => none

/-- A send is answered once the message is in the daemon's hands. -/
def servable (s : Process) (k : ℕ) : Ask → Bool
  | .send _ => (s.taken k).isSome
  | _ => true

/-- The daemon serves a request other than `open`. -/
def reply (s : Process) (c k : ℕ) (snapshot : Snapshot) : Ask → Process
  | .send _ => s.write c (.reply k none)
  | .status => s.write c (.reply k (some snapshot))
  | .detach => (s.unsubscribe c).write c (.reply k none)
  | .stop => s.write c (.reply k none)

/-- What the link's thread does with a line. -/
def pump (s : Process) (c : ℕ) (rest : List Line) : Line → Process
  | .frame frame =>
      let link := s.links c
      s.setLink c { link with wire := rest, hand := link.listener.map fun g => (g, frame) }
  | .reply k snapshot =>
      { s.setLink c { s.links c with wire := rest } with
        answers := Function.update s.answers k (some snapshot) }

def step (s : Process) : Act → Option Process
  | .start t since => if s.pc t = .idle then some (s.setPc t (.starting since .start)) else none
  | .send t text =>
      if s.pc t ≠ .idle ∨ s.finished then none
      else if s.opened && s.connected then some (s.setPc t (.noting text))
      else some ({ s with opened := false }.setPc t (.starting (s.seen + 1) (.send text)))
  | .refresh t =>
      if s.pc t ≠ .idle then none
      else if s.opened && s.connected then some (s.setPc t .refreshing)
      else some (s.setPc t (.starting (s.seen + 1) .refresh))
  | .history t => if s.pc t = .idle then some s.link.1 else none
  | .detach t =>
      if s.pc t ≠ .idle ∨ s.finished ∨ !s.opened then none
      else match s.connection with
        | some c =>
            if (s.links c).alive then some (s.ask t c .detach) else some (s.setPc t (.losing (some c)))
        | none => some (s.setPc t (.losing none))
  | .stop t =>
      if s.pc t ≠ .idle ∨ s.finished then none
      else if !s.started then
        some ({ s with finished := true, opened := false }.setPc t (.unlistening (.stopped s.connection)))
      else match s.connection with
        | some c =>
            if (s.links c).alive then some (s.ask t c .stop) else some (s.setPc t (.losing (some c)))
        | none => some (s.setPc t (.losing none))
  | .enter t => match s.pc t with
      | .starting since why => if s.lock = none then some (s.enter t since why) else none
      | _ => none
  | .unlinked t => match s.pc t with
      | .starting _ _ =>
          if s.lock = none ∧ !s.finished ∧ !s.connected then
            some ({ s with opened := false }.setPc t .idle)
          else none
      | .posting ticket _ =>
          if s.connected then none
          else some ({ s with awaiting := s.awaiting.erase ticket }.setPc t .idle)
      | _ => none
  | .answered t => match s.pc t with
      | .opening _ g k since why _ => (s.answers k).map fun snapshot => s.succeed t g since why snapshot
      | .asking c k ask _ => (s.answers k).map fun snapshot => s.answer t c snapshot ask
      | _ => none
  | .raised t => match s.pc t with
      | .opening c g _ _ _ _ => some (s.refuse t c g)
      | .asking c _ ask _ => some (s.raise t c ask)
      | _ => none
  | .go t => s.go t (s.pc t)
  | .record record => if s.writable record then some { s with log := s.log ++ [record] } else none
  | .accept k => match s.posted k, s.taken k with
      | some ticket, none =>
          some { s with taken := Function.update s.taken k (some ⟨ticket.text, s.log.length⟩) }
      | _, _ => none
  | .attach t => match s.pc t with
      | .opening c g k since why .asked =>
          if (s.links c).up then
            let from_ := if since < 0 then s.log.length else since.toNat
            some ({ s.setLink c { s.links c with cursor := some from_ } with
              origin := Function.update s.origin g (some from_) }.setPc t
                (.opening c g k since why .attached))
          else none
      | _ => none
  | .serve t snapshot => match s.pc t with
      | .opening c g k since why .attached =>
          if (s.links c).up ∧ snapshot.seq + 1 = s.log.length then
            some ((s.write c (.reply k (some snapshot))).setPc t (.opening c g k since why .answered))
          else none
      | .asking c k ask false =>
          if (s.links c).up ∧ snapshot.seq + 1 ≤ s.log.length ∧ s.servable k ask then
            some ((s.reply c k snapshot ask).setPc t (.asking c k ask true))
          else none
      | _ => none
  | .stream c snapshot => match (s.links c).cursor with
      | some seq => match s.log[seq]? with
        | some record =>
            if snapshot.seq + 1 ≤ s.log.length then
              some ((s.setLink c { s.links c with cursor := some (seq + 1) }).write c
                (.frame (.event seq record (some snapshot))))
            else none
        | none => none
      | none => none
  | .part c snapshot =>
      if (s.links c).cursor.isSome ∧ snapshot.seq + 1 ≤ s.log.length then
        some ((s.unsubscribe c).write c (.frame (.gone (some snapshot))))
      else none
  | .drop c =>
      if c < s.linksMade then
        some (s.setLink c { s.links c with up := false, cursor := none })
      else none
  | .pump c => match (s.links c).hand, (s.links c).wire with
      | none, line :: rest => some (s.pump c rest line)
      | _, _ => none
  | .arrived c => match (s.links c).hand with
      | some arrived =>
          let s := { s.setLink c { s.links c with hand := none } with
            inbox := s.inbox ++ [some arrived] }
          some (if s.opened then s.dispatching else s)
      | none => none
  | .hangUp c =>
      let link := s.links c
      if link.up ∨ link.hand.isSome then none
      else some (s.setLink c { link with
        alive := false, wire := [], listener := none
        hand := link.listener.map fun g => (g, .disconnected) })
  | .get => match s.caller, s.inbox with
      | some .getting, some (g, frame) :: rest =>
          some { s with inbox := rest, caller := some (.holding g frame) }
      | some .getting, none :: rest => some { s with inbox := rest, caller := some .leaving }
      | _, _ => none
  | .deliver => match s.caller with
      | some (.holding g frame) =>
          if s.ready g ∧ s.lock = none then
            if s.accepted g ∧ s.generation = some g then some (s.deliver g frame)
            else some { s with caller := some .getting }
          else none
      | _ => none
  | .called => if s.caller = some .calling then some { s with caller := some .getting } else none
  | .ended =>
      if s.caller = some .leaving then
        let s := { s with caller := none }
        some (if s.opened && !s.finished then s.dispatching else s)
      else none

/-- What one step can do, and what has to hold for it. -/
inductive Moves (s : Process) : Act → Process → Prop where
  | start {t : ℕ} {since : ℤ} (idle : s.pc t = .idle) :
      Moves s (.start t since) (s.setPc t (.starting since .start))
  | send {t : ℕ} {text : String} (idle : s.pc t = .idle) (going : s.finished = false)
      (up : (s.opened && s.connected) = true) : Moves s (.send t text) (s.setPc t (.noting text))
  | sendOpening {t : ℕ} {text : String} (idle : s.pc t = .idle) (going : s.finished = false)
      (down : (s.opened && s.connected) = false) :
      Moves s (.send t text)
        ({ s with opened := false }.setPc t (.starting (s.seen + 1) (.send text)))
  | refresh {t : ℕ} (idle : s.pc t = .idle) (up : (s.opened && s.connected) = true) :
      Moves s (.refresh t) (s.setPc t .refreshing)
  | refreshOpening {t : ℕ} (idle : s.pc t = .idle) (down : (s.opened && s.connected) = false) :
      Moves s (.refresh t) (s.setPc t (.starting (s.seen + 1) .refresh))
  | history {t : ℕ} (idle : s.pc t = .idle) : Moves s (.history t) s.link.1
  | detach {t c : ℕ} (idle : s.pc t = .idle) (going : s.finished = false)
      (opened : s.opened = true) (linked : s.connection = some c)
      (alive : (s.links c).alive = true) : Moves s (.detach t) (s.ask t c .detach)
  | detachCut {t : ℕ} (idle : s.pc t = .idle) (going : s.finished = false)
      (opened : s.opened = true) (cut : s.connected = false) :
      Moves s (.detach t) (s.setPc t (.losing s.connection))
  | stopUnstarted {t : ℕ} (idle : s.pc t = .idle) (going : s.finished = false)
      (unstarted : s.started = false) :
      Moves s (.stop t) ({ s with finished := true, opened := false }.setPc t
        (.unlistening (.stopped s.connection)))
  | stop {t c : ℕ} (idle : s.pc t = .idle) (going : s.finished = false)
      (started : s.started = true) (linked : s.connection = some c)
      (alive : (s.links c).alive = true) : Moves s (.stop t) (s.ask t c .stop)
  | stopCut {t : ℕ} (idle : s.pc t = .idle) (going : s.finished = false)
      (started : s.started = true) (cut : s.connected = false) :
      Moves s (.stop t) (s.setPc t (.losing s.connection))
  | enter {t : ℕ} {since : ℤ} {why : Why} (starting : s.pc t = .starting since why)
      (unlocked : s.lock = none) : Moves s (.enter t) (s.enter t since why)
  | unlinked {t : ℕ} {since : ℤ} {why : Why} (starting : s.pc t = .starting since why)
      (unlocked : s.lock = none) (going : s.finished = false) (cut : s.connected = false) :
      Moves s (.unlinked t) ({ s with opened := false }.setPc t .idle)
  | unposted {t k : ℕ} {ticket : Ticket} (posting : s.pc t = .posting ticket k)
      (cut : s.connected = false) :
      Moves s (.unlinked t) ({ s with awaiting := s.awaiting.erase ticket }.setPc t .idle)
  | succeed {t c g k : ℕ} {since : ℤ} {why : Why} {stage : Stage} {snapshot : Option Snapshot}
      (opening : s.pc t = .opening c g k since why stage) (answers : s.answers k = some snapshot) :
      Moves s (.answered t) (s.succeed t g since why snapshot)
  | answer {t c k : ℕ} {ask : Ask} {served : Bool} {snapshot : Option Snapshot}
      (asking : s.pc t = .asking c k ask served) (answers : s.answers k = some snapshot) :
      Moves s (.answered t) (s.answer t c snapshot ask)
  | refuse {t c g k : ℕ} {since : ℤ} {why : Why} {stage : Stage}
      (opening : s.pc t = .opening c g k since why stage) : Moves s (.raised t) (s.refuse t c g)
  | raise {t c k : ℕ} {ask : Ask} {served : Bool} (asking : s.pc t = .asking c k ask served) :
      Moves s (.raised t) (s.raise t c ask)
  | go {t : ℕ} {s' : Process} (goes : s.go t (s.pc t) = some s') : Moves s (.go t) s'
  | record {record : Record} (writable : s.writable record = true) :
      Moves s (.record record) { s with log := s.log ++ [record] }
  | accept {k : ℕ} {ticket : Ticket} (posted : s.posted k = some ticket)
      (fresh : s.taken k = none) :
      Moves s (.accept k)
        { s with taken := Function.update s.taken k (some ⟨ticket.text, s.log.length⟩) }
  | attach {t c g k : ℕ} {since : ℤ} {why : Why} (opening : s.pc t = .opening c g k since why .asked)
      (up : (s.links c).up = true) :
      Moves s (.attach t)
        (let from_ := if since < 0 then s.log.length else since.toNat
        { s.setLink c { s.links c with cursor := some from_ } with
          origin := Function.update s.origin g (some from_) }.setPc t
            (.opening c g k since why .attached))
  | serveOpen {t c g k : ℕ} {since : ℤ} {why : Why} {snapshot : Snapshot}
      (opening : s.pc t = .opening c g k since why .attached) (up : (s.links c).up = true)
      (head : snapshot.seq + 1 = s.log.length) :
      Moves s (.serve t snapshot)
        ((s.write c (.reply k (some snapshot))).setPc t (.opening c g k since why .answered))
  | serve {t c k : ℕ} {ask : Ask} {snapshot : Snapshot} (asking : s.pc t = .asking c k ask false)
      (up : (s.links c).up = true) (reached : snapshot.seq + 1 ≤ s.log.length)
      (servable : s.servable k ask = true) :
      Moves s (.serve t snapshot) ((s.reply c k snapshot ask).setPc t (.asking c k ask true))
  | stream {c seq : ℕ} {record : Record} {snapshot : Snapshot}
      (cursor : (s.links c).cursor = some seq) (logged : s.log[seq]? = some record)
      (reached : snapshot.seq + 1 ≤ s.log.length) :
      Moves s (.stream c snapshot) ((s.setLink c { s.links c with cursor := some (seq + 1) }).write c
        (.frame (.event seq record (some snapshot))))
  | part {c : ℕ} {snapshot : Snapshot} (cursor : (s.links c).cursor.isSome = true)
      (reached : snapshot.seq + 1 ≤ s.log.length) :
      Moves s (.part c snapshot) ((s.unsubscribe c).write c (.frame (.gone (some snapshot))))
  | drop {c : ℕ} (made : c < s.linksMade) :
      Moves s (.drop c) (s.setLink c { s.links c with up := false, cursor := none })
  | pump {c : ℕ} {line : Line} {rest : List Line} (clear : (s.links c).hand = none)
      (wire : (s.links c).wire = line :: rest) : Moves s (.pump c) (s.pump c rest line)
  | arrived {c : ℕ} {arrived : ℕ × Frame} (hand : (s.links c).hand = some arrived) :
      Moves s (.arrived c)
        (let s := { s.setLink c { s.links c with hand := none } with
          inbox := s.inbox ++ [some arrived] }
        if s.opened then s.dispatching else s)
  | hangUp {c : ℕ} (down : (s.links c).up = false) (clear : (s.links c).hand = none) :
      Moves s (.hangUp c) (s.setLink c { s.links c with
        alive := false, wire := [], listener := none
        hand := (s.links c).listener.map fun g => (g, .disconnected) })
  | get {g : ℕ} {frame : Frame} {rest : List (Option (ℕ × Frame))}
      (getting : s.caller = some .getting) (inbox : s.inbox = some (g, frame) :: rest) :
      Moves s .get { s with inbox := rest, caller := some (.holding g frame) }
  | leave {rest : List (Option (ℕ × Frame))} (getting : s.caller = some .getting)
      (inbox : s.inbox = none :: rest) :
      Moves s .get { s with inbox := rest, caller := some .leaving }
  | deliver {g : ℕ} {frame : Frame} (holding : s.caller = some (.holding g frame))
      (ready : s.ready g = true) (unlocked : s.lock = none) (accepted : s.accepted g = true)
      (current : s.generation = some g) : Moves s .deliver (s.deliver g frame)
  /-- The frame is of a generation that is not the current one. -/
  | discard {g : ℕ} {frame : Frame} (holding : s.caller = some (.holding g frame))
      (ready : s.ready g = true) (unlocked : s.lock = none)
      (stale : ¬(s.accepted g = true ∧ s.generation = some g)) :
      Moves s .deliver { s with caller := some .getting }
  | called (calling : s.caller = some .calling) : Moves s .called { s with caller := some .getting }
  | ended (leaving : s.caller = some .leaving) :
      Moves s .ended
        (let s := { s with caller := none }
        if s.opened && !s.finished then s.dispatching else s)

theorem connected_of_linked {s : Process} {c : ℕ} (linked : s.connection = some c) :
    s.connected = (s.links c).alive := by
  unfold connected
  rw [linked, Option.any_some]

theorem connected_of_unlinked {s : Process} (unlinked : s.connection = none) :
    s.connected = false := by
  unfold connected
  rw [unlinked, Option.any_none]

theorem moves_of_step {s s' : Process} {act : Act} (h : s.step act = some s') : s.Moves act s' := by
  cases act with
  | start t since =>
    obtain ⟨idle, ⟨⟩⟩ := Option.ite_none_right_eq_some.mp h
    exact .start idle
  | send t text =>
    dsimp only [step] at h
    split_ifs at h with off up
    · cases h
      rw [not_or, not_not, Bool.not_eq_true] at off
      exact .send off.1 off.2 up
    · cases h
      rw [not_or, not_not, Bool.not_eq_true] at off
      exact .sendOpening off.1 off.2 (Bool.eq_false_iff.mpr up)
  | refresh t =>
    dsimp only [step] at h
    split_ifs at h with off up
    · cases h
      exact .refresh (not_not.mp off) up
    · cases h
      exact .refreshOpening (not_not.mp off) (Bool.eq_false_iff.mpr up)
  | history t =>
    obtain ⟨idle, ⟨⟩⟩ := Option.ite_none_right_eq_some.mp h
    exact .history idle
  | detach t =>
    dsimp only [step] at h
    split_ifs at h with off
    simp only [not_or, not_not, Bool.not_eq_true, Bool.not_eq_false'] at off
    obtain ⟨idle, going, opened⟩ := off
    split at h
    · next linked =>
      split_ifs at h with alive
      · cases h
        exact .detach idle going opened linked alive
      · cases h
        rw [← linked]
        exact .detachCut idle going opened
          ((connected_of_linked linked).trans (Bool.eq_false_iff.mpr alive))
    · next unlinked =>
      cases h
      rw [← unlinked]
      exact .detachCut idle going opened (connected_of_unlinked unlinked)
  | stop t =>
    dsimp only [step] at h
    split_ifs at h with off unstarted
    · cases h
      rw [not_or, not_not, Bool.not_eq_true] at off
      exact .stopUnstarted off.1 off.2 (by simpa using unstarted)
    · rw [not_or, not_not, Bool.not_eq_true] at off
      have started : s.started = true := by simpa using unstarted
      split at h
      · next linked =>
        split_ifs at h with alive
        · cases h
          exact .stop off.1 off.2 started linked alive
        · cases h
          rw [← linked]
          exact .stopCut off.1 off.2 started
            ((connected_of_linked linked).trans (Bool.eq_false_iff.mpr alive))
      · next unlinked =>
        cases h
        rw [← unlinked]
        exact .stopCut off.1 off.2 started (connected_of_unlinked unlinked)
  | enter t =>
    dsimp only [step] at h
    split at h
    · next starting =>
      obtain ⟨unlocked, ⟨⟩⟩ := Option.ite_none_right_eq_some.mp h
      exact .enter starting unlocked
    · cases h
  | unlinked t =>
    dsimp only [step] at h
    split at h
    · next starting =>
      obtain ⟨⟨unlocked, going, cut⟩, ⟨⟩⟩ := Option.ite_none_right_eq_some.mp h
      exact .unlinked starting unlocked (by simpa using going) (by simpa using cut)
    · next posting =>
      obtain ⟨cut, ⟨⟩⟩ := Option.ite_none_left_eq_some.mp h
      exact .unposted posting (Bool.eq_false_iff.mpr cut)
    · cases h
  | answered t =>
    dsimp only [step] at h
    split at h
    · next opening =>
      obtain ⟨snapshot, answers, rfl⟩ := Option.map_eq_some_iff.mp h
      exact .succeed opening answers
    · next asking =>
      obtain ⟨snapshot, answers, rfl⟩ := Option.map_eq_some_iff.mp h
      exact .answer asking answers
    · cases h
  | raised t =>
    dsimp only [step] at h
    split at h
    · next opening =>
      cases h
      exact .refuse opening
    · next asking =>
      cases h
      exact .raise asking
    · cases h
  | go t => exact .go h
  | record record =>
    obtain ⟨writable, ⟨⟩⟩ := Option.ite_none_right_eq_some.mp h
    exact .record writable
  | accept k =>
    dsimp only [step] at h
    split at h
    · next posted fresh =>
      cases h
      exact .accept posted fresh
    · cases h
  | attach t =>
    dsimp only [step] at h
    split at h
    · next opening =>
      obtain ⟨up, ⟨⟩⟩ := Option.ite_none_right_eq_some.mp h
      exact .attach opening up
    · cases h
  | serve t snapshot =>
    dsimp only [step] at h
    split at h
    · next opening =>
      obtain ⟨⟨up, head⟩, ⟨⟩⟩ := Option.ite_none_right_eq_some.mp h
      exact .serveOpen opening up head
    · next asking =>
      obtain ⟨⟨up, reached, servable⟩, ⟨⟩⟩ := Option.ite_none_right_eq_some.mp h
      exact .serve asking up reached servable
    · cases h
  | stream c snapshot =>
    dsimp only [step] at h
    split at h
    · next cursor =>
      split at h
      · next logged =>
        obtain ⟨reached, ⟨⟩⟩ := Option.ite_none_right_eq_some.mp h
        exact .stream cursor logged reached
      · cases h
    · cases h
  | part c snapshot =>
    obtain ⟨⟨cursor, reached⟩, ⟨⟩⟩ := Option.ite_none_right_eq_some.mp h
    exact .part cursor reached
  | drop c =>
    obtain ⟨made, ⟨⟩⟩ := Option.ite_none_right_eq_some.mp h
    exact .drop made
  | pump c =>
    dsimp only [step] at h
    split at h
    · next clear wire =>
      cases h
      exact .pump clear wire
    · cases h
  | arrived c =>
    dsimp only [step] at h
    split at h
    · next hand =>
      cases h
      exact .arrived hand
    · cases h
  | hangUp c =>
    obtain ⟨off, ⟨⟩⟩ := Option.ite_none_left_eq_some.mp h
    rw [not_or] at off
    exact .hangUp (by simpa using off.1) (by simpa using off.2)
  | get =>
    dsimp only [step] at h
    split at h
    · next getting inbox =>
      cases h
      exact .get getting inbox
    · next getting inbox =>
      cases h
      exact .leave getting inbox
    · cases h
  | deliver =>
    dsimp only [step] at h
    split at h
    · next holding =>
      split_ifs at h with open_ current
      · cases h
        exact .deliver holding open_.1 open_.2 current.1 current.2
      · cases h
        exact .discard holding open_.1 open_.2 current
    · cases h
  | called =>
    obtain ⟨calling, ⟨⟩⟩ := Option.ite_none_right_eq_some.mp h
    exact .called calling
  | ended =>
    obtain ⟨leaving, ⟨⟩⟩ := Option.ite_none_right_eq_some.mp h
    exact .ended leaving

def machine : Lib.Machine Process Act where
  init s := s = {}
  step := step

/-- `status` -/
def status (s : Process) : Status := if s.awaiting = [] then s.state.status else .busy

/-- `idle` -/
def isIdle (s : Process) : Bool :=
  s.awaiting = [] && s.state.status = .waiting && !s.state.inTurn && s.inbox.isEmpty

end Process
end SiliconOmni.Python
