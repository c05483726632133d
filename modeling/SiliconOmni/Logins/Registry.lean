import SiliconOmni.Process.Ends
import SiliconOmni.Text
import SiliconOmni.Value

/-! The logins in flight: one browser login a provider, begun, finished, reaped and shut down by
threads that hold no lock while they stop a child. -/
namespace SiliconOmni

/-- The text from the first place where `needle` stands. -/
def fromFirst (needle : List Char) : List Char → Option (List Char)
  | [] => if needle = [] then some [] else none
  | c :: rest => if needle <+: c :: rest then some (c :: rest) else fromFirst needle rest

/-- The first thing in a line that looks like somewhere to go. -/
def firstUrl (line : String) : Option String :=
  let found := (fromFirst "http://".toList line.toList).or (fromFirst "https://".toList line.toList)
  found.bind fun text =>
    let url := String.ofList (text.takeWhile fun c =>
      !whiteSpace c && !("\"'<>()]".toList.contains c))
    if 8 < url.utf8ByteSize then some url else none

/-- A login with its child, its provider, and the epoch that was read before the child was
spawned. -/
structure Login where
  proc : Process
  provider : String
  epoch : ℕ

/-- What `begin` was asked. -/
structure Begin where
  provider : String
  argv : List String
  deriving DecidableEq, Repr

def Begin.command (call : Begin) : String := " ".intercalate call.argv

namespace Logins

/-- What a thread does once it has stopped what it holds. -/
inductive Next where
  | wait (call : Begin) (token : ℕ)
  | answer (text : String)
  | finish
  deriving DecidableEq, Repr

/-- How far a thread is. -/
inductive Pc where
  | idle
  /-- `begin` has read the epoch. -/
  | reading (call : Begin) (epoch : ℕ)
  | naming (call : Begin) (epoch token : ℕ)
  /-- The child runs, and `track` is still to enter it. -/
  | spawned (call : Begin) (epoch token : ℕ)
  /-- It is entered, in place of an older one; whether it is alive is still to be seen. -/
  | entered (call : Begin) (token : ℕ) (old : Option ℕ)
  | dead (call : Begin) (token : ℕ) (old : Option ℕ)
  | waiting (call : Begin) (token : ℕ)
  /-- No URL came in time. -/
  | silent (call : Begin) (token : ℕ)
  | giving (call : Begin) (token : ℕ) (transcript : String)
  /-- `complete` has taken the login and has the code to hand over. -/
  | handing (token : ℕ) (code : String)
  | stopping (tokens : List ℕ) (next : Next)
  /-- `shutdown` has raised the epoch. -/
  | draining
  deriving DecidableEq, Repr

/-- Where a thread stands that is to stop these children and then to go on. -/
def Pc.after : List ℕ → Next → Pc
  | [], .wait call token => waiting call token
  | [], _ => idle
  | tokens, next => stopping tokens next

/-- The children that a thread is still to enter or to stop. -/
def Pc.holds : Pc → List ℕ
  | spawned _ _ token | handing token _ => [token]
  | entered _ _ old | dead _ _ old => old.toList
  | stopping tokens _ => tokens
  | _ => []

/-- The child that a thread has entered and is still to look after. -/
def Pc.checks : Pc → Option ℕ
  | entered _ token _ | dead _ token _ => some token
  | _ => none

end Logins

/-- The logins in flight, the two counters, every child that was started, and the threads; what
`begin` answered is kept for the record. -/
structure Logins where
  inFlight : Entries ℕ := []
  nextLogin : ℕ := 1
  loginEpoch : ℕ := 0
  child : ℕ → Option Login := fun _ => none
  pc : ℕ → Logins.Pc := fun _ => .idle
  reaper : Bool := false
  answers : List (ℕ × String) := []

namespace Logins

def setPc (s : Logins) (thread : ℕ) (pc : Pc) : Logins :=
  { s with pc := Function.update s.pc thread pc }

def setChild (s : Logins) (token : ℕ) (login : Login) : Logins :=
  { s with child := Function.update s.child token (some login) }

/-- Stop what is held, one after another, and go on. -/
def retire (s : Logins) (thread : ℕ) (tokens : List ℕ) (next : Next) : Logins :=
  { s.setPc thread (.after tokens next) with
    answers := match tokens, next with
      | [], .answer text => s.answers ++ [(thread, text)]
      | _, _ => s.answers }

/-- Remove a provider's login, optionally only if it is the one the caller observed. -/
def take (s : Logins) (provider : String) (token : Option ℕ) : Option ℕ × Logins :=
  match s.inFlight.lookup provider with
  | some found =>
    if token.all (· = found) then
      (some found, { s with inFlight := Entries.remove s.inFlight provider })
    else (none, s)
  | none => (none, s)

/-- The section of `track`: the login is entered unless a shutdown has passed it by. -/
def track (s : Logins) (thread : ℕ) (call : Begin) (epoch token : ℕ) : Logins :=
  if s.loginEpoch = epoch then
    { s.setPc thread (.entered call token (s.inFlight.lookup call.provider)) with
      inFlight := Entries.insert s.inFlight call.provider token
      reaper := true }
  else s.retire thread [token] (.answer "omni stopped this login during shutdown")

def isAlive (s : Logins) (token : ℕ) : Bool := (s.child token).any (·.proc.running)

/-- Everything a child said. -/
def said (s : Logins) (token : ℕ) : List String :=
  ((s.child token).map (·.proc.heard)).getD [] |>.filterMap fun word =>
    match word with
    | .line _ text => some text
    | .exit _ => none

/-- The moves of `stop`. -/
def stops : Process.Move → Option ℕ
  | .stop t | .signal t | .kill t | .settle t | .shut t | .done t => some t
  | _ => none

inductive Act where
  /-- A child and the threads that serve it. -/
  | child (token : ℕ) (move : Process.Move)
  | begin_ (thread : ℕ) (call : Begin)
  | name (thread : ℕ)
  | spawn (thread : ℕ) (ok : Bool)
  | track (thread : ℕ)
  | check (thread : ℕ)
  | drop (thread : ℕ)
  | receive (thread : ℕ)
  | timeout (thread : ℕ)
  | transcribe (thread : ℕ)
  | abandon (thread : ℕ)
  | complete (thread : ℕ) (provider code : String)
  | hand (thread : ℕ) (taken : Bool)
  /-- The sweep, which finds some expired, and all that are dead. -/
  | sweep (thread : ℕ) (expired : List String)
  | shutdown (thread : ℕ)
  | drain (thread : ℕ)
  /-- A thread goes on stopping the first child it holds. -/
  | stop (thread : ℕ) (move : Process.Move)
  deriving DecidableEq, Repr

/-- A move of a child; the callback that hears of its exit takes the login out of flight. -/
def moveChild (s : Logins) (token : ℕ) (move : Process.Move) : Option Logins :=
  match s.child token with
  | some login =>
    match login.proc.step move with
    | some proc =>
      let s := s.setChild token { login with proc }
      some (if move = .hear .reaper then (s.take login.provider (some token)).2 else s)
    | none => none
  | none => none

/-- A thread goes on with `stop`; once it returns, the next child is due. -/
def moveStop (s : Logins) (thread : ℕ) (move : Process.Move) : Option Logins :=
  match s.pc thread with
  | .stopping (token :: tokens) next =>
    if stops move = some thread then
      match s.child token with
      | some login =>
        match login.proc.step move with
        | some proc =>
          let s := s.setChild token { login with proc }
          some (if move = .done thread then s.retire thread tokens next else s)
        | none => none
      | none => none
    else none
  | _ => none

def step (s : Logins) : Act → Option Logins
  | .child token move => if move.own then s.moveChild token move else none
  | .begin_ t call =>
    match s.pc t with
    | .idle => some (s.setPc t (.reading call s.loginEpoch))
    | _ => none
  | .name t =>
    match s.pc t with
    | .reading call epoch =>
      some { s.setPc t (.naming call epoch s.nextLogin) with nextLogin := s.nextLogin + 1 }
    | _ => none
  | .spawn t ok =>
    match s.pc t with
    | .naming call epoch token =>
      some (if ok then
        (s.setChild token { proc := .start true true true, provider := call.provider, epoch }).setPc t
          (.spawned call epoch token)
      else s.retire t [] (.answer ("omni could not run " ++ call.command)))
    | _ => none
  | .track t =>
    match s.pc t with
    | .spawned call epoch token => some (s.track t call epoch token)
    | _ => none
  | .check t =>
    match s.pc t with
    | .entered call token old =>
      some (if s.isAlive token then s.retire t old.toList (.wait call token)
        else s.setPc t (.dead call token old))
    | _ => none
  | .drop t =>
    match s.pc t with
    | .dead call token old =>
      some ((s.take call.provider (some token)).2.retire t old.toList (.wait call token))
    | _ => none
  | .receive t =>
    match s.pc t with
    | .waiting _ token => ((s.said token).findSome? firstUrl).map fun url => s.retire t [] (.answer url)
    | _ => none
  | .timeout t =>
    match s.pc t with
    | .waiting call token =>
      if (s.said token).findSome? firstUrl = none then some (s.setPc t (.silent call token)) else none
    | _ => none
  | .transcribe t =>
    match s.pc t with
    | .silent call token => some (s.setPc t (.giving call token ("\n".intercalate (s.said token))))
    | _ => none
  | .abandon t =>
    match s.pc t with
    | .giving call token transcript =>
      let answer := trim (transcript ++
        "\n\nomni could not drive this login. Run it yourself: " ++ call.command)
      let (_, s) := s.take call.provider (some token)
      some (s.setPc t (.stopping [token] (.answer answer)))
    | _ => none
  | .complete t provider code =>
    match s.pc t with
    | .idle =>
      match s.take provider none with
      | (some token, s) => some (s.setPc t (.handing token code))
      | (none, s) => some s
    | _ => none
  | .hand t taken =>
    match s.pc t with
    | .handing token code =>
      match s.child token with
      | some login =>
        let proc := if trim code = "" then login.proc else (login.proc.sendLine (trim code) taken).2
        some ((s.setChild token { login with proc }).retire t [token] .finish)
      | none => none
    | _ => none
  | .sweep t expired =>
    match s.pc t with
    | .idle =>
      if s.reaper then
        let gone := s.inFlight.filter fun entry => expired.contains entry.1 || !s.isAlive entry.2
        let s := { s with
          inFlight := s.inFlight.filter fun entry => !(expired.contains entry.1 || !s.isAlive entry.2) }
        some (s.retire t (gone.map (·.2)) .finish)
      else none
    | _ => none
  | .shutdown t =>
    match s.pc t with
    | .idle => some { s.setPc t .draining with loginEpoch := s.loginEpoch + 1 }
    | _ => none
  | .drain t =>
    match s.pc t with
    | .draining =>
      let flight := s.inFlight.map (·.2)
      let s := { s with inFlight := [] }
      some (s.retire t flight .finish)
    | _ => none
  | .stop t move => s.moveStop t move

def machine : Lib.Machine Logins Act where
  init s := s = {}
  step := step

end Logins
end SiliconOmni
