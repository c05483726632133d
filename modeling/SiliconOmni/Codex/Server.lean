import SiliconOmni.Codex.Stream

/-! One warm `codex app-server`, shared by every session that rents a thread of it. -/
namespace SiliconOmni.Codex

/-- Where a thread's events go, the parser state that names them, and the turn open on it. Whose
ear it is goes by number. -/
structure Route where
  emit : ℕ
  stream : Stream
  turn : String := ""
  deriving DecidableEq

/-- What the sessions and the reader of one server share. -/
structure Shared where
  routes : Entries Route := []
  /-- The newest notification of each method that names no thread. -/
  notices : Entries Value := []

def exitEvent (generation : ℕ) (code : ℤ) : ItemEvent :=
  { ((Event.failure .crash s!"codex app-server exited unexpectedly with {code}").from_
      CODEX).with_ GENERATION (.number generation) with }

/-- The thread that a notification names. -/
def threadOf (params : Value) : Option String := params.str? "threadId"

namespace Route

/-- The turn that is open after a notification. -/
def follow (route : Route) (method : String) (params : Value) : Route :=
  match method with
  | "turn/started" => { route with turn := ((params.at_ "turn").str? "id").getD "" }
  | "turn/completed" => { route with turn := "" }
  | _ => route

@[simp] theorem follow_stream (route : Route) (method : String) (params : Value) :
    (route.follow method params).stream = route.stream := by
  unfold follow
  split <;> rfl

/-- `Shared::retune`, on one route. -/
def tune (route : Route) (model : String) : Route :=
  { route with stream := { route.stream with model } }

section
variable [Host]

def hear (route : Route) (method : String) (params : Value) : List ItemEvent × Route :=
  let followed := route.follow method params
  let (events, stream) := followed.stream.feed method params
  (events, { followed with stream })

@[simp] theorem hear_emit (route : Route) (method : String) (params : Value) :
    (route.hear method params).2.emit = route.emit := by
  unfold hear follow
  split <;> rfl

@[simp] theorem hear_stream (route : Route) (method : String) (params : Value) :
    (route.hear method params).2.stream = (route.stream.feed method params).2 := by
  simp [hear]

@[simp] theorem hear_events (route : Route) (method : String) (params : Value) :
    (route.hear method params).1 = (route.stream.feed method params).1 := by
  simp [hear]

end
end Route

namespace Shared

section
variable [Host]

/-- One notification: it is the account's where it names no thread, and else it goes to the ear
that listens to the thread, if there is one. -/
def notify (s : Shared) (method : String) (params : Value) : List (ℕ × ItemEvent) × Shared :=
  match threadOf params with
  | none => ([], { s with notices := Entries.insert s.notices method params })
  | some thread =>
      match s.routes.lookup thread with
      | none => ([], s)
      | some route =>
          let (events, heard) := route.hear method params
          (events.map fun event => (route.emit, event),
            { s with routes := Entries.insert s.routes thread heard })

end

/-- Start listening for one thread's turns. -/
def attach (s : Shared) (thread model : String) (emit : ℕ) : Shared :=
  { s with routes := Entries.insert s.routes thread { emit, stream := .new model } }

def detach (s : Shared) (thread : String) : Shared :=
  { s with routes := Entries.remove s.routes thread }

def retune (s : Shared) (thread model : String) : Shared :=
  match s.routes.lookup thread with
  | some route =>
      { s with routes := Entries.insert s.routes thread (route.tune model) }
  | none => s

/-- The turn currently open on a thread, if there is one. -/
def turnOf (s : Shared) (thread : String) : String :=
  ((s.routes.lookup thread).map (·.turn)).getD ""

/-- How many sessions listen. -/
def attached (s : Shared) : ℕ := s.routes.length

/-- The last thing the server volunteered under this method, if anything. -/
def last (s : Shared) (method : String) : Option Value := s.notices.lookup method

def forget (s : Shared) (method : String) : Shared :=
  { s with notices := Entries.remove s.notices method }

end Shared
end SiliconOmni.Codex
