import SiliconOmni.Event

/-! The two files of a session: the append-only event log, and the metadata beside it. -/
namespace SiliconOmni

/-- A user message accepted by omni but not yet represented by an opening event. The id, rather
than the text, tells duplicate messages apart after a crash. -/
structure PendingMessage where
  id : String
  text : String
  deriving DecidableEq, Repr

/-- The session a provider holds of its own, and how far up the log it has been told. -/
structure Native where
  id : String := ""
  synced : ℤ := -1
  deriving DecidableEq, Repr

/-- The metadata file. -/
structure MetaData where
  providers : Entries Native := []
  settings : Fields := []
  pending : List PendingMessage := []
  /-- Every other key: the recovery state, the history boundary, and two older spellings. -/
  top : Fields := []
  deriving DecidableEq, Repr

/-- What survives the process. -/
structure Disk where
  log : List Event := []
  data : MetaData := {}
  deriving DecidableEq, Repr

/-- The log as the daemon holds it in memory. -/
structure Store where
  events : List Event := []
  loadError : Option String := none
  deriving DecidableEq, Repr

namespace Store

/-- The position the next event must take. -/
def expected (events : List Event) : ℤ := (events.getLast?.map (·.seq + 1)).getD 0

/-- Why a record cannot follow the events read so far, if it cannot. -/
def reject [Host] (sessionId : String) (events : List Event) (event : Event) (line : ℕ) :
    Option String :=
  let expected := expected events
  let seq := event.seq
  let v := event.v
  if event.v ≠ SCHEMA_VERSION then
    some s!"unsupported event schema {v} on line {line}; expected {SCHEMA_VERSION}"
  else if event.eventType.name = "" then
    some s!"invalid event on line {line}: type cannot be empty"
  else if event.seq ≠ expected then
    some s!"invalid event sequence {seq} on line {line}; expected {expected}"
  else if event.session ≠ "" ∧ event.session ≠ sessionId then
    let theirs := Host.json (.string event.session)
    let ours := Host.json (.string sessionId)
    some s!"event on line {line} belongs to session {theirs}, not {ours}"
  else none

/-- Read records onto the known-good prefix, up to the first one that is rejected. -/
def load [Host] (sessionId : String) : Store → List Event → ℕ → Store
  | store, [], _ => store
  | store, event :: rest, line =>
      match reject sessionId store.events event line with
      | some error => { store with loadError := some error }
      | none => load sessionId { store with events := store.events ++ [event] } rest (line + 1)

/-- Read what is already on disk. -/
def open_ [Host] (sessionId : String) (log : List Event) : Store := load sessionId {} log 1

def seq (store : Store) : ℤ := (store.events.getLast?.map (·.seq)).getD (-1)

/-- The newest omni turn already in the log. -/
def turn (store : Store) : ℤ :=
  store.events.foldl (fun turn event =>
    if 0 ≤ event.turn then max turn event.turn
    else if event.is .start then turn + 1
    else turn) (-1)

/-- The event with its position in the session. -/
def place (store : Store) (sessionId : String) (event : Event) : Event :=
  { event with
    seq := store.seq + 1
    session := if event.session = "" then sessionId else event.session }

def push (store : Store) (event : Event) : Store :=
  { store with events := store.events ++ [event] }

def eventsSince (store : Store) (since : ℤ) : List Event :=
  store.events.filter fun event => since ≤ event.seq

/-- Just the conversation: what a provider needs to be brought up to date. -/
def history (store : Store) (since : ℤ) : List Event :=
  store.events.filter fun event => since ≤ event.seq ∧ event.isHistory

end Store

/-- `event` may come next after `log` in the file of its session. -/
structure Placed (sessionId : String) (log : List Event) (event : Event) : Prop where
  v : event.v = SCHEMA_VERSION
  named : event.eventType.name ≠ ""
  seq : event.seq = Store.expected log
  session : event.session = sessionId

/-- Every event may come next after those before it. -/
def Follows (sessionId : String) : List Event → List Event → Prop
  | _, [] => True
  | log, event :: rest => Placed sessionId log event ∧ Follows sessionId (log ++ [event]) rest

theorem follows_append {sessionId : String} {log es fs : List Event} :
    Follows sessionId log (es ++ fs) ↔
      Follows sessionId log es ∧ Follows sessionId (log ++ es) fs := by
  induction es generalizing log with
  | nil => simp [Follows]
  | cons e es ih => simp [Follows, ih, and_assoc]

namespace Store

theorem seq_succ (store : Store) : store.seq + 1 = expected store.events := by
  unfold seq expected
  cases store.events.getLast? <;> simp

theorem reject_of_placed [Host] {sessionId : String} {log : List Event} {event : Event}
    (h : Placed sessionId log event) (line : ℕ) : reject sessionId log event line = none := by
  simp [reject, h.v, h.named, h.seq, h.session]

theorem load_of_follows [Host] {sessionId : String} {store : Store} {rest : List Event}
    (h : Follows sessionId store.events rest) (line : ℕ) :
    load sessionId store rest line = { store with events := store.events ++ rest } := by
  induction rest generalizing store line with
  | nil => simp [load]
  | cons event rest ih =>
    unfold load
    rw [reject_of_placed h.1]
    have hrest : load sessionId { store with events := store.events ++ [event] } rest (line + 1) =
        _ := ih h.2 (line + 1)
    rw [hrest]
    simp

/-- A log whose every event was placed is read back whole. -/
theorem open_of_follows [Host] {sessionId : String} {log : List Event}
    (h : Follows sessionId [] log) : open_ sessionId log = { events := log } := by
  unfold open_
  rw [load_of_follows (by simpa using h)]
  simp

end Store

namespace MetaData

/-- The native session id this provider holds, and how far it has been told. -/
def native (data : MetaData) (provider : String) : Native :=
  (data.providers.lookup provider).getD {}

def bind (data : MetaData) (provider id : String) : MetaData :=
  { data with providers := Entries.insert data.providers provider { data.native provider with id } }

def markSynced (data : MetaData) (provider : String) (synced : ℤ) : MetaData :=
  { data with
    providers := Entries.insert data.providers provider { data.native provider with synced } }

def get (data : MetaData) (key : String) : Option Value :=
  (data.top.lookup key).filter fun value => !value.isNull

def setting (data : MetaData) (key : String) : Option Value :=
  (data.settings.lookup key).filter fun value => !value.isNull

def setSetting (data : MetaData) (key : String) (value : Value) : MetaData :=
  { data with settings := Entries.insert data.settings key value }

/-- Fill only settings that have never been pinned. -/
def initializeSettings (data : MetaData) (defaults : Fields) : MetaData :=
  { data with
    settings := defaults.foldl (fun settings entry =>
      if (settings.lookup entry.1).isSome then settings
      else Entries.insert settings entry.1 entry.2) data.settings }

/-- Add one message behind everything already accepted. -/
def enqueue (data : MetaData) (message : PendingMessage) : MetaData :=
  { data with pending := data.pending ++ [message] }

/-- Put unfinished work ahead of newer work. -/
def retry (data : MetaData) (messages : List PendingMessage) : MetaData :=
  { data with pending := messages ++ data.pending }

/-- Remove one message, after its opening event is durable. -/
def complete (data : MetaData) (id : String) : MetaData :=
  { data with pending := data.pending.filter (·.id ≠ id) }

/-- Repair the window between an append that succeeded and the removal that did not. -/
def reconcile (data : MetaData) (delivered : List String) : MetaData :=
  { data with pending := data.pending.filter fun message => !delivered.contains message.id }

/-- A queue less the message of that id, where there is one to drop. -/
def without (gone : Option String) (queue : List PendingMessage) : List PendingMessage :=
  match gone with
  | some id => queue.filter (·.id ≠ id)
  | none => queue

def RECOVERY : String := "context_recovery_state"
def HISTORY_START : String := "history_start"

/-- Commit a recovery transition and replace any superseded message together. Resetting the
context forgets native ids, never the log. -/
def recover (data : MetaData) (state : Value) (historyStart : Option ℤ)
    (message : Option PendingMessage) (superseded : Option String) : MetaData :=
  let top := Entries.insert data.top RECOVERY state
  { data with
    top := match historyStart with
      | some since => Entries.insert top HISTORY_START (.number since)
      | none => top
    providers := match historyStart with
      | some _ => []
      | none => data.providers
    pending := message.toList ++ without superseded data.pending }

/-- What makes the pending list of a metadata file unreadable, if anything does. -/
def rejectPending : List String → List PendingMessage → ℕ → Option String
  | _, [], _ => none
  | ids, message :: rest, index =>
      if message.id = "" then some s!"pending[{index}].id cannot be empty"
      else if ids.contains message.id then
        some s!"pending[{index}].id duplicates an earlier message"
      else rejectPending (message.id :: ids) rest (index + 1)

end MetaData

/-- The metadata as the daemon holds it in memory. -/
structure Meta where
  data : MetaData := {}
  loadError : Option String := none
  deriving DecidableEq, Repr

/-- Metadata that cannot be read is an error, never an empty file. -/
def Meta.open_ (data : MetaData) : Meta :=
  match MetaData.rejectPending [] data.pending 0 with
  | some error => { loadError := some error }
  | none => { data }

end SiliconOmni
