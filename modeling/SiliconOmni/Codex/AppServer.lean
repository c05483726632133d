import SiliconOmni.Ascii
import SiliconOmni.Lib.Transition
import Mathlib.Logic.Function.Basic
import Mathlib.Data.List.Perm.Basic
import Mathlib.Data.List.Sort

/-! The JSON-RPC client of an app-server: calls on any threads, the thread that hears the server's
lines, and the one that announces its exit, each a step between two locks at a time. -/
namespace SiliconOmni.Codex

namespace AppServer

/-- What a line from the server is taken for. -/
inductive Kind where
  /-- A request of the server's, which omni has no answer for. -/
  | asked (id : Value) (method : String)
  | notice (method : String) (params : Value)
  | answer (id : ℤ)
  | nothing
  deriving DecidableEq

def kindOf (message : Value) : Kind :=
  match (message.get? "method").bind Value.asStr, message.get? "id" with
  | some method, some id => .asked id method
  | some method, none => .notice method ((message.get? "params").getD .null)
  | none, some id =>
      match id.asI64 with
      | some id => .answer id
      | none => .nothing
  | none, none => .nothing

def refusal (id : Value) (method : String) : Value :=
  .object [("jsonrpc", .string "2.0"), ("id", id), ("error", .object [("code", .number (-32601)),
    ("message", .string s!"{method} not handled by omni")])]

def Kind.refusal? : Kind → Option Value
  | .asked id method => some (refusal id method)
  | _ => none

def Kind.notice? : Kind → Option (String × Value)
  | .notice method params => some (method, params)
  | _ => none

/-- What everybody who waits is told once the server is gone. -/
def exited (code : ℤ) : Value :=
  .object [("error", .object [("message", .string s!"codex app-server exited with {code}")])]

/-- What a call makes of the message it received. -/
def outcome [Host] (method : String) (message : Value) : Except String Value :=
  match message.get? "error" with
  | some error =>
      let said := (error.str? "message").getD "failed"
      let details := match (error.get? "data").filter (!·.isNull) with
        | some value =>
            let json := Host.json value
            s!" ({json})"
        | none => ""
      .error s!"{method}: {said}{details}"
  | none => .ok ((message.get? "result").getD .null)

/-- How far a call has come. -/
inductive Pc where
  | idle
  /-- It has drawn its id. -/
  | named (id : ℤ)
  | registered (id : ℤ)
  | waiting (id : ℤ)
  /-- The line was not taken, or no answer came in time; about to take itself out of `pending`. -/
  | failing (id : ℤ) (why : String)
  /-- It returned what it made of a message, or why it has none. -/
  | returned (id : ℤ) (message : Option Value) (result : Except String Value)
  deriving DecidableEq

def Pc.id? : Pc → Option ℤ
  | .idle => none
  | .named id | .registered id | .waiting id | .failing id _ | .returned id _ _ => some id

/-- Its sender has been made. -/
def Pc.enrolled : Pc → Bool
  | .idle | .named _ => false
  | _ => true

/-- It counts on being told. -/
def Pc.waits : Pc → Bool
  | .registered _ | .waiting _ => true
  | _ => false

def Pc.isReturned : Pc → Bool
  | .returned _ _ _ => true
  | _ => false

/-- One call, and the channel its answer comes by. -/
structure Call where
  method : String := ""
  pc : Pc := .idle
  mailbox : List Value := []
  /-- Whether it was registered after the exit. -/
  late : Bool := false

inductive Reader where
  | resting
  | holding (message : Value)
  /-- An answer whose sender is out of `pending` and not used yet. -/
  | settling (message : Value) (call : ℕ)

def Reader.hand : Reader → List ℕ
  | .settling _ call => [call]
  | _ => []

inductive Reaper where
  | watching
  /-- The senders taken out of `pending` and not used yet. -/
  | telling (code : ℤ) (waiting : List ℕ)

def Reaper.hand : Reaper → List ℕ
  | .telling _ waiting => waiting
  | .watching => []

def Reaper.code? : Reaper → Option ℤ
  | .telling code _ => some code
  | .watching => none

end AppServer

open AppServer in
/-- The client, with the lines it was given, and what it made of those that are no answers. -/
structure AppServer where
  ids : ℤ := 1
  pending : List (ℤ × ℕ) := []
  calls : ℕ → Call := fun _ => {}
  reader : Reader := .resting
  reaper : Reaper := .watching
  wire : List Value := []
  /-- The refusals handed to the thread that writes them. -/
  declined : List Value := []
  noticed : List (String × Value) := []

namespace AppServer

inductive Act where
  | call (k : ℕ) (method : String)
  | register (k : ℕ)
  | send (k : ℕ) (taken : Bool)
  | receive (k : ℕ)
  | timeout (k : ℕ) (waited : String)
  | forget (k : ℕ)
  | hear (message : Value)
  | route
  | settle
  | exit (code : ℤ)
  | tell

def setCall (s : AppServer) (k : ℕ) (call : Call) : AppServer :=
  { s with calls := Function.update s.calls k call }

def setPc (s : AppServer) (k : ℕ) (pc : Pc) : AppServer := s.setCall k { s.calls k with pc }

/-- Put a message into the channel of a call. -/
def put (s : AppServer) (k : ℕ) (message : Value) : AppServer :=
  s.setCall k { s.calls k with mailbox := (s.calls k).mailbox ++ [message] }

/-- What the reader does with a message that is no answer to somebody. -/
def passOn (s : AppServer) (message : Value) : AppServer :=
  { s with
    reader := .resting
    declined := s.declined ++ (kindOf message).refusal?.toList
    noticed := s.noticed ++ (kindOf message).notice?.toList }

section
variable [Host]

def step (s : AppServer) : Act → Option AppServer
  | .call k method =>
      match (s.calls k).pc with
      | .idle =>
          some { s.setCall k { s.calls k with method, pc := .named s.ids } with ids := s.ids + 1 }
      | _ => none
  | .register k =>
      match (s.calls k).pc with
      | .named id =>
          let late := s.reaper.code?.isSome
          some { s.setCall k { s.calls k with pc := .registered id, late } with
            pending := (id, k) :: s.pending.filter (·.1 ≠ id) }
      | _ => none
  | .send k taken =>
      match (s.calls k).pc with
      | .registered id =>
          let method := (s.calls k).method
          some (s.setPc k (if taken then .waiting id
            else .failing id s!"codex app-server is not running (wanted {method})"))
      | _ => none
  | .receive k =>
      match (s.calls k).pc, (s.calls k).mailbox with
      | .waiting id, message :: rest =>
          let result := outcome (s.calls k).method message
          some (s.setCall k { s.calls k with
            pc := .returned id (some message) result, mailbox := rest })
      | _, _ => none
  | .timeout k waited =>
      match (s.calls k).pc, (s.calls k).mailbox with
      | .waiting id, [] =>
          let method := (s.calls k).method
          some (s.setPc k (.failing id s!"{method} timed out after {waited}"))
      | _, _ => none
  | .forget k =>
      match (s.calls k).pc with
      | .failing id why =>
          some { s.setPc k (.returned id none (.error why)) with
            pending := s.pending.filter (·.1 ≠ id) }
      | _ => none
  | .hear message =>
      match s.reader with
      | .resting => some { s with reader := .holding message, wire := s.wire ++ [message] }
      | _ => none
  | .route =>
      match s.reader with
      | .holding message =>
          match kindOf message with
          | .answer id =>
              match s.pending.lookup id with
              | some call =>
                  some { s with
                    reader := .settling message call
                    pending := s.pending.filter (·.1 ≠ id) }
              | none => some (s.passOn message)
          | _ => some (s.passOn message)
      | _ => none
  | .settle =>
      match s.reader with
      | .settling message call => some { s.put call message with reader := .resting }
      | _ => none
  | .exit code =>
      match s.reaper with
      | .watching =>
          let waiting := s.pending.insertionSort fun first second => first.1 ≤ second.1
          some { s with reaper := .telling code (waiting.map (·.2)), pending := [] }
      | _ => none
  | .tell =>
      match s.reaper with
      | .telling code (call :: waiting) =>
          some { s.put call (exited code) with reaper := .telling code waiting }
      | _ => none

/-- What one step can do, and what has to hold for it. -/
inductive Moves (s : AppServer) : Act → AppServer → Prop where
  | call {k : ℕ} {method : String} (idle : (s.calls k).pc = .idle) :
      Moves s (.call k method)
        { s.setCall k { s.calls k with method, pc := .named s.ids } with ids := s.ids + 1 }
  | register {k : ℕ} {id : ℤ} (named : (s.calls k).pc = .named id) :
      Moves s (.register k)
        { s.setCall k { s.calls k with pc := .registered id, late := s.reaper.code?.isSome } with
          pending := (id, k) :: s.pending.filter (·.1 ≠ id) }
  | send {k : ℕ} {id : ℤ} {taken : Bool} (registered : (s.calls k).pc = .registered id) :
      Moves s (.send k taken) (s.setPc k (if taken then .waiting id
        else .failing id s!"codex app-server is not running (wanted {(s.calls k).method})"))
  | receive {k : ℕ} {id : ℤ} {message : Value} {rest : List Value}
      (waiting : (s.calls k).pc = .waiting id) (mail : (s.calls k).mailbox = message :: rest) :
      Moves s (.receive k) (s.setCall k { s.calls k with
        pc := .returned id (some message) (outcome (s.calls k).method message), mailbox := rest })
  | timeout {k : ℕ} {id : ℤ} {waited : String} (waiting : (s.calls k).pc = .waiting id)
      (mail : (s.calls k).mailbox = []) :
      Moves s (.timeout k waited)
        (s.setPc k (.failing id s!"{(s.calls k).method} timed out after {waited}"))
  | forget {k : ℕ} {id : ℤ} {why : String} (failing : (s.calls k).pc = .failing id why) :
      Moves s (.forget k) { s.setPc k (.returned id none (.error why)) with
        pending := s.pending.filter (·.1 ≠ id) }
  | hear {message : Value} (resting : s.reader = .resting) :
      Moves s (.hear message) { s with reader := .holding message, wire := s.wire ++ [message] }
  | answer {message : Value} {id : ℤ} {call : ℕ} (holding : s.reader = .holding message)
      (kind : kindOf message = .answer id) (found : s.pending.lookup id = some call) :
      Moves s .route { s with
        reader := .settling message call
        pending := s.pending.filter (·.1 ≠ id) }
  | pass {message : Value} (holding : s.reader = .holding message)
      (other : ∀ id, kindOf message = .answer id → s.pending.lookup id = none) :
      Moves s .route (s.passOn message)
  | settle {message : Value} {call : ℕ} (settling : s.reader = .settling message call) :
      Moves s .settle { s.put call message with reader := .resting }
  | exit {code : ℤ} (watching : s.reaper = .watching) :
      Moves s (.exit code) { s with
        reaper := .telling code
          ((s.pending.insertionSort fun first second => first.1 ≤ second.1).map (·.2))
        pending := [] }
  | tell {code : ℤ} {call : ℕ} {waiting : List ℕ}
      (telling : s.reaper = .telling code (call :: waiting)) :
      Moves s .tell { s.put call (exited code) with reaper := .telling code waiting }

theorem moves_of_step {s t : AppServer} {act : Act} (h : s.step act = some t) : s.Moves act t := by
  cases act with
  | call k method =>
    dsimp only [step] at h
    split at h
    next idle =>
      cases h
      exact .call idle
    next => cases h
  | register k =>
    dsimp only [step] at h
    split at h
    next named =>
      cases h
      exact .register named
    next => cases h
  | send k taken =>
    dsimp only [step] at h
    split at h
    next registered =>
      cases h
      exact .send registered
    next => cases h
  | receive k =>
    dsimp only [step] at h
    split at h
    next waiting mail =>
      cases h
      exact .receive waiting mail
    next => cases h
  | timeout k waited =>
    dsimp only [step] at h
    split at h
    next waiting mail =>
      cases h
      exact .timeout waiting mail
    next => cases h
  | forget k =>
    dsimp only [step] at h
    split at h
    next failing =>
      cases h
      exact .forget failing
    next => cases h
  | hear message =>
    dsimp only [step] at h
    split at h
    next resting =>
      cases h
      exact .hear resting
    next => cases h
  | route =>
    dsimp only [step] at h
    split at h
    next holding =>
      split at h
      next id kind =>
        split at h
        next found =>
          cases h
          exact .answer holding kind found
        next unknown =>
          cases h
          refine .pass holding fun other same => ?_
          obtain rfl : id = other := Kind.answer.inj (kind.symm.trans same)
          exact unknown
      next none_ =>
        cases h
        exact .pass holding fun id same => (none_ id same).elim
    next => cases h
  | settle =>
    dsimp only [step] at h
    split at h
    next settling =>
      cases h
      exact .settle settling
    next => cases h
  | exit code =>
    dsimp only [step] at h
    split at h
    next watching =>
      cases h
      exact .exit watching
    next => cases h
  | tell =>
    dsimp only [step] at h
    split at h
    next telling =>
      cases h
      exact .tell telling
    next => cases h

def machine : Lib.Machine AppServer Act where
  init s := s = {}
  step := step

/-- Everybody who is still to be told. -/
def senders (s : AppServer) : List ℕ :=
  s.pending.map (·.2) ++ (s.reader.hand ++ s.reaper.hand)

/-- The message is an answer to the call, or says that the server is gone. -/
def Answers (s : AppServer) (k : ℕ) (message : Value) : Prop :=
  (∃ id, (s.calls k).pc.id? = some id ∧ kindOf message = .answer id ∧ message ∈ s.wire) ∨
    ∃ code, s.reaper.code? = some code ∧ message = exited code

/-- The lines that the reader is done with. -/
def routed (s : AppServer) : List Value :=
  match s.reader with
  | .holding _ => s.wire.dropLast
  | _ => s.wire

/-- Every call has an id of its own and one sender, which is in `pending` or with a thread that will
use it until it was used; what a call was told answers it. -/
structure Matched (s : AppServer) : Prop where
  once : s.senders.Nodup
  young : ∀ k id, (s.calls k).pc.id? = some id → id < s.ids
  apart : ∀ j k id, (s.calls j).pc.id? = some id → (s.calls k).pc.id? = some id → j = k
  unheard : ∀ k ∈ s.senders, (s.calls k).mailbox = [] ∧ (s.calls k).pc.enrolled = true
  fresh : ∀ k, (s.calls k).pc.enrolled = false → (s.calls k).mailbox = []
  keyed : ∀ entry ∈ s.pending, (s.calls entry.2).pc.id? = some entry.1
  gone : ∀ entry ∈ s.pending, (s.calls entry.2).pc.isReturned = false
  held : ∀ message k, s.reader = .settling message k → s.Answers k message
  told : ∀ k, ∀ message ∈ (s.calls k).mailbox, s.Answers k message
  single : ∀ k, (s.calls k).mailbox.length ≤ 1
  waits : ∀ k, (s.calls k).pc.waits = true → (s.calls k).mailbox = [] → k ∈ s.senders
  late : s.reaper.code?.isSome = true → ∀ entry ∈ s.pending, (s.calls entry.2).late = true
  returned : ∀ k id message result, (s.calls k).pc = .returned id (some message) result →
    s.Answers k message ∧ result = outcome (s.calls k).method message
  failed : ∀ k id result, (s.calls k).pc = .returned id none result → ∃ why, result = .error why

section matched
variable {s t : AppServer} {k : ℕ} {call : Call}

omit [Host] in
theorem setCall_calls (s : AppServer) (k j : ℕ) (call : Call) :
    (s.setCall k call).calls j = if j = k then call else s.calls j := by
  show Function.update s.calls k call j = _
  rw [Function.update_apply]

omit [Host] in
theorem Answers.onward {j : ℕ} {message : Value} (h : s.Answers j message)
    (id : ∀ id, (s.calls j).pc.id? = some id → (t.calls j).pc.id? = some id)
    (wire : ∀ m ∈ s.wire, m ∈ t.wire)
    (code : ∀ code, s.reaper.code? = some code → t.reaper.code? = some code) :
    t.Answers j message := by
  rcases h with ⟨i, hi, hkind, hwire⟩ | ⟨c, hc, heq⟩
  · exact .inl ⟨i, id i hi, hkind, wire _ hwire⟩
  · exact .inr ⟨c, code c hc, heq⟩

/-- A call goes on, and the senders stay where they are. -/
theorem Matched.turned (h : s.Matched)
    (calls : ∀ j, t.calls j = if j = k then call else s.calls j)
    (pending : t.pending = s.pending) (reader : t.reader = s.reader) (reaper : t.reaper = s.reaper)
    (wire : t.wire = s.wire) (ids : s.ids ≤ t.ids)
    (named : ∀ id, call.pc.id? = some id →
      (s.calls k).pc.id? = some id ∨ id = s.ids ∧ s.ids < t.ids)
    (keeps : ∀ id, (s.calls k).pc.id? = some id → call.pc.id? = some id)
    (enrolled : call.pc.enrolled = (s.calls k).pc.enrolled)
    (waits : call.pc.waits = true →
      (s.calls k).pc.waits = true ∧ call.mailbox = (s.calls k).mailbox)
    (mail : call.mailbox ⊆ (s.calls k).mailbox)
    (short : call.mailbox.length ≤ (s.calls k).mailbox.length)
    (gone : call.pc.isReturned = true → (s.calls k).mailbox ≠ [])
    (late : call.late = (s.calls k).late)
    (result : ∀ id message result, call.pc = .returned id message result →
      ∃ m, message = some m ∧ s.Answers k m ∧ result = outcome call.method m) : t.Matched := by
  have senders : t.senders = s.senders := by
    unfold AppServer.senders
    rw [pending, reader, reaper]
  have id (j : ℕ) (i : ℤ) (hi : (s.calls j).pc.id? = some i) : (t.calls j).pc.id? = some i := by
    rw [calls]
    split
    next heq => exact keeps i (heq ▸ hi)
    next => exact hi
  have back (j : ℕ) (i : ℤ) (hi : (t.calls j).pc.id? = some i) :
      (s.calls j).pc.id? = some i ∨ j = k ∧ i = s.ids ∧ s.ids < t.ids := by
    rw [calls] at hi
    split at hi
    next heq => exact (named i hi).imp (fun old => heq ▸ old) fun new => ⟨heq, new⟩
    next => exact .inl hi
  have answers {j : ℕ} {message : Value} (h : s.Answers j message) : t.Answers j message :=
    h.onward (id j) (fun m hm => wire ▸ hm) fun c hc => reaper ▸ hc
  have unheard (j : ℕ) (hj : j ∈ s.senders) : (t.calls j).mailbox = [] ∧
      (t.calls j).pc.enrolled = true := by
    obtain ⟨hempty, henrolled⟩ := h.unheard j hj
    rw [calls]
    split
    next heq =>
      subst heq
      exact ⟨List.subset_nil.mp (hempty ▸ mail), enrolled.trans henrolled⟩
    next => exact ⟨hempty, henrolled⟩
  have pend (entry : ℤ × ℕ) (hentry : entry ∈ s.pending) : entry.2 ∈ s.senders :=
    List.mem_append_left _ (List.mem_map_of_mem hentry)
  constructor
  · exact senders ▸ h.once
  · intro j i hi
    rcases back j i hi with old | ⟨-, rfl, new⟩
    · have := h.young j i old
      omega
    · exact new
  · intro i j n hi hj
    have old := h.young
    rcases back i n hi with hi | ⟨rfl, rfl, -⟩ <;> rcases back j _ hj with hj | ⟨rfl, hid, -⟩
    · exact h.apart i j n hi hj
    · have := old i _ hi
      omega
    · have := old j _ hj
      omega
    · rfl
  · exact fun j hj => unheard j (senders ▸ hj)
  · intro j hj
    rw [calls] at hj ⊢
    split at hj
    next heq =>
      subst heq
      rw [if_pos rfl]
      exact List.subset_nil.mp (h.fresh j (enrolled ▸ hj) ▸ mail)
    next hne =>
      rw [if_neg hne]
      exact h.fresh j hj
  · exact fun entry hentry => id _ _ (h.keyed entry (pending ▸ hentry))
  · intro entry hentry
    rw [pending] at hentry
    have hempty := (h.unheard _ (pend entry hentry)).1
    rw [calls]
    split
    next heq =>
      cases hreturned : call.pc.isReturned with
      | false => rfl
      | true => exact absurd (heq ▸ hempty) (gone hreturned)
    next => exact h.gone entry hentry
  · exact fun message j hj => answers (h.held message j (reader ▸ hj))
  · intro j message hj
    rw [calls] at hj
    split at hj
    next heq =>
      subst heq
      exact answers (h.told j message (mail hj))
    next => exact answers (h.told j message hj)
  · intro j
    rw [calls]
    split
    next heq => exact short.trans (h.single k)
    next => exact h.single j
  · intro j hwaits hempty
    rw [calls] at hwaits hempty
    rw [senders]
    split at hwaits
    next heq =>
      subst heq
      rw [if_pos rfl] at hempty
      obtain ⟨hold, hmail⟩ := waits hwaits
      exact h.waits j hold (hmail ▸ hempty)
    next hne =>
      rw [if_neg hne] at hempty
      exact h.waits j hwaits hempty
  · intro hcode entry hentry
    have hold := h.late (reaper ▸ hcode) entry (pending ▸ hentry)
    rw [calls]
    split
    next heq => exact late.trans (heq ▸ hold)
    next => exact hold
  · intro j id message r hj
    rw [calls] at hj ⊢
    split at hj
    next heq =>
      subst heq
      obtain ⟨m, hm, hanswers, hr⟩ := result id _ r hj
      obtain rfl := Option.some.inj hm
      rw [if_pos rfl]
      exact ⟨answers hanswers, hr⟩
    next hne =>
      rw [if_neg hne]
      exact ⟨answers (h.returned j id message r hj).1, (h.returned j id message r hj).2⟩
  · intro j id r hj
    rw [calls] at hj
    split at hj
    next heq =>
      obtain ⟨m, hm, -⟩ := result id _ r hj
      cases hm
    next => exact h.failed j id r hj

/-- The senders change places, or a line is heard. -/
theorem Matched.moved (h : s.Matched) (calls : t.calls = s.calls) (ids : t.ids = s.ids)
    (pending : t.pending ⊆ s.pending) (senders : t.senders.Perm s.senders)
    (wire : ∀ m ∈ s.wire, m ∈ t.wire)
    (code : ∀ code, s.reaper.code? = some code → t.reaper.code? = some code)
    (held : ∀ message j, t.reader = .settling message j → t.Answers j message)
    (late : t.reaper.code?.isSome = true → s.reaper.code?.isSome = true ∨ t.pending = []) :
    t.Matched := by
  have answers {j : ℕ} {message : Value} (h : s.Answers j message) : t.Answers j message :=
    h.onward (fun _ hi => calls ▸ hi) wire code
  constructor
  · exact senders.nodup_iff.mpr h.once
  · exact fun j i hi => ids ▸ h.young j i (calls ▸ hi)
  · exact fun i j n hi hj => h.apart i j n (calls ▸ hi) (calls ▸ hj)
  · exact fun j hj => calls ▸ h.unheard j (senders.mem_iff.mp hj)
  · exact fun j hj => calls ▸ h.fresh j (calls ▸ hj)
  · exact fun entry hentry => calls ▸ h.keyed entry (pending hentry)
  · exact fun entry hentry => calls ▸ h.gone entry (pending hentry)
  · exact held
  · exact fun j message hj => answers (h.told j message (calls ▸ hj))
  · exact fun j => calls ▸ h.single j
  · exact fun j hwaits hempty =>
      senders.mem_iff.mpr (h.waits j (calls ▸ hwaits) (calls ▸ hempty))
  · intro hcode entry hentry
    rcases late hcode with hold | hnil
    · exact calls ▸ h.late hold entry (pending hentry)
    · rw [hnil] at hentry
      cases hentry
  · intro j id message r hj
    have hold := h.returned j id message r (calls ▸ hj)
    exact ⟨answers hold.1, calls ▸ hold.2⟩
  · exact fun j id r hj => h.failed j id r (calls ▸ hj)

/-- A sender is used, and is no more. -/
theorem Matched.told_ (h : s.Matched) {message : Value}
    (calls : ∀ j, t.calls j = if j = k then
      { s.calls k with mailbox := (s.calls k).mailbox ++ [message] } else s.calls j)
    (ids : t.ids = s.ids) (pending : t.pending = s.pending) (wire : t.wire = s.wire)
    (senders : s.senders.Perm (k :: t.senders)) (code : t.reaper.code? = s.reaper.code?)
    (held : ∀ m j, t.reader = .settling m j → s.reader = .settling m j)
    (answers : s.Answers k message) : t.Matched := by
  have pc (j : ℕ) : (t.calls j).pc = (s.calls j).pc := by
    rw [calls]
    split
    next heq => rw [heq]
    next => rfl
  have onward {j : ℕ} {m : Value} (h : s.Answers j m) : t.Answers j m :=
    h.onward (fun _ hi => pc j ▸ hi) (fun _ hm => wire ▸ hm) fun _ hc => code.trans hc
  have nodup := senders.nodup_iff.mp h.once
  rw [List.nodup_cons] at nodup
  have hk : k ∈ s.senders := senders.mem_iff.mpr List.mem_cons_self
  obtain ⟨hempty, henrolled⟩ := h.unheard k hk
  have other (j : ℕ) (hj : j ∈ t.senders) : j ≠ k := by
    rintro rfl
    exact nodup.1 hj
  have mailbox (j : ℕ) (hne : j ≠ k) : (t.calls j).mailbox = (s.calls j).mailbox := by
    rw [calls, if_neg hne]
  have mine : (t.calls k).mailbox = [message] := by
    rw [calls, if_pos rfl, hempty]
    rfl
  constructor
  · exact nodup.2
  · exact fun j i hi => ids ▸ h.young j i (pc j ▸ hi)
  · exact fun i j n hi hj => h.apart i j n (pc i ▸ hi) (pc j ▸ hj)
  · intro j hj
    have hold := h.unheard j (senders.mem_iff.mpr (List.mem_cons_of_mem _ hj))
    exact ⟨(mailbox j (other j hj)).trans hold.1, pc j ▸ hold.2⟩
  · intro j hj
    rw [pc] at hj
    have hne : j ≠ k := by
      rintro rfl
      rw [henrolled] at hj
      cases hj
    exact (mailbox j hne).trans (h.fresh j hj)
  · exact fun entry hentry => pc entry.2 ▸ h.keyed entry (pending ▸ hentry)
  · exact fun entry hentry => pc entry.2 ▸ h.gone entry (pending ▸ hentry)
  · exact fun m j hj => onward (h.held m j (held m j hj))
  · intro j m hm
    by_cases heq : j = k
    · subst heq
      rw [mine] at hm
      obtain rfl := List.mem_singleton.mp hm
      exact onward answers
    · exact onward (h.told j m (mailbox j heq ▸ hm))
  · intro j
    by_cases heq : j = k
    · rw [heq, mine]
      exact le_rfl
    · exact mailbox j heq ▸ h.single j
  · intro j hwaits hnone
    have hne : j ≠ k := by
      rintro rfl
      rw [mine] at hnone
      cases hnone
    have hmem := senders.mem_iff.mp (h.waits j (pc j ▸ hwaits) (mailbox j hne ▸ hnone))
    exact (List.mem_cons.mp hmem).resolve_left hne
  · intro hcode entry hentry
    have hold := h.late (code ▸ hcode) entry (pending ▸ hentry)
    rw [calls]
    split
    next heq => exact heq ▸ hold
    next => exact hold
  · intro j id m r hj
    have hold := h.returned j id m r (pc j ▸ hj)
    refine ⟨onward hold.1, hold.2.trans ?_⟩
    rw [calls]
    split
    next heq => rw [heq]
    next => rfl
  · exact fun j id r hj => h.failed j id r (pc j ▸ hj)

/-- No entry of `pending` has an id that its call has not. -/
theorem Matched.pending_of_id (h : s.Matched) {id : ℤ} (named : (s.calls k).pc.id? = some id)
    {entry : ℤ × ℕ} (mem : entry ∈ s.pending) : entry.1 = id ↔ entry.2 = k := by
  have hkey := h.keyed entry mem
  constructor
  · intro heq
    exact h.apart _ _ id (heq ▸ hkey) named
  · intro heq
    exact Option.some.inj (hkey.symm.trans (heq ▸ named))

/-- A call makes its sender. -/
theorem Matched.registered (h : s.Matched) {id : ℤ} (named : (s.calls k).pc = .named id)
    (calls : ∀ j, t.calls j = if j = k then
      { s.calls k with pc := .registered id, late := s.reaper.code?.isSome } else s.calls j)
    (ids : t.ids = s.ids) (pending : t.pending = (id, k) :: s.pending.filter (·.1 ≠ id))
    (wire : t.wire = s.wire) (reader : t.reader = s.reader) (reaper : t.reaper = s.reaper) :
    t.Matched := by
  have hid : (s.calls k).pc.id? = some id := by rw [named]; rfl
  have absent : k ∉ s.senders := by
    intro hmem
    have henrolled := (h.unheard k hmem).2
    rw [named] at henrolled
    cases henrolled
  have old : s.pending.filter (·.1 ≠ id) = s.pending := by
    rw [List.filter_eq_self]
    intro entry hentry
    have hne : entry.1 ≠ id := by
      intro heq
      have hk := (h.pending_of_id hid hentry).mp heq
      exact absent (hk ▸ List.mem_append_left _ (List.mem_map_of_mem hentry))
    simpa using hne
  rw [old] at pending
  have senders : t.senders = k :: s.senders := by
    unfold AppServer.senders
    rw [pending, reader, reaper]
    rfl
  have pcs (j : ℕ) (i : ℤ) : (t.calls j).pc.id? = some i ↔ (s.calls j).pc.id? = some i := by
    rw [calls]
    split
    next heq =>
      subst heq
      rw [hid]
      rfl
    next => rfl
  have answers {j : ℕ} {message : Value} (h : s.Answers j message) : t.Answers j message :=
    h.onward (fun i hi => (pcs j i).mpr hi) (fun _ hm => wire ▸ hm) fun _ hc => reaper ▸ hc
  have mailbox (j : ℕ) : (t.calls j).mailbox = (s.calls j).mailbox := by
    rw [calls]
    split
    next heq => rw [heq]
    next => rfl
  have hempty : (s.calls k).mailbox = [] := h.fresh k (by rw [named]; rfl)
  have other (j : ℕ) (hne : j ≠ k) : t.calls j = s.calls j := by rw [calls, if_neg hne]
  have mine : (t.calls k).pc = .registered id := by rw [calls, if_pos rfl]
  constructor
  · rw [senders, List.nodup_cons]
    exact ⟨absent, h.once⟩
  · exact fun j i hi => ids ▸ h.young j i ((pcs j i).mp hi)
  · exact fun i j n hi hj => h.apart i j n ((pcs i n).mp hi) ((pcs j n).mp hj)
  · intro j hj
    by_cases heq : j = k
    · subst heq
      exact ⟨(mailbox j).trans hempty, mine ▸ rfl⟩
    · rw [senders] at hj
      exact other j heq ▸ h.unheard j ((List.mem_cons.mp hj).resolve_left heq)
  · intro j hj
    by_cases heq : j = k
    · exact heq ▸ (mailbox k).trans hempty
    · exact (mailbox j).trans (h.fresh j (other j heq ▸ hj))
  · intro entry hentry
    rw [pending] at hentry
    rcases List.mem_cons.mp hentry with rfl | hold
    · exact (pcs k id).mpr hid
    · exact (pcs _ _).mpr (h.keyed entry hold)
  · intro entry hentry
    rw [pending] at hentry
    rcases List.mem_cons.mp hentry with rfl | hold
    · exact mine ▸ rfl
    · by_cases heq : entry.2 = k
      · rw [heq, mine]
        rfl
      · exact other _ heq ▸ h.gone entry hold
  · exact fun m j hj => answers (h.held m j (reader ▸ hj))
  · exact fun j m hm => answers (h.told j m (mailbox j ▸ hm))
  · exact fun j => mailbox j ▸ h.single j
  · intro j hwaits hnone
    rw [senders]
    by_cases heq : j = k
    · exact heq ▸ List.mem_cons_self
    · exact List.mem_cons_of_mem _ (h.waits j (other j heq ▸ hwaits) (mailbox j ▸ hnone))
  · intro hcode entry hentry
    rw [reaper] at hcode
    rw [pending] at hentry
    by_cases heq : entry.2 = k
    · rw [heq, calls, if_pos rfl]
      exact hcode
    · rcases List.mem_cons.mp hentry with rfl | hold
      · exact absurd rfl heq
      · exact other _ heq ▸ h.late hcode entry hold
  · intro j i m r hj
    by_cases heq : j = k
    · rw [heq, mine] at hj
      cases hj
    · rw [other j heq] at hj
      exact ⟨answers (h.returned j i m r hj).1, other j heq ▸ (h.returned j i m r hj).2⟩
  · intro j i r hj
    by_cases heq : j = k
    · rw [heq, mine] at hj
      cases hj
    · exact h.failed j i r (other j heq ▸ hj)

/-- A call that has no answer takes its sender back, where it still can. -/
theorem Matched.forgotten (h : s.Matched) {id : ℤ} {why : String}
    (failing : (s.calls k).pc = .failing id why)
    (calls : ∀ j, t.calls j = if j = k then
      { s.calls k with pc := .returned id none (.error why) } else s.calls j)
    (ids : t.ids = s.ids) (pending : t.pending = s.pending.filter (·.1 ≠ id))
    (wire : t.wire = s.wire) (reader : t.reader = s.reader) (reaper : t.reaper = s.reaper) :
    t.Matched := by
  have hid : (s.calls k).pc.id? = some id := by rw [failing]; rfl
  have kept {entry : ℤ × ℕ} (hentry : entry ∈ t.pending) : entry ∈ s.pending ∧ entry.2 ≠ k := by
    rw [pending, List.mem_filter] at hentry
    refine ⟨hentry.1, fun heq => ?_⟩
    have := (h.pending_of_id hid hentry.1).mpr heq
    simp [this] at hentry
  have sub : t.senders.Sublist s.senders := by
    unfold AppServer.senders
    rw [pending, reader, reaper]
    exact (List.filter_sublist.map _).append (List.Sublist.refl _)
  have pcs (j : ℕ) (i : ℤ) : (t.calls j).pc.id? = some i ↔ (s.calls j).pc.id? = some i := by
    rw [calls]
    split
    next heq =>
      subst heq
      rw [hid]
      rfl
    next => rfl
  have answers {j : ℕ} {message : Value} (h : s.Answers j message) : t.Answers j message :=
    h.onward (fun i hi => (pcs j i).mpr hi) (fun _ hm => wire ▸ hm) fun _ hc => reaper ▸ hc
  have mailbox (j : ℕ) : (t.calls j).mailbox = (s.calls j).mailbox := by
    rw [calls]
    split
    next heq => rw [heq]
    next => rfl
  have other (j : ℕ) (hne : j ≠ k) : t.calls j = s.calls j := by rw [calls, if_neg hne]
  have mine : (t.calls k).pc = .returned id none (.error why) := by rw [calls, if_pos rfl]
  constructor
  · exact h.once.sublist sub
  · exact fun j i hi => ids ▸ h.young j i ((pcs j i).mp hi)
  · exact fun i j n hi hj => h.apart i j n ((pcs i n).mp hi) ((pcs j n).mp hj)
  · intro j hj
    have hold := h.unheard j (sub.subset hj)
    by_cases heq : j = k
    · subst heq
      exact ⟨(mailbox j).trans hold.1, mine ▸ rfl⟩
    · exact other j heq ▸ hold
  · intro j hj
    by_cases heq : j = k
    · rw [heq, mine] at hj
      cases hj
    · exact (mailbox j).trans (h.fresh j (other j heq ▸ hj))
  · exact fun entry hentry => (pcs _ _).mpr (h.keyed entry (kept hentry).1)
  · exact fun entry hentry => other _ (kept hentry).2 ▸ h.gone entry (kept hentry).1
  · exact fun m j hj => answers (h.held m j (reader ▸ hj))
  · exact fun j m hm => answers (h.told j m (mailbox j ▸ hm))
  · exact fun j => mailbox j ▸ h.single j
  · intro j hwaits hnone
    have hne : j ≠ k := by
      rintro rfl
      rw [mine] at hwaits
      cases hwaits
    have hmem := h.waits j (other j hne ▸ hwaits) (mailbox j ▸ hnone)
    unfold AppServer.senders at hmem ⊢
    rw [reader, reaper]
    rcases List.mem_append.mp hmem with hpending | hhand
    · obtain ⟨entry, hentry, heq⟩ := List.mem_map.mp hpending
      have hkey : entry.1 ≠ id := by
        intro hkey
        exact hne (heq.symm.trans ((h.pending_of_id hid hentry).mp hkey))
      have hstays : entry ∈ t.pending := by
        rw [pending, List.mem_filter]
        exact ⟨hentry, by simpa using hkey⟩
      exact List.mem_append_left _ (List.mem_map.mpr ⟨entry, hstays, heq⟩)
    · exact List.mem_append_right _ hhand
  · exact fun hcode entry hentry =>
      other _ (kept hentry).2 ▸ h.late (reaper ▸ hcode) entry (kept hentry).1
  · intro j i m r hj
    by_cases heq : j = k
    · rw [heq, mine] at hj
      cases hj
    · rw [other j heq] at hj
      exact ⟨answers (h.returned j i m r hj).1, other j heq ▸ (h.returned j i m r hj).2⟩
  · intro j i r hj
    by_cases heq : j = k
    · rw [heq, mine] at hj
      cases hj
      exact ⟨why, rfl⟩
    · exact h.failed j i r (other j heq ▸ hj)

/-- The sender found under an id is its only one. -/
theorem Matched.taken (h : s.Matched) {id : ℤ} (found : s.pending.lookup id = some k) :
    (s.calls k).pc.id? = some id ∧
      (s.pending.map (·.2)).Perm (k :: (s.pending.filter (·.1 ≠ id)).map (·.2)) := by
  obtain ⟨before, after, heq, first⟩ := List.lookup_eq_some_iff.mp found
  have hmem : (id, k) ∈ s.pending := by
    rw [heq]
    exact List.mem_append_right _ List.mem_cons_self
  have hid : (s.calls k).pc.id? = some id := h.keyed _ hmem
  have nodup : (s.pending.map (·.2)).Nodup := h.once.sublist (List.sublist_append_left _ _)
  rw [heq, List.map_append, List.map_cons, List.nodup_middle, List.nodup_cons] at nodup
  have kept : s.pending.filter (·.1 ≠ id) = before ++ after := by
    have stays : ∀ entry ∈ before ++ after, entry.1 ≠ id := by
      intro entry hentry hkey
      have hold : entry ∈ s.pending := by
        rw [heq]
        rcases List.mem_append.mp hentry with hl | hr
        · exact List.mem_append_left _ hl
        · exact List.mem_append_right _ (List.mem_cons_of_mem _ hr)
      have hk := (h.pending_of_id hid hold).mp hkey
      have hmap : entry.2 ∈ (before ++ after).map (·.2) := List.mem_map_of_mem hentry
      rw [List.map_append] at hmap
      exact nodup.1 (hk ▸ hmap)
    have hfilter : (before ++ after).filter (·.1 ≠ id) = before ++ after := by
      rw [List.filter_eq_self]
      intro entry hentry
      simpa using stays entry hentry
    rw [List.filter_append] at hfilter
    rw [heq, List.filter_append, List.filter_cons_of_neg (by simp)]
    exact hfilter
  refine ⟨hid, ?_⟩
  rw [kept, heq, List.map_append, List.map_cons, List.map_append]
  exact List.perm_middle

theorem Matched.step_call {k : ℕ} {method : String} (h : s.Matched)
    (move : s.Moves (.call k method) t) : t.Matched := by
  cases move with
  | call idle =>
    have hnone : (s.calls k).pc.id? = none := by rw [idle]; rfl
    refine @Matched.turned _ s _ k _ h (fun j => setCall_calls s k j _) rfl rfl rfl rfl
      (Int.le_of_lt (Int.lt_succ _)) ?_ ?_ ?_ ?_ ?_ ?_ ?_ ?_ ?_
    · intro id hid
      exact .inr ⟨(Option.some.inj hid).symm, Int.lt_succ _⟩
    · intro id hid
      rw [hnone] at hid
      cases hid
    · rw [idle]
      rfl
    · rintro ⟨⟩
    · exact List.Subset.refl _
    · exact le_rfl
    · rintro ⟨⟩
    · rfl
    · rintro id message result ⟨⟩

theorem Matched.step_register {k : ℕ} (h : s.Matched)
    (move : s.Moves (.register k) t) : t.Matched := by
  cases move with
  | register named =>
    exact h.registered named (fun j => setCall_calls s k j _) rfl rfl rfl rfl rfl

theorem Matched.step_send {k : ℕ} {taken : Bool} (h : s.Matched)
    (move : s.Moves (.send k taken) t) : t.Matched := by
  cases move with
  | send registered =>
    refine @Matched.turned _ s _ k _ h (fun j => setCall_calls s k j _) rfl rfl rfl rfl
      (Int.le_refl _) ?_ ?_ ?_ ?_ ?_ ?_ ?_ ?_ ?_
    all_goals cases taken <;> simp [registered, Pc.id?, Pc.enrolled, Pc.waits, Pc.isReturned]

theorem Matched.step_receive {k : ℕ} (h : s.Matched)
    (move : s.Moves (.receive k) t) : t.Matched := by
  cases move with
  | @receive _ _ message _ waiting mail =>
    have hmem : message ∈ (s.calls k).mailbox := mail ▸ List.mem_cons_self
    refine @Matched.turned _ s _ k _ h (fun j => setCall_calls s k j _) rfl rfl rfl rfl
      (Int.le_refl _) ?_ ?_ ?_ ?_ ?_ ?_ ?_ ?_ ?_
    · intro i hi
      exact .inl (by rw [waiting]; exact hi)
    · intro i hi
      rw [waiting] at hi
      exact hi
    · rw [waiting]
      rfl
    · rintro ⟨⟩
    · rw [mail]
      exact List.subset_cons_self _ _
    · rw [mail]
      exact Nat.le_succ _
    · intro _ hnil
      rw [hnil] at hmem
      cases hmem
    · rfl
    · rintro i m r ⟨⟩
      exact ⟨message, rfl, h.told k message hmem, rfl⟩

theorem Matched.step_timeout {k : ℕ} {waited : String} (h : s.Matched)
    (move : s.Moves (.timeout k waited) t) : t.Matched := by
  cases move with
  | timeout waiting =>
    refine @Matched.turned _ s _ k _ h (fun j => setCall_calls s k j _) rfl rfl rfl rfl
      (Int.le_refl _) ?_ ?_ ?_ ?_ ?_ ?_ ?_ ?_ ?_
    all_goals simp [waiting, Pc.id?, Pc.enrolled, Pc.waits, Pc.isReturned]

theorem Matched.step_forget {k : ℕ} (h : s.Matched)
    (move : s.Moves (.forget k) t) : t.Matched := by
  cases move with
  | forget failing =>
    exact h.forgotten failing (fun j => setCall_calls s k j _) rfl rfl rfl rfl rfl

theorem Matched.step_hear {message : Value} (h : s.Matched)
    (move : s.Moves (.hear message) t) : t.Matched := by
  cases move with
  | hear resting =>
    have hand : s.reader.hand = (Reader.holding message).hand := by rw [resting]; rfl
    refine h.moved rfl rfl (List.Subset.refl _) ?_ (fun m hm => List.mem_append_left _ hm)
      (fun _ hc => hc) ?_ .inl
    · unfold senders
      rw [hand]
    · rintro m j ⟨⟩

theorem Matched.step_settle (h : s.Matched) (move : s.Moves .settle t) : t.Matched := by
  cases move with
  | @settle message call settling =>
    refine @Matched.told_ _ s _ call h message (fun j => setCall_calls s call j _) rfl rfl rfl ?_
      rfl ?_ (h.held message call settling)
    · unfold senders
      rw [settling]
      exact List.perm_middle
    · rintro m j ⟨⟩

theorem Matched.step_tell (h : s.Matched) (move : s.Moves .tell t) : t.Matched := by
  cases move with
  | @tell code call waiting telling =>
    refine @Matched.told_ _ s _ call h (exited code) (fun j => setCall_calls s call j _) rfl rfl
      rfl ?_ ?_ (fun m j hj => hj) (.inr ⟨code, by rw [telling]; rfl, rfl⟩)
    · unfold senders
      rw [telling]
      show (s.pending.map (·.2) ++ (s.reader.hand ++ call :: waiting)).Perm
        (call :: (s.pending.map (·.2) ++ (s.reader.hand ++ waiting)))
      rw [← List.append_assoc, ← List.append_assoc]
      exact List.perm_middle
    · rw [telling]
      rfl

theorem Matched.step_exit {code : ℤ} (h : s.Matched)
    (move : s.Moves (.exit code) t) : t.Matched := by
  cases move with
  | exit watching =>
    have onward (waiting : List ℕ) (c : ℤ) (hc : s.reaper.code? = some c) :
        (Reaper.telling code waiting).code? = some c := by
      rw [watching] at hc
      cases hc
    refine h.moved rfl rfl (List.nil_subset _) ?_ (fun _ hm => hm) (onward _)
      (fun m j hj => (h.held m j hj).onward (fun _ hi => hi) (fun _ hm => hm) (onward _))
      fun _ => .inr rfl
    · have sorted := (s.pending.perm_insertionSort fun first second => first.1 ≤ second.1).map
        Prod.snd
      unfold senders
      rw [watching, List.map_nil, List.nil_append]
      show (s.reader.hand ++ _).Perm (s.pending.map (·.2) ++ (s.reader.hand ++ []))
      rw [List.append_nil]
      exact (sorted.append_left _).trans List.perm_append_comm

theorem Matched.step_route (h : s.Matched)
    (heeds : ∀ message, s.reader = .holding message → message ∈ s.wire)
    (move : s.Moves .route t) : t.Matched := by
  cases move with
  | @pass message holding =>
    have hand : s.reader.hand = Reader.resting.hand := by rw [holding]; rfl
    refine h.moved rfl rfl (List.Subset.refl _) ?_ (fun _ hm => hm) (fun _ hc => hc) ?_ .inl
    · unfold senders
      rw [hand]
      rfl
    · rintro m j ⟨⟩
  | @answer message id call holding kind found =>
    obtain ⟨hid, hperm⟩ := h.taken found
    have heard : message ∈ s.wire := heeds message holding
    refine h.moved rfl rfl (List.filter_subset_self _) ?_ (fun _ hm => hm) (fun _ hc => hc) ?_ .inl
    · unfold senders
      rw [holding]
      exact (List.perm_middle.trans ((hperm.append_right _).symm))
    · rintro m j ⟨⟩
      exact .inl ⟨id, hid, kind, heard⟩

theorem Matched.step {act : Act} (h : s.Matched)
    (heeds : ∀ message, s.reader = .holding message → message ∈ s.wire)
    (hstep : s.step act = some t) : t.Matched := by
  have move := moves_of_step hstep
  cases act with
  | call k method => exact h.step_call move
  | register k => exact h.step_register move
  | send k taken => exact h.step_send move
  | receive k => exact h.step_receive move
  | timeout k waited => exact h.step_timeout move
  | forget k => exact h.step_forget move
  | hear message => exact h.step_hear move
  | settle => exact h.step_settle move
  | tell => exact h.step_tell move
  | exit code => exact h.step_exit move
  | route => exact h.step_route heeds move

end matched

/-- Every line that was dealt with and is no answer was passed on once, in order: the server's
requests to be declined, its notifications to the listener. -/
structure Heeded (s : AppServer) : Prop where
  last : ∀ message, s.reader = .holding message → ∃ before, s.wire = before ++ [message]
  declined : s.declined = s.routed.filterMap fun message => (kindOf message).refusal?
  noticed : s.noticed = s.routed.filterMap fun message => (kindOf message).notice?

section heeded
variable {s t : AppServer}

omit [Host] in
theorem Heeded.same (h : s.Heeded) (reader : t.reader = s.reader) (wire : t.wire = s.wire)
    (declined : t.declined = s.declined) (noticed : t.noticed = s.noticed) : t.Heeded := by
  have routed : t.routed = s.routed := by
    unfold AppServer.routed
    rw [reader, wire]
  refine ⟨fun message hm => wire ▸ h.last message (reader ▸ hm), ?_, ?_⟩
  · rw [declined, routed]
    exact h.declined
  · rw [noticed, routed]
    exact h.noticed

omit [Host] in
/-- The line in hand is dealt with. -/
theorem Heeded.routes (h : s.Heeded) {message : Value} (holding : s.reader = .holding message)
    (free : ∀ m, t.reader ≠ .holding m) (wire : t.wire = s.wire)
    (declined : t.declined = s.declined ++ (kindOf message).refusal?.toList)
    (noticed : t.noticed = s.noticed ++ (kindOf message).notice?.toList) : t.Heeded := by
  obtain ⟨before, hwire⟩ := h.last message holding
  have hold : s.routed = before := by
    unfold AppServer.routed
    rw [holding, hwire]
    exact List.dropLast_concat
  have hnew : t.routed = before ++ [message] := by
    rw [← hwire, ← wire]
    unfold AppServer.routed
    cases hreader : t.reader with
    | holding m => exact absurd hreader (free m)
    | _ => rfl
  refine ⟨fun m hm => absurd hm (free m), ?_, ?_⟩
  · rw [declined, h.declined, hold, hnew, List.filterMap_append]
    cases hkind : (kindOf message).refusal? <;> simp [hkind]
  · rw [noticed, h.noticed, hold, hnew, List.filterMap_append]
    cases hkind : (kindOf message).notice? <;> simp [hkind]

theorem Heeded.step {act : Act} (h : s.Heeded) (hstep : s.step act = some t) : t.Heeded := by
  cases moves_of_step hstep with
  | @hear message resting =>
    have hold : s.routed = s.wire := by
      unfold routed
      rw [resting]
    have hnew : ({ s with reader := .holding message, wire := s.wire ++ [message] } :
        AppServer).routed = s.wire := List.dropLast_concat
    refine ⟨?_, ?_, ?_⟩
    · rintro m ⟨⟩
      exact ⟨s.wire, rfl⟩
    · rw [hnew, ← hold]
      exact h.declined
    · rw [hnew, ← hold]
      exact h.noticed
  | pass holding =>
    refine h.routes holding ?_ rfl rfl rfl
    rintro m ⟨⟩
  | answer holding kind =>
    refine h.routes holding ?_ rfl ?_ ?_
    · rintro m ⟨⟩
    · rw [kind]
      exact (List.append_nil _).symm
    · rw [kind]
      exact (List.append_nil _).symm
  | settle settling =>
    have hold : s.routed = s.wire := by
      unfold routed
      rw [settling]
    refine ⟨by rintro m ⟨⟩, h.declined.trans ?_, h.noticed.trans ?_⟩
    · rw [hold]
      rfl
    · rw [hold]
      rfl
  | call | register | send | receive | timeout | forget | exit | tell => exact h.same rfl rfl rfl rfl

end heeded

theorem matched_init : ({} : AppServer).Matched where
  once := List.nodup_nil
  young := by rintro k id ⟨⟩
  apart := by rintro j k id ⟨⟩
  unheard := by rintro k ⟨⟩
  fresh _ _ := rfl
  keyed := by rintro entry ⟨⟩
  gone := by rintro entry ⟨⟩
  held := by rintro message k ⟨⟩
  told := by rintro k message ⟨⟩
  single _ := Nat.zero_le _
  waits := by rintro k ⟨⟩
  late := by rintro ⟨⟩
  returned := by rintro k id message result ⟨⟩
  failed := by rintro k id result ⟨⟩

omit [Host] in
theorem heeded_init : ({} : AppServer).Heeded :=
  ⟨by rintro message ⟨⟩, rfl, rfl⟩

/-- The runs of a client: any number of calls on any threads, whatever the server says, and its exit
at any time. -/
abbrev Run (s : AppServer) : Prop := machine.Reach (fun _ _ => True) s

theorem run_matched {s : AppServer} (run : Run s) : s.Matched ∧ s.Heeded := by
  apply Lib.Machine.Reach.invariant (I := fun s : AppServer => s.Matched ∧ s.Heeded) run
  · rintro s rfl
    exact ⟨matched_init, heeded_init⟩
  · intro s act t _ h _ hstep
    have heeds (message : Value) (holding : s.reader = .holding message) : message ∈ s.wire := by
      obtain ⟨before, hwire⟩ := h.2.last message holding
      rw [hwire]
      exact List.mem_append_right _ List.mem_cons_self
    exact ⟨h.1.step heeds hstep, h.2.step hstep⟩

/-- A call that returns with a message made its result of an answer to its own id, or of the exit,
and is no longer in `pending`; no two calls have one id. A call that waits has one sender left; once
the exit is dealt with, each that was registered before it has its answer. What is no answer is
declined or passed on, once and in order. -/
theorem calls_matched {s : AppServer} (run : Run s) :
    (∀ k id message result, (s.calls k).pc = .returned id (some message) result →
      s.Answers k message ∧ result = outcome (s.calls k).method message) ∧
    (∀ k id message result, (s.calls k).pc = .returned id message result →
      ∀ entry ∈ s.pending, entry.1 ≠ id ∧ entry.2 ≠ k) ∧
    (∀ j k id, (s.calls j).pc.id? = some id → (s.calls k).pc.id? = some id → j = k) ∧
    (∀ k, (s.calls k).pc.waits = true → (s.calls k).mailbox = [] → s.senders.count k = 1) ∧
    (∀ code, s.reaper = .telling code [] → s.reader.hand = [] → ∀ k,
      (s.calls k).pc.waits = true → (s.calls k).late = false →
        ∃ message, (s.calls k).mailbox = [message] ∧ s.Answers k message) ∧
    s.declined = (s.routed.filterMap fun message => (kindOf message).refusal?) ∧
    s.noticed = s.routed.filterMap fun message => (kindOf message).notice? := by
  obtain ⟨h, heeded⟩ := run_matched run
  refine ⟨h.returned, ?_, h.apart, ?_, ?_, heeded.declined, heeded.noticed⟩
  · intro k id message result hreturned entry hentry
    have hgone := h.gone entry hentry
    have hne : entry.2 ≠ k := by
      intro heq
      rw [heq, hreturned] at hgone
      cases hgone
    have hid : (s.calls k).pc.id? = some id := by rw [hreturned]; rfl
    exact ⟨fun hkey => hne ((h.pending_of_id hid hentry).mp hkey), hne⟩
  · intro k hwaits hempty
    exact List.count_eq_one_of_mem h.once (h.waits k hwaits hempty)
  · intro code reaper reader k hwaits hearly
    cases hmail : (s.calls k).mailbox with
    | nil =>
      have hmem := h.waits k hwaits hmail
      unfold senders at hmem
      rw [reaper, reader] at hmem
      have hpending : k ∈ s.pending.map (·.2) := by simpa [Reaper.hand] using hmem
      obtain ⟨entry, hentry, rfl⟩ := List.mem_map.mp hpending
      have hlate := h.late (by rw [reaper]; rfl) entry hentry
      rw [hearly] at hlate
      cases hlate
    | cons message rest =>
      have hsingle := h.single k
      rw [hmail, List.length_cons] at hsingle
      have hrest : rest = [] := List.eq_nil_of_length_eq_zero (by omega)
      have hanswers := h.told k message (hmail ▸ List.mem_cons_self)
      exact ⟨message, by rw [hrest], hanswers⟩

end

section samples
attribute [local instance] Host.ascii

def reply (id : ℤ) (result : Value) : Value := .object [("id", .number id), ("result", result)]

/-- Two calls are answered the other way round, a third is out when the server ends; between them
the server asks something of its own. -/
def crossed : List Act :=
  [.call 0 "thread/start", .call 1 "turn/start", .register 1, .register 0, .send 0 true,
    .send 1 true, .hear (reply 2 (.string "second")), .route, .settle,
    .hear (.object [("method", .string "approve"), ("id", .number 9)]), .route,
    .hear (reply 1 (.string "first")), .route, .settle, .receive 0, .receive 1,
    .call 2 "turn/steer", .register 2, .send 2 true, .exit 1, .tell, .receive 2]

theorem calls_matched_crossed : ∃ s : AppServer, machine.exec {} crossed = some s ∧
    (s.calls 0).pc = .returned 1 (some (reply 1 (.string "first"))) (.ok (.string "first")) ∧
    s.Answers 0 (reply 1 (.string "first")) ∧ s.Answers 2 (exited 1) ∧
    s.declined = [refusal (.number 9) "approve"] := by
  have run : ∃ s, machine.exec {} crossed = some s ∧
      (s.calls 0).pc = .returned 1 (some (reply 1 (.string "first"))) (.ok (.string "first")) ∧
      (s.calls 2).pc = .returned 3 (some (exited 1))
        (.error "turn/steer: codex app-server exited with 1") ∧
      s.routed.filterMap (fun message => (kindOf message).refusal?) =
        [refusal (.number 9) "approve"] :=
    ⟨_, Option.eq_some_of_isSome (by decide +kernel), by decide +kernel, by decide +kernel,
      by decide +kernel⟩
  obtain ⟨s, hs, first, third, declined⟩ := run
  have along : machine.Along (fun _ _ => True) {} crossed :=
    Lib.Machine.along_of_forall (fun _ _ => True.intro) _ _
  have matched := calls_matched ((Lib.Machine.Reach.init rfl).exec along hs)
  exact ⟨s, hs, first, (matched.1 0 _ _ _ first).1, (matched.1 2 _ _ _ third).1,
    matched.2.2.2.2.2.1.trans declined⟩

end samples
end AppServer
end SiliconOmni.Codex
