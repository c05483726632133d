import SiliconOmni.Ascii
import SiliconOmni.Codex.Server
import SiliconOmni.Lib.Transition

/-! A runner's messages to its Codex thread, steered into the turn that runs or starting the next
one, over pipes that lag and with calls that may be given up. Codex itself may answer and say anything;
what the runner relies on of it is a contract. -/
namespace SiliconOmni.Codex
open Lib (Machine)

/-- What Codex calls its turns: an id is one turn's for good, and is never empty. -/
structure TurnNames where
  name : ℕ → String
  injective : Function.Injective name
  ne_empty : ∀ k, name k ≠ ""

/-- Where a `turn/start` landed, from the turn id Codex answered with. -/
def landed (turn open_ started : String) : Delivery :=
  if turn ≠ "" ∧ (turn = open_ ∨ turn = started) then .immediate else .nextTurn

/-- What the runner asks of Codex. Messages and calls go by number. -/
inductive Request where
  | steer (call send : ℕ) (expected : String)
  | start (call send : ℕ)
  deriving DecidableEq

def Request.call : Request → ℕ
  | .steer call _ _ | .start call _ => call

def Request.send : Request → ℕ
  | .steer _ send _ | .start _ send => send

/-- How far the runner's `send` has come. -/
inductive Pc where
  | idle
  | steering (call send : ℕ) (open_ : String)
  | starting (call send : ℕ) (open_ : String)
  deriving DecidableEq

namespace Pc

def call : Pc → Option ℕ
  | .idle => none
  | .steering call _ _ | .starting call _ _ => some call

def send : Pc → Option ℕ
  | .idle => none
  | .steering _ send _ | .starting _ send _ => some send

/-- The request of the call under way. -/
def request : Pc → Option Request
  | .idle => none
  | .steering call send open_ => some (.steer call send open_)
  | .starting call send _ => some (.start call send)

/-- The turn that the route knew of when the message came. -/
def known : Pc → String
  | .idle => ""
  | .steering _ _ open_ | .starting _ _ open_ => open_

end Pc

/-- A line of the app-server: an answer to a call with the turn id in it, empty where it names none, or
an error, or a notification. -/
inductive Said where
  | reply (call : ℕ) (turn : Option String)
  | news (method : String) (params : Value)
  deriving DecidableEq

/-- A message that `send` reported as delivered. -/
structure Landing where
  send : ℕ
  how : Delivery
  turn : String
  deriving DecidableEq

/-- A runner, its thread at Codex, and what is under way between them. -/
structure Talk where
  shared : Shared
  /-- The turn the last `turn/start` answered with. -/
  started : String := ""
  pc : Pc := .idle
  calls : ℕ := 0
  /-- The answer to the call that the runner waits for, once it is read. -/
  answer : Option (Option String) := none
  sends : ℕ := 0
  landings : List Landing := []
  failures : List ℕ := []
  heard : List ItemEvent := []
  /-- The turns that a `turn/start` was answered with. -/
  answered : List String := []
  requests : List Request := []
  lines : List Said := []
  /-- How many turns Codex has opened, and the one that runs. -/
  turns : ℕ := 0
  open_ : Option ℕ := none
  /-- The messages that Codex took in, each with its turn. -/
  took : List (ℕ × ℕ) := []

inductive Stir where
  | send
  | receive
  | timeout
  | read
  /-- Codex answers a request, having taken its message into a turn, which may be the next one. -/
  | answer (request : Request) (turn : Option String) (into : Option ℕ)
  /-- Codex opens a turn that no message asked for, such as a compaction's. -/
  | begin_
  /-- The turn that runs is over. -/
  | finish (params : Value)
  /-- Any other notification, of this thread or another. -/
  | speak (method : String) (params : Value)
  deriving DecidableEq

namespace Talk

def askSteer (s : Talk) (send : ℕ) (open_ : String) : Talk :=
  { s with
    requests := s.requests ++ [.steer s.calls send open_]
    pc := .steering s.calls send open_
    calls := s.calls + 1
    answer := none }

def askStart (s : Talk) (send : ℕ) (open_ : String) : Talk :=
  { s with
    requests := s.requests ++ [.start s.calls send]
    pc := .starting s.calls send open_
    calls := s.calls + 1
    answer := none }

/-- The message landed in the turn that was running. -/
def steered (s : Talk) (send : ℕ) (open_ : String) : Talk :=
  { s with
    pc := .idle
    answer := none
    landings := s.landings ++ [⟨send, .immediate, open_⟩] }

def land (s : Talk) (send : ℕ) (open_ turn : String) : Talk :=
  { s with
    pc := .idle
    answer := none
    started := turn
    answered := s.answered ++ [turn]
    landings := s.landings ++ [⟨send, landed turn open_ s.started, turn⟩] }

def fail (s : Talk) (send : ℕ) : Talk :=
  { s with pc := .idle, answer := none, failures := s.failures ++ [send] }

def say (s : Talk) (line : Said) : Talk := { s with lines := s.lines ++ [line] }

/-- Codex opens a turn. -/
def opened (s : Talk) : Talk := { s with turns := s.turns + 1, open_ := some s.turns }

/-- Codex takes a message into a turn. -/
def take (s : Talk) (send turn : ℕ) : Talk := { s with took := s.took ++ [(send, turn)] }

/-- Codex takes a message into a turn, if into any, which it opens if it is the next one. -/
def takeInto (s : Talk) (send : ℕ) : Option ℕ → Talk
  | none => s
  | some turn => (if turn = s.turns then s.opened else s).take send turn

section
variable [Host] (thread : String)

def step (s : Talk) : Stir → Option Talk
  | .send =>
      if s.pc ≠ .idle then none
      else if s.shared.turnOf thread ≠ "" then
        some ({ s with sends := s.sends + 1 }.askSteer s.sends (s.shared.turnOf thread))
      else some ({ s with sends := s.sends + 1 }.askStart s.sends "")
  | .receive =>
      match s.pc, s.answer with
      | .steering _ send open_, some (some _) => some (s.steered send open_)
      | .steering _ send open_, some none => some (s.askStart send open_)
      | .starting _ send open_, some (some turn) => some (s.land send open_ turn)
      | .starting _ send _, some none => some (s.fail send)
      | _, _ => none
  | .timeout =>
      match s.pc, s.answer with
      | .steering _ send open_, none => some (s.askStart send open_)
      | .starting _ send _, none => some (s.fail send)
      | _, _ => none
  | .read =>
      match s.lines with
      | [] => none
      | .reply call turn :: rest =>
          -- the slot of a call that was given up is gone
          let mine := s.pc.call = some call ∧ s.answer = none
          some { s with lines := rest, answer := if mine then some turn else s.answer }
      | .news method params :: rest =>
          some { s with
            lines := rest
            shared := (s.shared.notify method params).2
            heard := s.heard ++ (s.shared.notify method params).1.map (·.2) }
  | .answer request turn into =>
      if request ∈ s.requests then
        some (({ s with requests := s.requests.erase request }.takeInto request.send into).say
          (.reply request.call turn))
      else none
  | .begin_ => some s.opened
  | .finish params => some ({ s with open_ := none }.say (.news "turn/completed" params))
  | .speak method params => some (s.say (.news method params))

/-- A runner attached to its thread; a turn that runs there already is the first to begin. -/
def machine : Machine Talk Stir where
  init s := ∃ model, s = { shared := Shared.attach {} thread model 0 }
  step := step thread

end

section contract
variable (names : TurnNames) (thread : String) (s : Talk)

/-- An error means that the message was not taken in, and any other answer that it was. -/
def Truthful : Stir → Prop
  | .answer _ turn into => into.isSome = turn.isSome
  | _ => True

/-- A message is steered into the turn it expects, and only while that runs. -/
def SteersIntoTheOpen : Stir → Prop
  | .answer (.steer _ _ expected) _ (some k) => s.open_ = some k ∧ expected = names.name k
  | _ => True

/-- `turn/start` is start-or-steer: the turn that runs takes the message in, and only where none does
another is opened. -/
def StartOrSteer : Stir → Prop
  | .answer (.start _ _) _ (some k) => k = s.open_.getD s.turns
  | _ => True

/-- The answer to a `turn/start` names the turn that took the message in. -/
def NamesTheTurn : Stir → Prop
  | .answer (.start _ _) (some turn) (some k) => turn = names.name k
  | _ => True

/-- A `turn/started` of the thread names a turn of it. -/
def AnnouncesTurns : Stir → Prop
  | .speak method params => method = "turn/started" → threadOf params = some thread →
      ∃ k < s.turns, (params.at_ "turn").str? "id" = some (names.name k)
  | _ => True

/-- Turns run one at a time, and one `turn/completed` ends each. -/
def OneAtATime : Stir → Prop
  | .begin_ => s.open_ = none
  | .finish params => s.open_.isSome = true ∧ threadOf params = some thread
  | .speak method params => ¬(method = "turn/completed" ∧ threadOf params = some thread)
  | _ => True

instance (stir : Stir) : Decidable (Truthful stir) := by
  cases stir <;> unfold Truthful <;> infer_instance

instance (stir : Stir) : Decidable (SteersIntoTheOpen names s stir) := by
  unfold SteersIntoTheOpen
  split <;> infer_instance

instance (stir : Stir) : Decidable (StartOrSteer s stir) := by
  unfold StartOrSteer
  split <;> infer_instance

instance (stir : Stir) : Decidable (NamesTheTurn names stir) := by
  unfold NamesTheTurn
  split <;> infer_instance

instance (stir : Stir) : Decidable (AnnouncesTurns names thread s stir) := by
  cases stir <;> unfold AnnouncesTurns <;> infer_instance

instance (stir : Stir) : Decidable (OneAtATime thread s stir) := by
  cases stir <;> unfold OneAtATime <;> infer_instance

/-- What the runner relies on of Codex: its account of `turn/start` beside `landed` in `runner.rs`, of a
refusal beside `steer`, and that a `turn/completed` ends every turn, a compaction's as well. -/
structure Contract (stir : Stir) : Prop where
  truthful : Truthful stir
  steers : SteersIntoTheOpen names s stir
  starts : StartOrSteer s stir
  named : NamesTheTurn names stir
  announces : AnnouncesTurns names thread s stir
  oneAtATime : OneAtATime thread s stir

instance (stir : Stir) : Decidable (Contract names thread s stir) :=
  decidable_of_iff (Truthful stir ∧ SteersIntoTheOpen names s stir ∧ StartOrSteer s stir ∧
      NamesTheTurn names stir ∧ AnnouncesTurns names thread s stir ∧ OneAtATime thread s stir)
    ⟨fun ⟨a, b, c, d, e, f⟩ => ⟨a, b, c, d, e, f⟩, fun ⟨a, b, c, d, e, f⟩ => ⟨a, b, c, d, e, f⟩⟩

end contract

/-- The turns that were promised to open for a message. -/
def promised (s : Talk) : List String :=
  (s.landings.filter fun landing => landing.how = .nextTurn).map (·.turn)

/-- Whether a line tells that a turn of the thread is over. -/
def ending (thread : String) : Said → Bool
  | .news method params => method = "turn/completed" && threadOf params = some thread
  | .reply _ _ => false

/-- The turns whose end has not been heard of. -/
def underway (s : Talk) (thread : String) : ℕ := s.lines.countP (ending thread) + s.open_.toList.length

/-- What the runner's side of the wire knows of the turns is what Codex opened, and each turn is
under way until its one END is heard. -/
structure Follows (names : TurnNames) (thread : String) (s : Talk) : Prop where
  route : ∃ route, s.shared.routes = [(thread, route)] ∧
    (route.turn = "" ∨ ∃ k < s.turns, route.turn = names.name k)
  news : ∀ params, .news "turn/started" params ∈ s.lines → threadOf params = some thread →
    ∃ k < s.turns, (params.at_ "turn").str? "id" = some (names.name k)
  last : ∀ k, s.open_ = some k → k + 1 = s.turns
  ends : Stream.ends s.heard + s.underway thread = s.turns

variable {names : TurnNames} {thread : String} {s t : Talk}

theorem Follows.start (model : String) :
    Follows names thread { shared := Shared.attach {} thread model 0 } where
  route := ⟨{ emit := 0, stream := .new model }, rfl, .inl rfl⟩
  news _ hmem := absurd hmem List.not_mem_nil
  last _ := by rintro ⟨⟩
  ends := rfl

/-- The turn that the route holds open is one that Codex opened. -/
theorem Follows.turnOf (h : Follows names thread s) :
    s.shared.turnOf thread = "" ∨ ∃ k < s.turns, s.shared.turnOf thread = names.name k := by
  obtain ⟨route, hroutes, hturn⟩ := h.route
  have hlookup : s.shared.turnOf thread = route.turn := by simp [Shared.turnOf, hroutes]
  rw [hlookup]
  exact hturn

/-- What the runner does by itself. -/
theorem Follows.of_same (h : Follows names thread s) (shared : t.shared = s.shared)
    (lines : t.lines = s.lines) (turns : t.turns = s.turns) (open_ : t.open_ = s.open_)
    (heard : t.heard = s.heard) : Follows names thread t where
  route := by rw [shared, turns]; exact h.route
  news := by rw [lines, turns]; exact h.news
  last := by rw [open_, turns]; exact h.last
  ends := by rw [Talk.underway, heard, lines, open_, turns]; exact h.ends

/-- Codex opens a turn where none runs. -/
theorem Follows.opened (h : Follows names thread s) (none_ : s.open_ = none) :
    Follows names thread s.opened where
  route := by
    obtain ⟨route, hroutes, hturn⟩ := h.route
    refine ⟨route, hroutes, hturn.imp_right ?_⟩
    rintro ⟨k, hk, hname⟩
    exact ⟨k, Nat.lt_succ_of_lt hk, hname⟩
  news params hmem hthread := by
    obtain ⟨k, hk, hid⟩ := h.news params hmem hthread
    exact ⟨k, Nat.lt_succ_of_lt hk, hid⟩
  last k hk := by
    obtain rfl := Option.some.inj hk
    rfl
  ends := by
    have before := h.ends
    simp only [Talk.underway, none_, Option.toList_none, List.length_nil] at before
    simp only [Talk.underway, Talk.opened, Option.toList_some, List.length_singleton]
    omega

/-- A line that leaves the turns as they are. -/
theorem Follows.chat {line : Said} (h : Follows names thread s)
    (started : ∀ params, line = .news "turn/started" params → threadOf params = some thread →
      ∃ k < s.turns, (params.at_ "turn").str? "id" = some (names.name k))
    (goes_on : ending thread line = false) : Follows names thread (s.say line) where
  route := h.route
  news params hmem hthread := by
    rcases List.mem_append.mp hmem with hmem | hmem
    · exact h.news params hmem hthread
    · exact started params (List.mem_singleton.mp hmem).symm hthread
  last := h.last
  ends := by
    have before := h.ends
    simp only [Talk.underway, Talk.say] at before ⊢
    rw [List.countP_append]
    have silent : List.countP (ending thread) [line] = 0 := by simp [goes_on]
    omega

theorem Follows.finish {params : Value} (h : Follows names thread s) (runs : s.open_.isSome)
    (hthread : threadOf params = some thread) :
    Follows names thread ({ s with open_ := none }.say (.news "turn/completed" params)) where
  route := h.route
  news other hmem hother := by
    rcases List.mem_append.mp hmem with hmem | hmem
    · exact h.news other hmem hother
    · simp at hmem
  last _ := by rintro ⟨⟩
  ends := by
    have before := h.ends
    obtain ⟨k, hk⟩ := Option.isSome_iff_exists.mp runs
    simp only [Talk.underway, Talk.say, hk, Option.toList_some, Option.toList_none,
      List.length_singleton, List.length_nil] at before ⊢
    rw [List.countP_append]
    have one : List.countP (ending thread) [.news "turn/completed" params] = 1 := by
      simp [ending, hthread]
    omega

section
variable [Host]

/-- A notification is read: the route follows it, and hears the END of a turn that is over. -/
theorem Follows.hear {method : String} {params : Value} {rest : List Said}
    (h : Follows names thread s) (lines : s.lines = .news method params :: rest) :
    Follows names thread { s with
      lines := rest
      shared := (s.shared.notify method params).2
      heard := s.heard ++ (s.shared.notify method params).1.map (·.2) } := by
  obtain ⟨route, hroutes, hturn⟩ := h.route
  have before := h.ends
  have earlier : ∀ other, .news "turn/started" other ∈ rest → threadOf other = some thread →
      ∃ k < s.turns, (other.at_ "turn").str? "id" = some (names.name k) := by
    intro other hmem
    exact h.news other (by rw [lines]; exact List.mem_cons_of_mem _ hmem)
  simp only [Talk.underway, lines, List.countP_cons] at before
  by_cases hthread : threadOf params = some thread
  · have hnotify : s.shared.notify method params =
        ((route.hear method params).1.map fun event => (route.emit, event),
          { s.shared with routes := [(thread, (route.hear method params).2)] }) := by
      simp [Shared.notify, hthread, hroutes, Entries.insert]
    rw [hnotify]
    refine ⟨⟨_, rfl, ?_⟩, earlier, h.last, ?_⟩
    · rw [Route.hear]
      simp only [Route.follow]
      split
      next =>
        obtain ⟨k, hk, hid⟩ := h.news params (by rw [lines]; exact List.mem_cons_self) hthread
        exact .inr ⟨k, hk, by simp [hid]⟩
      next => exact .inl rfl
      next => exact hturn
    · simp only [Talk.underway, List.map_map, Function.comp_def, List.map_id', Stream.ends_append,
        Route.hear_events, Stream.feed_ends]
      simp only [ending, hthread, Bool.and_eq_true, decide_eq_true_eq, and_true] at before
      omega
  · have hnotify : (s.shared.notify method params).1 = [] ∧
        (s.shared.notify method params).2.routes = s.shared.routes := by
      unfold Shared.notify
      cases hother : threadOf params with
      | none => exact ⟨rfl, rfl⟩
      | some other =>
        have hne : (other == thread) = false := by
          simpa [hother] using hthread
        simp [hroutes, List.lookup_cons, hne]
    refine ⟨⟨route, hnotify.2.trans hroutes, hturn⟩, earlier, h.last, ?_⟩
    simp only [ending, hthread, decide_false, Bool.and_false, Bool.false_eq_true,
      ↓reduceIte] at before
    simpa [Talk.underway, hnotify.1] using before

/-- What a step can do where Codex keeps its contract. -/
inductive Stirs (names : TurnNames) (thread : String) (s : Talk) : Stir → Talk → Prop where
  | steer (idle : s.pc = .idle) (running : s.shared.turnOf thread ≠ "") :
      Stirs names thread s .send
        ({ s with sends := s.sends + 1 }.askSteer s.sends (s.shared.turnOf thread))
  | start (idle : s.pc = .idle) :
      Stirs names thread s .send ({ s with sends := s.sends + 1 }.askStart s.sends "")
  | steered {call send : ℕ} {open_ turn : String} (pc : s.pc = .steering call send open_)
      (answer : s.answer = some (some turn)) :
      Stirs names thread s .receive (s.steered send open_)
  | landed {call send : ℕ} {open_ turn : String} (pc : s.pc = .starting call send open_)
      (answer : s.answer = some (some turn)) :
      Stirs names thread s .receive (s.land send open_ turn)
  /-- A steer that was refused, or not answered in time, becomes a start. -/
  | restart {stir : Stir} {call send : ℕ} {open_ : String}
      (pc : s.pc = .steering call send open_)
      (why : stir = .receive ∧ s.answer = some none ∨ stir = .timeout ∧ s.answer = none) :
      Stirs names thread s stir (s.askStart send open_)
  | failed {stir : Stir} {call send : ℕ} {open_ : String}
      (pc : s.pc = .starting call send open_)
      (why : stir = .receive ∧ s.answer = some none ∨ stir = .timeout ∧ s.answer = none) :
      Stirs names thread s stir (s.fail send)
  | joined {call send k : ℕ} {turn : String}
      (asked : .steer call send (names.name k) ∈ s.requests) (open_ : s.open_ = some k) :
      Stirs names thread s (.answer (.steer call send (names.name k)) (some turn) (some k))
        (({ s with requests := s.requests.erase (.steer call send (names.name k)) }.take send k).say
          (.reply call (some turn)))
  | folded {call send k : ℕ} (asked : .start call send ∈ s.requests) (open_ : s.open_ = some k) :
      Stirs names thread s (.answer (.start call send) (some (names.name k)) (some k))
        (({ s with requests := s.requests.erase (.start call send) }.take send k).say
          (.reply call (some (names.name k))))
  | opened {call send : ℕ} (asked : .start call send ∈ s.requests) (open_ : s.open_ = none) :
      Stirs names thread s (.answer (.start call send) (some (names.name s.turns)) (some s.turns))
        (({ s with requests := s.requests.erase (.start call send) }.opened.take send s.turns).say
          (.reply call (some (names.name s.turns))))
  | refused {request : Request} (asked : request ∈ s.requests) :
      Stirs names thread s (.answer request none none)
        ({ s with requests := s.requests.erase request }.say (.reply request.call none))
  | began (open_ : s.open_ = none) : Stirs names thread s .begin_ s.opened
  | finished {params : Value} (runs : s.open_.isSome) (mine : threadOf params = some thread) :
      Stirs names thread s (.finish params)
        ({ s with open_ := none }.say (.news "turn/completed" params))
  | spoke {method : String} {params : Value}
      (started : method = "turn/started" → threadOf params = some thread →
        ∃ k < s.turns, (params.at_ "turn").str? "id" = some (names.name k))
      (goes_on : ¬(method = "turn/completed" ∧ threadOf params = some thread)) :
      Stirs names thread s (.speak method params) (s.say (.news method params))
  | replied {call : ℕ} {turn : Option String} {rest : List Said}
      (lines : s.lines = .reply call turn :: rest) :
      Stirs names thread s .read { s with
        lines := rest
        answer := if s.pc.call = some call ∧ s.answer = none then some turn else s.answer }
  | heard {method : String} {params : Value} {rest : List Said}
      (lines : s.lines = .news method params :: rest) :
      Stirs names thread s .read { s with
        lines := rest
        shared := (s.shared.notify method params).2
        heard := s.heard ++ (s.shared.notify method params).1.map (·.2) }

theorem step_cases {stir : Stir} (follows : Follows names thread s)
    (kept : Contract names thread s stir) (hstep : s.step thread stir = some t) :
    Stirs names thread s stir t := by
  cases stir with
  | send =>
    rw [Talk.step] at hstep
    split_ifs at hstep with busy running <;> (rw [Option.some.injEq] at hstep; subst hstep)
    · exact .steer (not_not.mp busy) running
    · exact .start (not_not.mp busy)
  | receive =>
    rw [Talk.step] at hstep
    split at hstep <;> cases hstep
    next pc answer => exact .steered pc answer
    next pc answer => exact .restart pc (.inl ⟨rfl, answer⟩)
    next pc answer => exact .landed pc answer
    next pc answer => exact .failed pc (.inl ⟨rfl, answer⟩)
  | timeout =>
    rw [Talk.step] at hstep
    split at hstep <;> cases hstep
    next pc answer => exact .restart pc (.inr ⟨rfl, answer⟩)
    next pc answer => exact .failed pc (.inr ⟨rfl, answer⟩)
  | answer request turn into =>
    rw [Talk.step] at hstep
    split_ifs at hstep with asked
    rw [Option.some.injEq] at hstep
    subst hstep
    have truthful : into.isSome = turn.isSome := kept.truthful
    cases turn with
    | none =>
      obtain rfl : into = none := by simpa using truthful
      exact .refused asked
    | some turn =>
      obtain ⟨k, rfl⟩ := Option.isSome_iff_exists.mp truthful
      have old (open_ : s.open_ = some k) : k ≠ s.turns := by
        have := follows.last k open_
        omega
      cases request with
      | steer call send expected =>
        obtain ⟨open_, rfl⟩ : s.open_ = some k ∧ expected = names.name k := kept.steers
        rw [takeInto, if_neg (old open_)]
        exact .joined asked open_
      | start call send =>
        have target : k = s.open_.getD s.turns := kept.starts
        obtain rfl : turn = names.name k := kept.named
        rcases Option.eq_none_or_eq_some s.open_ with open_ | ⟨running, open_⟩
        · obtain rfl : k = s.turns := by simpa [open_] using target
          rw [takeInto, if_pos rfl]
          exact .opened asked open_
        · obtain rfl : k = running := by simpa [open_] using target
          rw [takeInto, if_neg (old open_)]
          exact .folded asked open_
  | begin_ =>
    cases hstep
    exact .began kept.oneAtATime
  | finish params =>
    cases hstep
    have over_ : s.open_.isSome = true ∧ threadOf params = some thread := kept.oneAtATime
    exact .finished over_.1 over_.2
  | speak method params =>
    cases hstep
    exact .spoke kept.announces kept.oneAtATime
  | read =>
    rw [Talk.step] at hstep
    split at hstep
    next => cases hstep
    next call turn rest lines =>
      rw [Option.some.injEq] at hstep
      subst hstep
      exact .replied lines
    next method params rest lines =>
      rw [Option.some.injEq] at hstep
      subst hstep
      exact .heard lines

theorem Follows.step {stir : Stir} (h : Follows names thread s)
    (stirs : Stirs names thread s stir t) : Follows names thread t := by
  have answered {u : Talk} {call : ℕ} {turn : Option String} (h : Follows names thread u) :
      Follows names thread (u.say (.reply call turn)) :=
    h.chat (by rintro _ ⟨⟩) rfl
  cases stirs with
  | steer | start | steered | landed | restart | failed => exact h.of_same rfl rfl rfl rfl rfl
  | joined | folded | refused => exact answered (h.of_same rfl rfl rfl rfl rfl)
  | opened _ open_ =>
    have next := h.opened open_
    exact answered (next.of_same rfl rfl rfl rfl rfl)
  | began open_ => exact h.opened open_
  | finished runs mine => exact h.finish runs mine
  | @spoke method params started goes_on =>
    refine h.chat ?_ (by simpa [ending] using goes_on)
    rintro _ ⟨⟩ hthread
    exact started rfl hthread
  | heard lines => exact h.hear lines
  | replied lines =>
    refine ⟨h.route, fun params hmem => ?_, h.last, ?_⟩
    · exact h.news params (by rw [lines]; exact List.mem_cons_of_mem _ hmem)
    · have before := h.ends
      simpa [Talk.underway, lines, ending] using before

end
end Talk
end SiliconOmni.Codex
