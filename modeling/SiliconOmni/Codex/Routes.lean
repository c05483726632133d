import SiliconOmni.Ascii
import SiliconOmni.Codex.Server
import SiliconOmni.Lib.Demux
import SiliconOmni.Lib.Transition

/-! The routes of one app-server between its reader, its sessions and the thread that waits for its
exit, each of which takes one step between two locks at a time. -/
namespace SiliconOmni.Codex
open Lib (Machine)
open Lib.Demux (Happening Once Came boardAfter boardAfter_append came_append once_append heard
  standing)

/-- How far the thread that waits for the process has come. -/
inductive Reaper where
  | waiting
  /-- The process is down as far as `alive` says, and the exit is not announced yet. -/
  | dead (code : ℤ)
  /-- The gate of the callbacks let it in. -/
  | called (code : ℤ)
  /-- Nobody asked for this exit. -/
  | unasked (code : ℤ)
  /-- The ears that are still to be told. -/
  | telling (code : ℤ) (ears : List ℕ)
  | silent
  deriving DecidableEq

namespace Reaper

/-- Whether it has nothing left to do. -/
def settled : Reaper → Bool
  | .telling _ [] | .silent => true
  | _ => false

/-- Whether it has looked up whom to tell. -/
def collected : Reaper → Bool
  | .telling _ _ => true
  | _ => false

def untold : Reaper → List ℕ
  | .telling _ ears => ears
  | _ => []

end Reaper

/-- What a route takes in. -/
inductive Line where
  | news (method : String) (params : Value)
  | tune (model : String)
  deriving DecidableEq

/-- One app-server, and who does what to it. -/
structure Peer where
  generation : ℕ
  shared : Shared := {}
  alive : Bool := true
  /-- Whether the callback gate of the process lets anybody in. -/
  accepting : Bool := true
  stopping : Bool := false
  /-- Ears are numbered in the order that they are attached. -/
  ears : ℕ := 0
  /-- Sessions that found the server alive and are about to take the lock of the routes. -/
  looked : List (String × String) := []
  /-- What the reader is about to hand on, the lock of the routes let go. -/
  held : List (ℕ × ItemEvent) := []
  said : List (ℕ × ItemEvent) := []
  reaper : Reaper := .waiting
  told : List (ℕ × ItemEvent) := []
  /-- What happened under the lock of the routes, in order. -/
  log : List (Happening String Route Line) := []

inductive Act where
  /-- The reader takes a notification to its route. -/
  | notify (method : String) (params : Value)
  | emit
  | look (thread model : String)
  | attach (thread model : String)
  | detach (thread : String)
  | retune (thread model : String)
  /-- `Shared::stop` raises its flag. -/
  | stop
  /-- `LineProcess::stop` shuts the gate. -/
  | shut
  | exit (code : ℤ)
  | enter
  | check
  | collect
  | tell

namespace Peer
variable {s t : Peer} {thread model method : String} {params : Value}

/-- The ears that listen. -/
def listening (s : Peer) : List ℕ := s.shared.routes.map (·.2.emit)

/-- The ears that were told of the exit, or are about to be. -/
def notified (s : Peer) : List ℕ := s.told.map (·.1) ++ s.reaper.untold

/-- An exit is announced to every ear that listens, once. -/
structure Announces (s : Peer) : Prop where
  alive : s.alive = true ↔ s.reaper = .waiting
  listening : s.listening.Nodup
  fresh : ∀ ear ∈ s.listening, ear < s.ears
  notified : s.notified.Nodup
  covers : s.reaper.collected = true → ∀ ear ∈ s.listening, ear ∈ s.notified
  before : s.reaper.collected = false → s.told = []
  words : ∀ word ∈ s.told, ∃ code, word.2 = exitEvent s.generation code
  silent : s.reaper = .silent → s.stopping = true ∨ s.accepting = false

theorem Announces.start (generation : ℕ) : Announces { generation } where
  alive := by simp
  listening := List.nodup_nil
  fresh _ hmem := absurd hmem List.not_mem_nil
  notified := List.nodup_nil
  covers := by rintro ⟨⟩
  before _ := rfl
  words _ hmem := absurd hmem List.not_mem_nil
  silent := by rintro ⟨⟩

/-- Fewer ears may listen, as long as none is new. -/
theorem Announces.fewer (h : s.Announces) (listening : t.listening.Sublist s.listening)
    (alive : t.alive = s.alive) (reaper : t.reaper = s.reaper) (told : t.told = s.told)
    (ears : t.ears = s.ears) (generation : t.generation = s.generation)
    (stopping : s.stopping = true → t.stopping = true)
    (accepting : s.accepting = false → t.accepting = false) : t.Announces where
  alive := by rw [alive, reaper]; exact h.alive
  listening := listening.nodup h.listening
  fresh ear hmem := ears ▸ h.fresh ear (listening.subset hmem)
  notified := by rw [Peer.notified, told, reaper]; exact h.notified
  covers hcollected ear hmem := by
    rw [Peer.notified, told, reaper]
    exact h.covers (reaper ▸ hcollected) ear (listening.subset hmem)
  before hcollected := told ▸ h.before (reaper ▸ hcollected)
  words := by rw [told, generation]; exact h.words
  silent hsilent := (h.silent (reaper ▸ hsilent)).imp stopping accepting

/-- The reaper takes a step before it has looked up whom to tell. -/
theorem Announces.onward (h : s.Announces) {reaper : Reaper} (dead : s.reaper ≠ .waiting)
    (early : s.reaper.collected = false) (later : reaper ≠ .waiting)
    (still : reaper.collected = false)
    (silent : reaper = .silent → s.stopping = true ∨ s.accepting = false) :
    ({ s with reaper } : Peer).Announces where
  alive := by simpa [later, dead] using h.alive
  listening := h.listening
  fresh := h.fresh
  notified := by
    have hnone : reaper.untold = [] := by
      cases reaper <;> first | rfl | cases still
    simp [Peer.notified, hnone, h.before early]
  covers hcollected := by
    rw [show reaper.collected = true from hcollected] at still
    cases still
  before _ := h.before early
  words := h.words
  silent := silent

end Peer

section
variable [Host]

/-- A route as a machine of its own. -/
def Route.next (route : Route) : Line → List ItemEvent × Route
  | .news method params => route.hear method params
  | .tune model => ([], route.tune model)

namespace Peer
variable {s t : Peer} {thread model method : String} {params : Value}

/-- What a notification is in the history of the routes: nothing where it names no thread. -/
def entry (method : String) (params : Value) : List (Happening String Route Line) :=
  match threadOf params with
  | some thread => [.input thread (.news method params)]
  | none => []

def step (s : Peer) : Act → Option Peer
  | .notify method params =>
      if s.accepting && s.held.isEmpty then
        let (events, shared) := s.shared.notify method params
        some { s with shared, held := events, log := s.log ++ entry method params }
      else none
  | .emit =>
      match s.held with
      | [] => none
      | event :: rest => some { s with held := rest, said := s.said ++ [event] }
  | .look thread model =>
      if s.alive then some { s with looked := (thread, model) :: s.looked } else none
  | .attach thread model =>
      if (thread, model) ∉ s.looked then none
      else if s.alive then
        some { s with
          looked := s.looked.erase (thread, model)
          shared := s.shared.attach thread model s.ears
          ears := s.ears + 1
          log := s.log ++
            [.rented s.ears thread { emit := s.ears, stream := .new model }] }
      else some { s with looked := s.looked.erase (thread, model) }
  | .detach thread =>
      some { s with shared := s.shared.detach thread, log := s.log ++ [.left thread] }
  | .retune thread model =>
      some { s with
        shared := s.shared.retune thread model
        log := s.log ++ [.input thread (.tune model)] }
  | .stop => some { s with stopping := true }
  | .shut => some { s with accepting := false }
  | .exit code =>
      if s.alive then some { s with alive := false, reaper := .dead code } else none
  | .enter =>
      match s.reaper with
      | .dead code =>
          some { s with reaper := if s.accepting then .called code else .silent }
      | _ => none
  | .check =>
      match s.reaper with
      | .called code =>
          some { s with reaper := if s.stopping then .silent else .unasked code }
      | _ => none
  | .collect =>
      match s.reaper with
      | .unasked code =>
          some { s with reaper := .telling code (s.shared.routes.map (·.2.emit)) }
      | _ => none
  | .tell =>
      match s.reaper with
      | .telling code (ear :: rest) =>
          some { s with
            reaper := .telling code rest
            told := s.told ++ [(ear, exitEvent s.generation code)] }
      | _ => none

def machine : Machine Peer Act where
  init s := ∃ generation, s = { generation }
  step := step

/-- Every run: any thread may take its next step at any moment. -/
abbrev Run : Peer → Prop := machine.Reach fun _ _ => True

@[simp] theorem next_emit (route : Route) (line : Line) : (route.next line).2.emit = route.emit := by
  cases line with
  | news method params => exact Route.hear_emit route method params
  | tune model => rfl

/-- The routes are those of the board that their history leaves, and what was said is what the
board said. -/
structure Mirrors (s : Peer) : Prop where
  routes : ∀ thread, s.shared.routes.lookup thread =
    ((boardAfter Route.next s.log).line thread).map (·.2)
  emits : ∀ thread ear route,
    (boardAfter Route.next s.log).line thread = some (ear, route) → route.emit = ear
  words : s.said ++ s.held = (boardAfter Route.next s.log).said
  once : Once s.log
  fresh : ∀ ear, Came ear s.log → ear < s.ears

theorem Mirrors.start (generation : ℕ) : Mirrors { generation } where
  routes _ := rfl
  emits _ _ _ := by rintro ⟨⟩
  words := rfl
  once := List.nodup_nil
  fresh _ came := absurd came List.not_mem_nil

/-- What the invariant reads of a state. -/
theorem Mirrors.of_same (h : s.Mirrors) (routes : t.shared.routes = s.shared.routes)
    (log : t.log = s.log) (words : t.said ++ t.held = s.said ++ s.held) (ears : t.ears = s.ears) :
    t.Mirrors where
  routes := by rw [routes, log]; exact h.routes
  emits := by rw [log]; exact h.emits
  words := by rw [words, log]; exact h.words
  once := by rw [log]; exact h.once
  fresh := by rw [log, ears]; exact h.fresh

/-- The holder of a thread takes in one line, and the board says what it makes of it. -/
theorem Mirrors.input {route : Route} {line : Line} (h : s.Mirrors)
    (found : s.shared.routes.lookup thread = some route)
    (routes : t.shared.routes = Entries.insert s.shared.routes thread (route.next line).2)
    (log : t.log = s.log ++ [.input thread line])
    (words : t.said ++ t.held =
      s.said ++ s.held ++ (route.next line).1.map fun event => (route.emit, event))
    (ears : t.ears = s.ears) : t.Mirrors := by
  have held := h.routes thread
  rw [found] at held
  obtain ⟨⟨ear, now⟩, hline, hnow⟩ := Option.map_eq_some_iff.mp held.symm
  obtain rfl : now = route := hnow
  obtain rfl := h.emits _ _ _ hline
  have after : boardAfter Route.next t.log =
      { line := Function.update (boardAfter Route.next s.log).line thread
          (some (now.emit, (now.next line).2))
        said := (boardAfter Route.next s.log).said ++
          (now.next line).1.map fun event => (now.emit, event) } := by
    rw [log, boardAfter_append, Lib.Demux.Board.step, hline]
  refine ⟨fun other => ?_, fun other ear route hother => ?_, ?_, ?_, fun ear came => ?_⟩
  · rw [after, routes]
    by_cases hother : other = thread
    · simp [hother]
    · simpa [Entries.lookup_insert_ne _ _ hother, hother] using h.routes other
  · rw [after] at hother
    by_cases heq : other = thread
    · subst heq
      simp only [Function.update_self, Option.some.injEq, Prod.mk.injEq] at hother
      rw [← hother.1, ← hother.2, next_emit]
    · exact h.emits other ear route (by simpa [heq] using hother)
  · rw [words, after, h.words]
  · rw [log, once_append]
    exact ⟨h.once, by rintro _ ⟨⟩⟩
  · rw [log, came_append] at came
    rcases came with came | ⟨⟨⟩⟩
    exact ears ▸ h.fresh ear came

/-- A line for a thread that nobody holds changes nothing. -/
theorem Mirrors.unheard {line : Line} (h : s.Mirrors)
    (none : s.shared.routes.lookup thread = none) (routes : t.shared.routes = s.shared.routes)
    (log : t.log = s.log ++ [.input thread line]) (words : t.said ++ t.held = s.said ++ s.held)
    (ears : t.ears = s.ears) : t.Mirrors := by
  have free := h.routes thread
  rw [none] at free
  have hline := Option.map_eq_none_iff.mp free.symm
  have after : boardAfter Route.next t.log = boardAfter Route.next s.log := by
    rw [log, boardAfter_append, Lib.Demux.Board.step, hline]
  refine ⟨?_, ?_, ?_, ?_, fun ear came => ?_⟩
  · rw [after, routes]
    exact h.routes
  · rw [after]
    exact h.emits
  · rw [after, words]
    exact h.words
  · rw [log, once_append]
    exact ⟨h.once, by rintro _ ⟨⟩⟩
  · rw [log, came_append] at came
    rcases came with came | ⟨⟨⟩⟩
    exact ears ▸ h.fresh ear came

theorem Mirrors.attach (h : s.Mirrors)
    (routes : t.shared.routes = (s.shared.attach thread model s.ears).routes)
    (log : t.log = s.log ++ [.rented s.ears thread { emit := s.ears, stream := .new model }])
    (words : t.said ++ t.held = s.said ++ s.held) (ears : t.ears = s.ears + 1) : t.Mirrors := by
  have away : ¬Came s.ears s.log := fun came => absurd (h.fresh _ came) (lt_irrefl _)
  have after : boardAfter Route.next t.log =
      { boardAfter Route.next s.log with
        line := Function.update (boardAfter Route.next s.log).line thread
          (some (s.ears, { emit := s.ears, stream := .new model })) } := by
    rw [log, boardAfter_append, Lib.Demux.Board.step]
  refine ⟨fun other => ?_, fun other ear route hother => ?_, ?_, ?_, fun ear came => ?_⟩
  · rw [after, routes, Shared.attach]
    by_cases hother : other = thread
    · simp [hother]
    · simpa [Entries.lookup_insert_ne _ _ hother, hother] using h.routes other
  · rw [after] at hother
    by_cases heq : other = thread
    · subst heq
      simp only [Function.update_self, Option.some.injEq, Prod.mk.injEq] at hother
      rw [← hother.1, ← hother.2]
    · exact h.emits other ear route (by simpa [heq] using hother)
  · rw [words, after]
    exact h.words
  · rw [log, once_append]
    refine ⟨h.once, ?_⟩
    rintro _ ⟨⟩
    exact away
  · rw [log, came_append] at came
    rcases came with came | ⟨⟨⟩⟩
    · have := h.fresh ear came
      omega
    · omega

theorem Mirrors.detach (h : s.Mirrors)
    (routes : t.shared.routes = (s.shared.detach thread).routes)
    (log : t.log = s.log ++ [.left thread])
    (words : t.said ++ t.held = s.said ++ s.held) (ears : t.ears = s.ears) : t.Mirrors := by
  have after : boardAfter Route.next t.log =
      { boardAfter Route.next s.log with
        line := Function.update (boardAfter Route.next s.log).line thread none } := by
    rw [log, boardAfter_append, Lib.Demux.Board.step]
  refine ⟨fun other => ?_, fun other ear route hother => ?_, ?_, ?_, fun ear came => ?_⟩
  · rw [after, routes, Shared.detach]
    by_cases hother : other = thread
    · simp [hother]
    · simpa [Entries.lookup_remove_ne _ hother, hother] using h.routes other
  · rw [after] at hother
    by_cases heq : other = thread
    · simp [heq] at hother
    · exact h.emits other ear route (by simpa [heq] using hother)
  · rw [words, after]
    exact h.words
  · rw [log, once_append]
    exact ⟨h.once, by rintro _ ⟨⟩⟩
  · rw [log, came_append] at came
    rcases came with came | ⟨⟨⟩⟩
    exact ears ▸ h.fresh ear came

theorem Mirrors.notify (h : s.Mirrors) (hstep : s.step (.notify method params) = some t) :
    t.Mirrors := by
  rw [step] at hstep
  split_ifs at hstep with idle
  have hheld : s.held = [] := by simpa using (Bool.and_eq_true_iff.mp idle).2
  rw [Option.some.injEq] at hstep
  cases hthread : threadOf params with
  | none =>
    have hnotify : s.shared.notify method params =
        ([], { s.shared with notices := Entries.insert s.shared.notices method params }) := by
      rw [Shared.notify, hthread]
    have hentry : entry method params = [] := by rw [entry, hthread]
    rw [hnotify, hentry] at hstep
    subst hstep
    exact h.of_same rfl (List.append_nil _) (by rw [hheld]) rfl
  | some thread =>
    have hentry : entry method params = [.input thread (.news method params)] := by
      rw [entry, hthread]
    rw [hentry] at hstep
    cases hroute : s.shared.routes.lookup thread with
    | none =>
      have hnotify : s.shared.notify method params = ([], s.shared) := by
        rw [Shared.notify, hthread]
        simp only [hroute]
      rw [hnotify] at hstep
      subst hstep
      exact h.unheard hroute rfl rfl (by rw [hheld]) rfl
    | some route =>
      have hnotify : s.shared.notify method params =
          ((route.hear method params).1.map fun event => (route.emit, event),
            { s.shared with
              routes := Entries.insert s.shared.routes thread (route.hear method params).2 }) := by
        rw [Shared.notify, hthread]
        simp only [hroute]
      rw [hnotify] at hstep
      subst hstep
      exact h.input hroute rfl rfl (by simp [hheld, Route.next]) rfl

theorem Mirrors.retune (h : s.Mirrors) (hstep : s.step (.retune thread model) = some t) :
    t.Mirrors := by
  rw [step, Option.some.injEq] at hstep
  cases hroute : s.shared.routes.lookup thread with
  | none =>
    have hsame : s.shared.retune thread model = s.shared := by rw [Shared.retune, hroute]
    rw [hsame] at hstep
    subst hstep
    exact h.unheard hroute rfl rfl rfl rfl
  | some route =>
    have htuned : s.shared.retune thread model =
        { s.shared with
          routes := Entries.insert s.shared.routes thread (route.tune model) } := by
      rw [Shared.retune, hroute]
    rw [htuned] at hstep
    subst hstep
    exact h.input hroute rfl rfl (by simp [Route.next]) rfl

theorem Mirrors.step {act : Act} (h : s.Mirrors) (hstep : s.step act = some t) : t.Mirrors := by
  cases act with
  | notify method params => exact h.notify hstep
  | retune thread model => exact h.retune hstep
  | emit =>
    rw [Peer.step] at hstep
    cases hheld : s.held with
    | nil => simp [hheld] at hstep
    | cons event rest =>
      simp only [hheld, Option.some.injEq] at hstep
      subst hstep
      exact h.of_same rfl rfl (by simp [hheld]) rfl
  | look thread model =>
    rw [Peer.step] at hstep
    split_ifs at hstep
    rw [Option.some.injEq] at hstep
    subst hstep
    exact h.of_same rfl rfl rfl rfl
  | attach thread model =>
    rw [Peer.step] at hstep
    split_ifs at hstep with away alive
    · rw [Option.some.injEq] at hstep
      subst hstep
      exact h.attach rfl rfl rfl rfl
    · rw [Option.some.injEq] at hstep
      subst hstep
      exact h.of_same rfl rfl rfl rfl
  | detach thread =>
    rw [Peer.step, Option.some.injEq] at hstep
    subst hstep
    exact h.detach rfl rfl rfl rfl
  | stop | shut =>
    rw [Peer.step, Option.some.injEq] at hstep
    subst hstep
    exact h.of_same rfl rfl rfl rfl
  | exit code =>
    rw [Peer.step] at hstep
    split_ifs at hstep
    rw [Option.some.injEq] at hstep
    subst hstep
    exact h.of_same rfl rfl rfl rfl
  | enter | check | collect | tell =>
    rw [Peer.step] at hstep
    split at hstep
    next =>
      rw [Option.some.injEq] at hstep
      subst hstep
      exact h.of_same rfl rfl rfl rfl
    next => cases hstep

theorem mirrors (run : Run s) : s.Mirrors := by
  apply run.invariant
  · rintro _ ⟨generation, rfl⟩
    exact .start generation
  · intro s act t _ ih _ hstep
    exact ih.step hstep

/-- In every run each session hears, in order and once, exactly what a stream of its own would make
of the notifications that name its thread, and of nobody else's, from the moment that it attached
until the thread is detached or attached anew; and the turn that the server holds open for it is
the turn of that stream. -/
theorem hears_alone (run : Run s) (ear : ℕ) :
    ((s.said ++ s.held).filter fun word => word.1 = ear).map (·.2) =
      heard Route.next ear s.log ∧
    ∀ thread route, standing Route.next ear s.log = some (thread, route) →
      s.shared.turnOf thread = route.turn := by
  have h := mirrors run
  have agrees := Lib.Demux.boardAfter_agrees Route.next h.once
  constructor
  · rw [← agrees.told ear, Lib.Demux.Board.toldTo, h.words]
  · intro thread route hstanding
    have hline := (agrees.line ear thread route).mpr hstanding
    have hroute := h.routes thread
    rw [hline] at hroute
    simp [Shared.turnOf, hroute]

/-- A notification leaves the ears that listen as they are. -/
theorem listening_notify :
    (s.shared.notify method params).2.routes.map (·.2.emit) = s.listening := by
  unfold Shared.notify
  cases threadOf params with
  | none => rfl
  | some thread =>
    cases hroute : s.shared.routes.lookup thread with
    | none => simp only [hroute]; rfl
    | some route =>
      simp only [hroute]
      exact Entries.map_insert_of_lookup hroute (Route.hear_emit route method params)

omit [Host] in
theorem listening_retune :
    (s.shared.retune thread model).routes.map (·.2.emit) = s.listening := by
  unfold Shared.retune
  cases hroute : s.shared.routes.lookup thread with
  | none => rfl
  | some route => exact Entries.map_insert_of_lookup hroute rfl

omit [Host] in
theorem Announces.attach (h : s.Announces) (alive : s.alive = true)
    (routes : t.shared.routes = (s.shared.attach thread model s.ears).routes)
    (still : t.alive = s.alive) (reaper : t.reaper = s.reaper) (told : t.told = s.told)
    (ears : t.ears = s.ears + 1) (generation : t.generation = s.generation) : t.Announces := by
  have waiting : s.reaper = .waiting := h.alive.mp alive
  have early : s.reaper.collected = false := by rw [waiting]; rfl
  have new : s.ears ∉ s.listening := fun hmem => absurd (h.fresh _ hmem) (lt_irrefl _)
  have hlistening : t.listening =
      (Entries.insert s.shared.routes thread { emit := s.ears, stream := .new model }).map
        (·.2.emit) := by
    rw [Peer.listening, routes]
    rfl
  refine ⟨?_, ?_, fun ear hmem => ?_, ?_, ?_, ?_, ?_, ?_⟩
  · rw [still, reaper]
    exact h.alive
  · rw [hlistening]
    exact Entries.nodup_map_insert (f := Route.emit) h.listening new
  · rw [hlistening] at hmem
    rw [ears]
    rcases Entries.mem_map_insert (f := Route.emit) hmem with heq | hmem
    · have : ear = s.ears := heq
      omega
    · have := h.fresh ear hmem
      omega
  · rw [Peer.notified, told, reaper]
    exact h.notified
  · rw [reaper, early]
    rintro ⟨⟩
  · intro _
    rw [told]
    exact h.before early
  · rw [told, generation]
    exact h.words
  · rw [reaper, waiting]
    rintro ⟨⟩

omit [Host] in
/-- The ears are looked up once the process is down, so that none can come later. -/
theorem Announces.collect {code : ℤ} (h : s.Announces) (unasked : s.reaper = .unasked code) :
    ({ s with reaper := .telling code s.listening } : Peer).Announces := by
  have early : s.reaper.collected = false := by rw [unasked]; rfl
  have dead : s.reaper ≠ .waiting := by rw [unasked]; rintro ⟨⟩
  have hnotified : ({ s with reaper := .telling code s.listening } : Peer).notified =
      s.listening := by
    rw [Peer.notified, show s.told = [] from h.before early]
    rfl
  refine ⟨?_, h.listening, h.fresh, ?_, fun _ ear hmem => ?_, ?_, h.words, ?_⟩
  · simpa [dead] using h.alive
  · rw [hnotified]
    exact h.listening
  · rw [hnotified]
    exact hmem
  · rintro ⟨⟩
  · rintro ⟨⟩

omit [Host] in
theorem Announces.tell {code : ℤ} {ear : ℕ} {rest : List ℕ} (h : s.Announces)
    (telling : s.reaper = .telling code (ear :: rest)) :
    ({ s with
      reaper := .telling code rest
      told := s.told ++ [(ear, exitEvent s.generation code)] } : Peer).Announces := by
  have hnotified : ({ s with
      reaper := .telling code rest
      told := s.told ++ [(ear, exitEvent s.generation code)] } : Peer).notified = s.notified := by
    simp [Peer.notified, Reaper.untold, telling]
  have hcollected : s.reaper.collected = true := by rw [telling]; rfl
  refine ⟨?_, h.listening, h.fresh, ?_, fun _ other hmem => ?_, ?_, fun word hmem => ?_, ?_⟩
  · simpa [telling] using h.alive
  · rw [hnotified]
    exact h.notified
  · rw [hnotified]
    exact h.covers hcollected other hmem
  · rintro ⟨⟩
  · rcases List.mem_append.mp hmem with hmem | hmem
    · exact h.words word hmem
    · obtain rfl := List.mem_singleton.mp hmem
      exact ⟨code, rfl⟩
  · rintro ⟨⟩

theorem Announces.step {act : Act} (h : s.Announces) (hstep : s.step act = some t) :
    t.Announces := by
  cases act with
  | notify method params =>
    rw [Peer.step] at hstep
    split_ifs at hstep
    rw [Option.some.injEq] at hstep
    subst hstep
    exact h.fewer (by rw [Peer.listening, listening_notify]) rfl rfl rfl rfl rfl id id
  | retune thread model =>
    rw [Peer.step, Option.some.injEq] at hstep
    subst hstep
    exact h.fewer (by rw [Peer.listening, listening_retune]) rfl rfl rfl rfl rfl id id
  | detach thread =>
    rw [Peer.step, Option.some.injEq] at hstep
    subst hstep
    exact h.fewer (List.filter_sublist.map _) rfl rfl rfl rfl rfl id id
  | emit =>
    rw [Peer.step] at hstep
    cases hheld : s.held with
    | nil => simp [hheld] at hstep
    | cons event rest =>
      simp only [hheld, Option.some.injEq] at hstep
      subst hstep
      exact h.fewer (.refl _) rfl rfl rfl rfl rfl id id
  | look thread model =>
    rw [Peer.step] at hstep
    split_ifs at hstep
    rw [Option.some.injEq] at hstep
    subst hstep
    exact h.fewer (.refl _) rfl rfl rfl rfl rfl id id
  | attach thread model =>
    rw [Peer.step] at hstep
    split_ifs at hstep with away alive
    · rw [Option.some.injEq] at hstep
      subst hstep
      exact h.attach alive rfl rfl rfl rfl rfl rfl
    · rw [Option.some.injEq] at hstep
      subst hstep
      exact h.fewer (.refl _) rfl rfl rfl rfl rfl id id
  | stop =>
    rw [Peer.step, Option.some.injEq] at hstep
    subst hstep
    exact h.fewer (.refl _) rfl rfl rfl rfl rfl (fun _ => rfl) id
  | shut =>
    rw [Peer.step, Option.some.injEq] at hstep
    subst hstep
    exact h.fewer (.refl _) rfl rfl rfl rfl rfl id (fun _ => rfl)
  | exit code =>
    rw [Peer.step] at hstep
    split_ifs at hstep with alive
    rw [Option.some.injEq] at hstep
    subst hstep
    have waiting : s.reaper = .waiting := h.alive.mp alive
    have early : s.reaper.collected = false := by rw [waiting]; rfl
    have none : s.told = [] := h.before early
    exact ⟨by simp, h.listening, h.fresh, by simp [Peer.notified, Reaper.untold, none],
      by rintro ⟨⟩, fun _ => none, h.words, by rintro ⟨⟩⟩
  | enter =>
    rw [Peer.step] at hstep
    split at hstep
    next code dead =>
      rw [Option.some.injEq] at hstep
      subst hstep
      apply h.onward
      · rw [dead]; rintro ⟨⟩
      · rw [dead]; rfl
      · split_ifs <;> rintro ⟨⟩
      · split_ifs <;> rfl
      · intro hsilent
        cases hgate : s.accepting with
        | false => exact .inr rfl
        | true => simp [hgate] at hsilent
    next => cases hstep
  | check =>
    rw [Peer.step] at hstep
    split at hstep
    next code called =>
      rw [Option.some.injEq] at hstep
      subst hstep
      apply h.onward
      · rw [called]; rintro ⟨⟩
      · rw [called]; rfl
      · split_ifs <;> rintro ⟨⟩
      · split_ifs <;> rfl
      · intro hsilent
        cases hstop : s.stopping with
        | true => exact .inl rfl
        | false => simp [hstop] at hsilent
    next => cases hstep
  | collect =>
    rw [Peer.step] at hstep
    split at hstep
    next code unasked =>
      rw [Option.some.injEq] at hstep
      subst hstep
      exact h.collect unasked
    next => cases hstep
  | tell =>
    rw [Peer.step] at hstep
    split at hstep
    next code ear rest telling =>
      rw [Option.some.injEq] at hstep
      subst hstep
      exact h.tell telling
    next => cases hstep

theorem announces (run : Run s) : s.Announces := by
  apply run.invariant
  · rintro _ ⟨generation, rfl⟩
    exact .start generation
  · intro s act t _ ih _ hstep
    exact ih.step hstep

/-- Once the exit of a server has been dealt with, every ear that still listens has been told of it
exactly once, with the server's own generation, however attaching, detaching and the exit were
interleaved; the exit stays untold only where the server was stopped on purpose, or its callbacks
were shut off, before it was announced. -/
theorem exit_reaches_everyone (run : Run s) (settled : s.reaper.settled = true) :
    (s.reaper = .silent ∧ (s.stopping = true ∨ s.accepting = false)) ∨
      (∀ ear ∈ s.listening, (s.told.map (·.1)).count ear = 1) ∧
        ∀ word ∈ s.told, ∃ code, word.2 = exitEvent s.generation code := by
  have h := announces run
  cases hreaper : s.reaper with
  | silent => exact .inl ⟨rfl, h.silent hreaper⟩
  | telling code ears =>
    right
    rw [hreaper] at settled
    cases ears with
    | cons ear rest => cases settled
    | nil =>
      refine ⟨fun ear hmem => ?_, h.words⟩
      have hnotified : s.notified = s.told.map (·.1) := by
        rw [Peer.notified, hreaper]
        exact List.append_nil _
      have hcollected : s.reaper.collected = true := by rw [hreaper]; rfl
      have told := h.covers hcollected ear hmem
      have once := h.notified
      rw [hnotified] at told once
      exact List.count_eq_one_of_mem once told
  | waiting | dead code | called code | unasked code =>
    rw [hreaper] at settled
    cases settled

end Peer
end

section samples
attribute [local instance] Host.ascii

namespace Peer

def turnNews (thread turn : String) : Value :=
  .object [("threadId", .string thread), ("turn", .object [("id", .string turn)])]

/-- Two sessions on two threads of one server, their turns interleaved, and the server's death. -/
def twoThreads : List Act :=
  [.look "a" "m", .look "b" "n", .attach "b" "n", .attach "a" "m",
    .notify "turn/started" (turnNews "a" "t1"), .notify "turn/started" (turnNews "b" "t2"),
    .notify "turn/completed" (turnNews "a" "t1"), .emit, .exit 9, .enter, .check, .collect, .tell,
    .tell]

/-- The first session hears nothing of the turn that ended, and its own stays open. -/
theorem hears_alone_two : ∃ s : Peer, s.alive = false ∧ s.said.length = 1 ∧
    ((s.said ++ s.held).filter fun word => word.1 = 0).map (·.2) = heard Route.next 0 s.log ∧
    s.shared.turnOf "b" = "t2" := by
  have run : ∃ s : Peer, machine.exec { generation := 7 } twoThreads = some s ∧ s.alive = false ∧
      s.said.length = 1 ∧ (standing Route.next 0 s.log).map (fun p => (p.1, p.2.turn)) =
        some ("b", "t2") :=
    ⟨_, Option.eq_some_of_isSome (by decide +kernel), by decide +kernel, by decide +kernel,
      by decide +kernel⟩
  obtain ⟨s, hs, dead, once, stands⟩ := run
  have start : Run { generation := 7 } := .init ⟨7, rfl⟩
  have reach : Run s := start.exec (Machine.along_of_forall (fun _ _ => True.intro) _ _) hs
  obtain ⟨⟨thread, route⟩, hstanding, heq⟩ := Option.map_eq_some_iff.mp stands
  obtain ⟨rfl, hturn⟩ := Prod.mk.inj heq
  have alone := hears_alone reach 0
  exact ⟨s, dead, once, alone.1, (alone.2 _ route hstanding).trans hturn⟩

/-- Both sessions are told of the exit. -/
theorem exit_reaches_everyone_two : ∃ s : Peer, s.listening = [0, 1] ∧
    (s.told.map (·.1)).count 0 = 1 ∧ (s.told.map (·.1)).count 1 = 1 := by
  have run : ∃ s : Peer, machine.exec { generation := 7 } twoThreads = some s ∧
      s.listening = [0, 1] ∧ s.reaper.settled = true ∧ s.reaper ≠ .silent :=
    ⟨_, Option.eq_some_of_isSome (by decide +kernel), by decide +kernel, by decide +kernel,
      by decide +kernel⟩
  obtain ⟨s, hs, listen, settled, spoke⟩ := run
  have start : Run { generation := 7 } := .init ⟨7, rfl⟩
  have reach : Run s := start.exec (Machine.along_of_forall (fun _ _ => True.intro) _ _) hs
  rcases exit_reaches_everyone reach settled with ⟨silent, -⟩ | ⟨told, -⟩
  · exact absurd silent spoke
  · rw [listen] at told
    exact ⟨s, listen, told 0 (by decide), told 1 (by decide)⟩

end Peer
end samples
end SiliconOmni.Codex
