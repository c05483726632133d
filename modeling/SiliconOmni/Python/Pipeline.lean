import Mathlib.Data.List.Range
import SiliconOmni.Python.Chat

/-! The events on their way from the daemon to the callbacks of a Chat: what each step leaves of them. -/
namespace SiliconOmni.Python

def Frame.seq? : Frame → Option ℕ
  | .event seq _ _ => some seq
  | _ => none

def Line.seq? : Line → Option ℕ
  | .frame f => f.seq?
  | .reply .. => none

/-- The event of a frame that came under a generation. -/
def under (g : ℕ) (arrived : Option (ℕ × Frame)) : Option ℕ :=
  arrived.bind fun a => if a.1 = g then a.2.seq? else none

def Caller.arrived : Caller → Option (ℕ × Frame)
  | .holding g frame => some (g, frame)
  | _ => none

/-- The events of a generation that a link has still to put in the inbox. -/
def Link.coming (link : Link) (g : ℕ) : List ℕ :=
  (under g link.hand).toList ++ if link.listener = some g then link.wire.filterMap Line.seq? else []

/-- Nothing of a subscription is on the link, or will come by it. -/
def Link.Blank (link : Link) : Prop := link.cursor = none ∧ link.wire.filterMap Line.seq? = []

/-- A change of a link that leaves what is on its way, or takes some of its end away. -/
structure Link.Fades (link link' : Link) : Prop where
  listener : link'.listener = link.listener ∨ link'.listener = none
  hand : ∀ g frame, link'.hand = some (g, frame) →
    link.hand = some (g, frame) ∨ link.listener = some g
  coming : ∀ g, ∃ rest, link'.coming g ++ rest = link.coming g
  whole : ∀ g, link'.listener = some g → ∀ seq, link'.cursor = some seq →
    link'.coming g = link.coming g ∧ link.cursor = some seq
  blank : link.Blank → link'.Blank
  down : (link.up = false → link.cursor = none) → link'.up = false → link'.cursor = none
  cursor : link.cursor = none → link'.cursor = none

theorem Link.coming_congr {link link' : Link} {g : ℕ} (hand : link'.hand = link.hand)
    (listener : link'.listener = link.listener)
    (wire : link'.wire.filterMap Line.seq? = link.wire.filterMap Line.seq?) :
    link'.coming g = link.coming g := by
  rw [coming, coming, hand, listener, wire]

/-- The subscription ends, or the connection does. -/
theorem Link.Fades.cut {link : Link} {alive up : Bool} :
    link.Fades { link with alive, up, cursor := none } where
  listener := .inl rfl
  hand _ _ h := .inl h
  coming _ := ⟨[], List.append_nil _⟩
  whole _ _ _ h := by cases h
  blank h := ⟨rfl, h.2⟩
  down _ _ := rfl
  cursor _ := rfl

theorem Link.Fades.unlisten {link : Link} : link.Fades { link with listener := none } where
  listener := .inr rfl
  hand _ _ h := .inl h
  coming g := by
    refine ⟨if link.listener = some g then link.wire.filterMap Line.seq? else [], ?_⟩
    simp [Link.coming]
  whole _ h := by cases h
  blank h := h
  down h := h
  cursor h := h

/-- A line that is no event is written. -/
theorem Link.Fades.write {link : Link} {line : Line} (hline : line.seq? = none) :
    link.Fades { link with wire := link.wire ++ [line] } := by
  have hwire : (link.wire ++ [line]).filterMap Line.seq? = link.wire.filterMap Line.seq? := by
    simp [hline]
  have hcoming (g : ℕ) :
      Link.coming { link with wire := link.wire ++ [line] } g = link.coming g :=
    Link.coming_congr rfl rfl hwire
  exact {
    listener := .inl rfl
    hand := fun _ _ h => .inl h
    coming := fun g => ⟨[], by rw [List.append_nil, hcoming]⟩
    whole := fun g _ _ h => ⟨hcoming g, h⟩
    blank := fun h => ⟨h.1, by rw [hwire]; exact h.2⟩
    down := fun h => h
    cursor := fun h => h }

/-- A reply is read. -/
theorem Link.Fades.settle {link : Link} {rest : List Line} {k : ℕ} {snapshot : Option Snapshot}
    (hwire : link.wire = .reply k snapshot :: rest) : link.Fades { link with wire := rest } := by
  have hsame : rest.filterMap Line.seq? = link.wire.filterMap Line.seq? := by
    rw [hwire]
    rfl
  have hcoming (g : ℕ) : Link.coming { link with wire := rest } g = link.coming g :=
    Link.coming_congr rfl rfl hsame
  exact {
    listener := .inl rfl
    hand := fun _ _ h => .inl h
    coming := fun g => ⟨[], by rw [List.append_nil, hcoming]⟩
    whole := fun g _ _ h => ⟨hcoming g, h⟩
    blank := fun h => ⟨h.1, by rw [hsame]; exact h.2⟩
    down := fun h => h
    cursor := fun h => h }

/-- A frame is read. -/
theorem Link.Fades.take {link : Link} {rest : List Line} {frame : Frame} (hnone : link.hand = none)
    (hwire : link.wire = .frame frame :: rest) :
    link.Fades { link with wire := rest, hand := link.listener.map fun g => (g, frame) } := by
  have hcoming (g : ℕ) :
      Link.coming { link with wire := rest, hand := link.listener.map fun g => (g, frame) } g =
        link.coming g := by
    unfold Link.coming
    rw [hnone, hwire]
    cases hlis : link.listener with
    | none => simp [under]
    | some h =>
      by_cases hg : h = g
      · subst hg
        cases hseq : frame.seq? <;> simp [under, hseq, Line.seq?]
      · simp [under, hg]
  exact {
    listener := .inl rfl
    hand := by
      intro g f h
      right
      obtain ⟨g', hg', heq⟩ := Option.map_eq_some_iff.mp h
      rw [hg', (Prod.mk.inj heq).1]
    coming := fun g => ⟨[], by rw [List.append_nil, hcoming]⟩
    whole := fun g _ _ h => ⟨hcoming g, h⟩
    blank := fun h => ⟨h.1, by
      have hold := h.2
      rw [hwire, List.filterMap_cons] at hold
      split at hold
      · exact hold
      · cases hold⟩
    down := fun h => h
    cursor := fun h => h }

/-- The link's thread comes to its end. -/
theorem Link.Fades.hangUp {link : Link} (hup : link.up = false) (hnone : link.hand = none) :
    link.Fades { link with
      alive := false, wire := [], listener := none
      hand := link.listener.map fun g => (g, .disconnected) } where
  listener := .inr rfl
  hand := by
    intro g f h
    right
    obtain ⟨g', hg', heq⟩ := Option.map_eq_some_iff.mp h
    rw [hg', (Prod.mk.inj heq).1]
  coming g := by
    refine ⟨link.coming g, ?_⟩
    unfold Link.coming
    rw [hnone]
    cases link.listener <;> simp [under, Frame.seq?]
  whole _ h := by cases h
  blank h := ⟨h.1, rfl⟩
  down h _ := h hup
  cursor h := h

namespace Process
variable {s s' : Process} {t c g k : ℕ}

/-- What the dispatcher has before it. -/
def queue (s : Process) (g : ℕ) : List ℕ :=
  (under g (s.caller.bind Caller.arrived)).toList ++ s.inbox.filterMap (under g)

/-- The events of a generation on their way from the daemon to the callbacks. -/
def pipeline (s : Process) (g c : ℕ) : List ℕ := s.queue g ++ (s.links c).coming g

/-- The next event the callbacks are to be given. -/
def due (s : Process) : ℕ := s.first.getD 0 + s.given.length

/-- No event is on its way but those that follow each other from `n`, and what the daemon streams
follows them. -/
structure Flow (s : Process) (g c n : ℕ) : Prop where
  lone : ∀ c', c' ≠ c → (s.links c').listener ≠ some g ∧ ∀ frame, (s.links c').hand ≠ some (g, frame)
  line : ∃ m, s.pipeline g c = List.range' n m ∧
    ∀ seq, (s.links c).cursor = some seq → (s.links c).listener = some g → seq = n + m

/-- The reply to a call is in, or on its way. -/
def Replied (s : Process) (k : ℕ) (snapshot : Option Snapshot) : Prop :=
  s.answers k = some snapshot ∨ ∃ c, .reply k snapshot ∈ (s.links c).wire

/-- The reply that a success of `open` goes by: its snapshot is no older than the range. -/
def Answers (s : Process) (g : ℕ) (since : ℤ) (snapshot : Option Snapshot) : Prop :=
  ∃ n told, s.origin g = some n ∧ snapshot = some told ∧ (since < 0 → (n : ℤ) ≤ told.seq + 1)

/-- What holds while `open` is under way. -/
structure Rising (s : Process) (c g k : ℕ) (since : ℤ) (stage : Stage) : Prop where
  unanswered : s.accepted g = false
  follows : ∀ b, s.first = some b → since = s.due
  asked : stage = .asked → s.origin g = none ∧ (s.links c).cursor = none ∧ s.Flow g c 0 ∧
    s.pipeline g c = []
  flow : ∀ n, s.origin g = some n → s.Flow g c n
  origin : ∀ n, s.origin g = some n → if since < 0 then n ≤ s.log.length else (n : ℤ) = since
  attached : stage ≠ .asked → ∃ n, s.origin g = some n
  reply : ∀ snapshot, s.Replied k snapshot → s.Answers g since snapshot

/-- A generation that is named somewhere. -/
def Names (s : Process) (g : ℕ) : Prop :=
  (∃ frame, s.caller = some (.holding g frame)) ∨ (∃ frame, some (g, frame) ∈ s.inbox) ∨
    (∃ c, (s.links c).listener = some g ∨ ∃ frame, (s.links c).hand = some (g, frame)) ∨
    s.generation = some g

structure Resuming (s : Process) : Prop where
  named : ∀ g, s.Names g → g < s.generations
  blank : ∀ c, s.linksMade ≤ c → (s.links c).Blank
  known : ∀ c, s.connection = some c → c < s.linksMade
  down : ∀ c, (s.links c).up = false → (s.links c).cursor = none
  later : ∀ g, s.generations ≤ g → s.accepted g = false ∧ s.origin g = none
  called : ∀ k snapshot, s.Replied k snapshot → k < s.calls
  opening : ∀ t c g k since why stage, s.pc t = .opening c g k since why stage →
    s.lock = some t ∧ s.generation = some g ∧ c < s.linksMade ∧ k < s.calls ∧
      s.Rising c g k since stage
  before : s.first = none → s.given = [] ∧ s.seen = -1 ∧ ∀ g, s.accepted g = false
  given : ∀ b, s.first = some b → s.given.map Prod.snd = List.range' b s.given.length ∧
    (s.due : ℤ) ≤ s.seen + 1
  passed : ∀ e ∈ s.given, s.accepted e.1 = true
  flow : ∀ g, s.generation = some g → s.accepted g = true → ∃ c, s.Flow g c s.due

theorem Resuming.init : Resuming {} := by
  constructor
  · rintro g (⟨f, ⟨⟩⟩ | ⟨f, h⟩ | ⟨c, ⟨⟨⟩⟩ | ⟨f, ⟨⟩⟩⟩ | ⟨⟨⟩⟩)
    cases h
  · exact fun c _ => ⟨rfl, rfl⟩
  · rintro c ⟨⟩
  · rintro c ⟨⟩
  · exact fun g _ => ⟨rfl, rfl⟩
  · rintro k snapshot (⟨⟨⟩⟩ | ⟨c, h⟩)
    cases h
  · rintro t c g k since why stage ⟨⟩
  · exact fun _ => ⟨rfl, rfl, fun _ => rfl⟩
  · rintro b ⟨⟩
  · intro e h
    cases h
  · rintro g ⟨⟩

/-- Frames of the generation are handed over, or will be if its `open` succeeds. -/
def Minds (s : Process) (g : ℕ) : Prop :=
  s.generation = some g ∧ (s.accepted g = true ∨ s.lock ≠ none)

/-- `s'` is `s` but for what no open and no callback depends on. -/
structure Keeps (s s' : Process) : Prop where
  generation : s'.generation = s.generation
  generations : s'.generations = s.generations
  accepted : s'.accepted = s.accepted
  origin : s'.origin = s.origin
  first : s'.first = s.first
  given : s'.given = s.given
  seen : s'.seen = s.seen
  lock : s'.lock = s.lock
  linksMade : s.linksMade ≤ s'.linksMade
  connection : ∀ c, s'.connection = some c → s.connection = some c ∨ c < s'.linksMade
  calls : s.calls ≤ s'.calls
  log : s.log.length ≤ s'.log.length
  pc : ∀ t c g k since why stage, s'.pc t = .opening c g k since why stage →
    s.pc t = .opening c g k since why stage
  names : ∀ g, s'.Names g → s.Names g
  blank : ∀ c, s'.linksMade ≤ c → (s.links c).Blank → (s'.links c).Blank
  down : ∀ c, ((s.links c).up = false → (s.links c).cursor = none) →
    (s'.links c).up = false → (s'.links c).cursor = none
  replied : ∀ k snapshot, s'.Replied k snapshot → s.Replied k snapshot ∨
    k < s.calls ∧ ∀ t c g since why stage, s.pc t = .opening c g k since why stage →
      s.Answers g since snapshot
  cursor : ∀ c, (s.links c).cursor = none → (s'.links c).cursor = none
  empty : ∀ g c, s.Minds g → s.Flow g c 0 → (s.links c).cursor = none → s.pipeline g c = [] →
    s'.pipeline g c = []
  flow : ∀ g c n, s.Minds g → s.Flow g c n → s'.Flow g c n

theorem Rising.keep {since : ℤ} {stage : Stage} (h : s.Rising c g k since stage) (keeps : s.Keeps s')
    (minds : s.Minds g)
    (mine : ∀ snapshot, s'.Replied k snapshot → s.Replied k snapshot ∨ s.Answers g since snapshot) :
    s'.Rising c g k since stage := by
  have hdue : s'.due = s.due := by rw [due, due, keeps.first, keeps.given]
  constructor
  · rw [keeps.accepted]
    exact h.unanswered
  · rw [keeps.first, hdue]
    exact h.follows
  · intro hstage
    obtain ⟨horigin, hcursor, hflow, hempty⟩ := h.asked hstage
    rw [keeps.origin]
    exact ⟨horigin, keeps.cursor c hcursor, keeps.flow g c 0 minds hflow,
      keeps.empty g c minds hflow hcursor hempty⟩
  · rw [keeps.origin]
    exact fun n hn => keeps.flow g c n minds (h.flow n hn)
  · rw [keeps.origin]
    intro n hn
    have horigin := h.origin n hn
    split_ifs at horigin ⊢
    · exact le_trans horigin keeps.log
    · exact horigin
  · rw [keeps.origin]
    exact h.attached
  · intro snapshot hreplied
    unfold Answers
    rw [keeps.origin]
    rcases mine snapshot hreplied with hold | hnew
    · exact h.reply snapshot hold
    · exact hnew

theorem Resuming.keep (h : s.Resuming) (keeps : s.Keeps s') : s'.Resuming := by
  have hdue : s'.due = s.due := by rw [due, due, keeps.first, keeps.given]
  constructor
  · rw [keeps.generations]
    exact fun g hg => h.named g (keeps.names g hg)
  · exact fun c hc => keeps.blank c hc (h.blank c (le_trans keeps.linksMade hc))
  · intro c hc
    rcases keeps.connection c hc with hold | hlt
    · exact lt_of_lt_of_le (h.known c hold) keeps.linksMade
    · exact hlt
  · exact fun c => keeps.down c (h.down c)
  · rw [keeps.generations, keeps.accepted, keeps.origin]
    exact h.later
  · intro k snapshot hreplied
    rcases keeps.replied k snapshot hreplied with hold | ⟨hlt, _⟩
    · exact lt_of_lt_of_le (h.called k snapshot hold) keeps.calls
    · exact lt_of_lt_of_le hlt keeps.calls
  · intro t c g k since why stage hpc
    have hold := keeps.pc t c g k since why stage hpc
    obtain ⟨hlock, hgen, hc, hk, hrising⟩ := h.opening t c g k since why stage hold
    rw [keeps.lock, keeps.generation]
    refine ⟨hlock, hgen, lt_of_lt_of_le hc keeps.linksMade, lt_of_lt_of_le hk keeps.calls,
      hrising.keep keeps ⟨hgen, .inr (by rw [hlock]; rintro ⟨⟩)⟩ ?_⟩
    intro snapshot hreplied
    rcases keeps.replied k snapshot hreplied with hmine | ⟨_, hnew⟩
    · exact .inl hmine
    · exact .inr (hnew t c g since why stage hold)
  · rw [keeps.first, keeps.given, keeps.seen, keeps.accepted]
    exact h.before
  · rw [keeps.first, keeps.given, keeps.seen, hdue]
    exact h.given
  · rw [keeps.given, keeps.accepted]
    exact h.passed
  · rw [keeps.generation, keeps.accepted, hdue]
    intro g hgen hacc
    obtain ⟨c, hflow⟩ := h.flow g hgen hacc
    exact ⟨c, keeps.flow g c _ ⟨hgen, .inl hacc⟩ hflow⟩

/-! ### The ways to keep on -/

/-- Threads that come out of nowhere open nothing. -/
theorem pc_of_setPc {pc : Pc} {u c g k : ℕ} {since : ℤ} {why : Why} {stage : Stage}
    (hpc : ∀ c g k since why stage, pc ≠ .opening c g k since why stage)
    (h : (s.setPc t pc).pc u = .opening c g k since why stage) :
    s.pc u = .opening c g k since why stage := by
  change Function.update s.pc t pc u = _ at h
  by_cases hu : u = t
  · subst hu
    rw [Function.update_self] at h
    exact absurd h (hpc _ _ _ _ _ _)
  · rwa [Function.update_of_ne hu] at h

theorem Flow.congr {n : ℕ} (h : s.Flow g c n) (links : s'.links = s.links) (caller : s'.caller = s.caller)
    (inbox : s'.inbox = s.inbox) : s'.Flow g c n := by
  have hpipe : s'.pipeline g c = s.pipeline g c := by
    simp only [pipeline, queue, links, caller, inbox]
  constructor
  · rw [links]
    exact h.lone
  · rw [hpipe, links]
    exact h.line

/-- Steps that leave the links and the dispatcher alone. -/
theorem Keeps.quiet
    (same : s' = { s with
      connection := s'.connection, opened := s'.opened, started := s'.started
      finished := s'.finished, state := s'.state, awaiting := s'.awaiting, ready := s'.ready
      linksMade := s'.linksMade, calls := s'.calls, pc := s'.pc, log := s'.log
      posted := s'.posted, taken := s'.taken })
    (linksMade : s.linksMade ≤ s'.linksMade)
    (connection : ∀ c, s'.connection = some c → s.connection = some c ∨ c < s'.linksMade)
    (calls : s.calls ≤ s'.calls) (log : s.log.length ≤ s'.log.length)
    (pc : ∀ t c g k since why stage, s'.pc t = .opening c g k since why stage →
      s.pc t = .opening c g k since why stage) : s.Keeps s' := by
  have hlinks : s'.links = s.links := by rw [same]
  have hcaller : s'.caller = s.caller := by rw [same]
  have hinbox : s'.inbox = s.inbox := by rw [same]
  have hanswers : s'.answers = s.answers := by rw [same]
  have hgeneration : s'.generation = s.generation := by rw [same]
  have hpipe (g c : ℕ) : s'.pipeline g c = s.pipeline g c := by
    simp only [pipeline, queue, hlinks, hcaller, hinbox]
  refine {
    generation := hgeneration
    generations := by rw [same]
    accepted := by rw [same]
    origin := by rw [same]
    first := by rw [same]
    given := by rw [same]
    seen := by rw [same]
    lock := by rw [same]
    linksMade, connection, calls, log, pc
    names := ?_
    blank := ?_
    down := ?_
    replied := ?_
    cursor := ?_
    empty := ?_
    flow := fun g c n _ h => h.congr hlinks hcaller hinbox }
  · intro g hg
    simpa only [Names, hlinks, hcaller, hinbox, hgeneration] using hg
  · rw [hlinks]
    exact fun c _ h => h
  · rw [hlinks]
    exact fun c h => h
  · intro k snapshot h
    left
    simpa only [Replied, hlinks, hanswers] using h
  · rw [hlinks]
    exact fun c h => h
  · intro g c _ _ _ hempty
    rw [hpipe, hempty]

theorem setLink_self (link : Link) : (s.setLink c link).links c = link := Function.update_self ..

theorem setLink_of_ne {c' : ℕ} (h : c' ≠ c) (link : Link) :
    (s.setLink c link).links c' = s.links c' := Function.update_of_ne h ..

theorem pipeline_setLink (link : Link) (g : ℕ) :
    (s.setLink c link).pipeline g c = s.queue g ++ link.coming g := by
  rw [pipeline, setLink_self]
  rfl

theorem pipeline_setLink_of_ne {c' : ℕ} (h : c' ≠ c) (link : Link) (g : ℕ) :
    (s.setLink c link).pipeline g c' = s.pipeline g c' := by
  rw [pipeline, setLink_of_ne h]
  rfl

/-- What holds of every link still does. -/
theorem on_setLink {P : Link → Prop} (link : Link) (hP : P (s.links c) → P link) (d : ℕ)
    (h : P (s.links d)) : P ((s.setLink c link).links d) := by
  by_cases hd : d = c
  · subst hd
    rw [setLink_self]
    exact hP h
  · rwa [setLink_of_ne hd]

theorem range'_prefix {n m : ℕ} {xs ys : List ℕ} (h : xs ++ ys = List.range' n m) :
    ∃ k, xs = List.range' n k := by
  obtain ⟨k, _, hxs, _⟩ := List.range'_eq_append_iff.mp h.symm
  exact ⟨k, hxs⟩

theorem Flow.setLink {link : Link} {n c' : ℕ} (h : s.Flow g c' n) (fades : (s.links c).Fades link) :
    (s.setLink c link).Flow g c' n := by
  constructor
  · intro d hd
    by_cases hdc : d = c
    · subst hdc
      rw [setLink_self]
      obtain ⟨hlistener, hhand⟩ := h.lone d hd
      refine ⟨?_, fun frame hframe => ?_⟩
      · rcases fades.listener with hl | hl <;> rw [hl]
        · exact hlistener
        · rintro ⟨⟩
      · rcases fades.hand g frame hframe with hold | hold
        · exact hhand frame hold
        · exact hlistener hold
    · rw [setLink_of_ne hdc]
      exact h.lone d hd
  · by_cases hc : c' = c
    · subst hc
      obtain ⟨m, hpipe, hcursor⟩ := h.line
      obtain ⟨rest, hrest⟩ := fades.coming g
      rw [pipeline_setLink, setLink_self]
      by_cases hall : link.listener = some g ∧ ∃ seq, link.cursor = some seq
      · obtain ⟨hlis, seq, hseq⟩ := hall
        obtain ⟨hsame, hcur⟩ := fades.whole g hlis seq hseq
        have hold : (s.links c').listener = some g := by
          rcases fades.listener with hl | hl
          · rw [← hl, hlis]
          · rw [hl] at hlis
            cases hlis
        refine ⟨m, by rw [hsame]; exact hpipe, fun q hq _ => ?_⟩
        obtain rfl := Option.some.inj (hseq.symm.trans hq)
        exact hcursor seq hcur hold
      · have hpre : (s.queue g ++ link.coming g) ++ rest = List.range' n m := by
          rw [List.append_assoc, hrest]
          exact hpipe
        obtain ⟨k, hk⟩ := range'_prefix hpre
        exact ⟨k, hk, fun q hq hlis => absurd ⟨hlis, q, hq⟩ hall⟩
    · rw [pipeline_setLink_of_ne hc, setLink_of_ne hc]
      exact h.line

/-- A link fades; the replies on it were there, or are to no `open` but what it goes by. -/
theorem Keeps.setLink {link : Link} (fades : (s.links c).Fades link)
    (replies : ∀ k snapshot, .reply k snapshot ∈ link.wire → .reply k snapshot ∈ (s.links c).wire ∨
      k < s.calls ∧ ∀ t c g since why stage, s.pc t = .opening c g k since why stage →
        s.Answers g since snapshot) :
    s.Keeps (s.setLink c link) := by
  refine {
    generation := rfl, generations := rfl, accepted := rfl, origin := rfl, first := rfl, given := rfl
    seen := rfl, lock := rfl, linksMade := le_rfl, connection := fun _ => .inl, calls := le_rfl
    log := le_rfl, pc := fun _ _ _ _ _ _ _ h => h
    names := ?_
    blank := fun d _ => on_setLink _ fades.blank d
    down := ?_
    replied := ?_
    cursor := fun d h => on_setLink (P := fun link => link.cursor = none) _ fades.cursor d h
    empty := ?_
    flow := fun g c n _ h => h.setLink fades }
  · rintro g (h | h | ⟨d, h⟩ | h)
    · exact .inl h
    · exact .inr (.inl h)
    · refine .inr (.inr (.inl ?_))
      by_cases hd : d = c
      · subst hd
        rw [setLink_self] at h
        rcases h with hlis | ⟨frame, hhand⟩
        · rcases fades.listener with hl | hl
          · exact ⟨d, .inl (hl ▸ hlis)⟩
          · rw [hl] at hlis
            cases hlis
        · rcases fades.hand g frame hhand with hold | hold
          · exact ⟨d, .inr ⟨frame, hold⟩⟩
          · exact ⟨d, .inl hold⟩
      · rw [setLink_of_ne hd] at h
        exact ⟨d, h⟩
    · exact .inr (.inr (.inr h))
  · intro d h
    exact on_setLink (P := fun link => link.up = false → link.cursor = none) _ fades.down d h
  · rintro k snapshot (h | ⟨d, h⟩)
    · exact .inl (.inl h)
    · by_cases hd : d = c
      · subst hd
        rw [setLink_self] at h
        rcases replies k snapshot h with hold | hother
        · exact .inl (.inr ⟨d, hold⟩)
        · exact .inr hother
      · rw [setLink_of_ne hd] at h
        exact .inl (.inr ⟨d, h⟩)
  · intro g d _ _ _ hempty
    by_cases hd : d = c
    · subst hd
      rw [pipeline_setLink]
      obtain ⟨hqueue, hcoming⟩ := List.append_eq_nil_iff.mp hempty
      obtain ⟨rest, hrest⟩ := fades.coming g
      rw [hcoming] at hrest
      rw [hqueue, (List.append_eq_nil_iff.mp hrest).1]
      rfl
    · rw [pipeline_setLink_of_ne hd]
      exact hempty

/-- The reply to a call is known as soon as it is read. -/
theorem Keeps.settle {snapshot : Option Snapshot} (h : .reply k snapshot ∈ (s.links c).wire) :
    s.Keeps { s with answers := Function.update s.answers k (some snapshot) } := by
  refine {
    generation := rfl, generations := rfl, accepted := rfl, origin := rfl, first := rfl, given := rfl
    seen := rfl, lock := rfl, linksMade := le_rfl, connection := fun _ => .inl, calls := le_rfl
    log := le_rfl, pc := fun _ _ _ _ _ _ _ h => h, names := fun _ h => h
    blank := fun _ _ h => h, down := fun _ h => h
    replied := ?_
    cursor := fun _ h => h, empty := fun _ _ _ _ _ h => h
    flow := fun _ _ _ _ h => h.congr rfl rfl rfl }
  rintro k' snapshot' (hans | hwire)
  · by_cases hk : k' = k
    · subst hk
      obtain rfl : snapshot = snapshot' := by simpa using hans
      exact .inl (.inr ⟨c, h⟩)
    · exact .inl (.inl (by simpa [hk] using hans))
  · exact .inl (.inr hwire)

/-- The dispatcher moves on; what is before it stays, or is of a generation that does not matter. -/
theorem Keeps.dispatch (caller : Option Caller) (inbox : List (Option (ℕ × Frame)))
    (queue : ∀ g, s.Minds g → Process.queue { s with caller, inbox } g = s.queue g)
    (names : ∀ g, (∃ frame, caller = some (.holding g frame)) ∨ (∃ frame, some (g, frame) ∈ inbox) →
      (∃ frame, s.caller = some (.holding g frame)) ∨ ∃ frame, some (g, frame) ∈ s.inbox) :
    s.Keeps { s with caller, inbox } := by
  have hpipe (g c : ℕ) (hg : s.Minds g) :
      pipeline { s with caller, inbox } g c = s.pipeline g c := by
    unfold pipeline
    rw [queue g hg]
  refine {
    generation := rfl, generations := rfl, accepted := rfl, origin := rfl, first := rfl, given := rfl
    seen := rfl, lock := rfl, linksMade := le_rfl, connection := fun _ => .inl, calls := le_rfl
    log := le_rfl, pc := fun _ _ _ _ _ _ _ h => h
    names := ?_
    blank := fun _ _ h => h, down := fun _ h => h
    replied := fun _ _ h => .inl h
    cursor := fun _ h => h
    empty := fun g c hg _ _ h => (hpipe g c hg).trans h
    flow := ?_ }
  · rintro g (h | h | h)
    · rcases names g (.inl h) with h | h
      · exact .inl h
      · exact .inr (.inl h)
    · rcases names g (.inr h) with h | h
      · exact .inl h
      · exact .inr (.inl h)
    · exact .inr (.inr h)
  · intro g c n hg h
    refine ⟨h.lone, ?_⟩
    rw [hpipe g c hg]
    exact h.line

theorem Keeps.dispatching : s.Keeps s.dispatching := by
  unfold Process.dispatching
  split_ifs with hnone
  · refine Keeps.dispatch (some .getting) s.inbox ?_ ?_
    · intro g _
      simp [Process.queue, hnone, Caller.arrived]
    · rintro g (⟨_, ⟨⟩⟩ | h)
      exact .inr h
  · exact Keeps.dispatch s.caller s.inbox (fun _ _ => rfl) (fun _ h => h)

/-- The link's thread puts a frame in the inbox. -/
theorem Keeps.arrived {a : ℕ × Frame} (hhand : (s.links c).hand = some a) :
    s.Keeps { s.setLink c { s.links c with hand := none } with inbox := s.inbox ++ [some a] } := by
  let link : Link := { s.links c with hand := none }
  let s' : Process := { s.setLink c link with inbox := s.inbox ++ [some a] }
  have hself : s'.links c = link := setLink_self ..
  have hother {d : ℕ} (hd : d ≠ c) : s'.links d = s.links d := setLink_of_ne hd _
  have hqueue (g : ℕ) : s'.queue g = s.queue g ++ (under g (some a)).toList := by
    have hcaller : s'.caller = s.caller := rfl
    have hinbox : s'.inbox = s.inbox ++ [some a] := rfl
    rw [Process.queue, Process.queue, hcaller, hinbox]
    cases hu : under g (some a) <;> simp [hu]
  have hpipe (g : ℕ) : s'.pipeline g c = s.pipeline g c := by
    unfold pipeline
    rw [hqueue, hself, List.append_assoc]
    simp [Link.coming, hhand, link, under]
  have hpipe_other (g : ℕ) {d : ℕ} (hd : d ≠ c) (hno : ∀ frame, a ≠ (g, frame)) :
      s'.pipeline g d = s.pipeline g d := by
    have hunder : under g (some a) = none := by
      have hne : a.1 ≠ g := fun h => hno a.2 (by rw [← h])
      simp [under, hne]
    unfold pipeline
    rw [hqueue, hother hd, hunder]
    simp
  have lone {g d n : ℕ} (h : s.Flow g d n) (hd : d ≠ c) : ∀ frame, a ≠ (g, frame) := by
    rintro frame rfl
    exact (h.lone c (Ne.symm hd)).2 frame hhand
  refine {
    generation := rfl, generations := rfl, accepted := rfl, origin := rfl, first := rfl, given := rfl
    seen := rfl, lock := rfl, linksMade := le_rfl, connection := fun _ => .inl, calls := le_rfl
    log := le_rfl, pc := fun _ _ _ _ _ _ _ h => h
    names := ?_, blank := ?_, down := ?_, replied := ?_, cursor := ?_, empty := ?_, flow := ?_ }
  · rintro g (h | ⟨frame, h⟩ | ⟨d, h⟩ | h)
    · exact .inl h
    · rcases List.mem_append.mp h with h | h
      · exact .inr (.inl ⟨frame, h⟩)
      · obtain rfl := Option.some.inj (List.mem_singleton.mp h)
        exact .inr (.inr (.inl ⟨c, .inr ⟨frame, hhand⟩⟩))
    · by_cases hd : d = c
      · subst hd
        change (s'.links d).listener = some g ∨ ∃ frame, (s'.links d).hand = some (g, frame) at h
        rw [hself] at h
        rcases h with h | ⟨_, ⟨⟩⟩
        exact .inr (.inr (.inl ⟨d, .inl h⟩))
      · change (s'.links d).listener = some g ∨ ∃ frame, (s'.links d).hand = some (g, frame) at h
        rw [hother hd] at h
        exact .inr (.inr (.inl ⟨d, h⟩))
    · exact .inr (.inr (.inr h))
  · exact fun d _ h => on_setLink (P := Link.Blank) link id d h
  · exact fun d h =>
      on_setLink (P := fun link => link.up = false → link.cursor = none) link id d h
  · rintro k snapshot (h | ⟨d, h⟩)
    · exact .inl (.inl h)
    · change _ ∈ (s'.links d).wire at h
      by_cases hd : d = c
      · subst hd
        rw [hself] at h
        exact .inl (.inr ⟨d, h⟩)
      · rw [hother hd] at h
        exact .inl (.inr ⟨d, h⟩)
  · exact fun d h => on_setLink (P := fun link => link.cursor = none) link id d h
  · intro g d _ hflow _ hempty
    show s'.pipeline g d = []
    by_cases hd : d = c
    · subst hd
      rw [hpipe, hempty]
    · rw [hpipe_other g hd (lone hflow hd), hempty]
  · intro g d n _ hflow
    show s'.Flow g d n
    constructor
    · intro e he
      by_cases hec : e = c
      · subst hec
        rw [hself]
        exact ⟨(hflow.lone e he).1, by rintro _ ⟨⟩⟩
      · rw [hother hec]
        exact hflow.lone e he
    · by_cases hd : d = c
      · subst hd
        rw [hpipe, hself]
        exact hflow.line
      · rw [hpipe_other g hd (lone hflow hd), hother hd]
        exact hflow.line

/-- The daemon streams the record at its cursor. -/
theorem Keeps.stream {seq : ℕ} {record : Record} {snapshot : Option Snapshot}
    (hcursor : (s.links c).cursor = some seq) :
    s.Keeps (s.setLink c { s.links c with
      cursor := some (seq + 1)
      wire := (s.links c).wire ++ [.frame (.event seq record snapshot)] }) := by
  let link : Link := { s.links c with
    cursor := some (seq + 1)
    wire := (s.links c).wire ++ [.frame (.event seq record snapshot)] }
  have hcoming (g : ℕ) : link.coming g =
      (s.links c).coming g ++ if (s.links c).listener = some g then [seq] else [] := by
    by_cases hg : (s.links c).listener = some g <;> simp [Link.coming, link, hg, Line.seq?, Frame.seq?]
  refine {
    generation := rfl, generations := rfl, accepted := rfl, origin := rfl, first := rfl, given := rfl
    seen := rfl, lock := rfl, linksMade := le_rfl, connection := fun _ => .inl, calls := le_rfl
    log := le_rfl, pc := fun _ _ _ _ _ _ _ h => h
    names := ?_, blank := fun d _ => on_setLink _ ?_ d, down := ?_, replied := ?_
    cursor := fun d h => on_setLink (P := fun link => link.cursor = none) _ ?_ d h
    empty := ?_, flow := ?_ }
  · rintro g (h | h | ⟨d, h⟩ | h)
    · exact .inl h
    · exact .inr (.inl h)
    · refine .inr (.inr (.inl ⟨d, ?_⟩))
      by_cases hd : d = c
      · subst hd
        rwa [setLink_self] at h
      · rwa [setLink_of_ne hd] at h
    · exact .inr (.inr (.inr h))
  · intro h
    rw [h.1] at hcursor
    cases hcursor
  · intro d h
    refine on_setLink (P := fun link => link.up = false → link.cursor = none) _ (fun hold hup => ?_) d h
    rw [hold hup] at hcursor
    cases hcursor
  · rintro k snapshot' (h | ⟨d, h⟩)
    · exact .inl (.inl h)
    · by_cases hd : d = c
      · subst hd
        rw [setLink_self] at h
        rcases List.mem_append.mp h with h | h
        · exact .inl (.inr ⟨d, h⟩)
        · cases List.mem_singleton.mp h
      · rw [setLink_of_ne hd] at h
        exact .inl (.inr ⟨d, h⟩)
  · intro h
    rw [h] at hcursor
    cases hcursor
  · intro g d _ _ hnone hempty
    by_cases hd : d = c
    · subst hd
      rw [hnone] at hcursor
      cases hcursor
    · rw [pipeline_setLink_of_ne hd, hempty]
  · intro g d n _ h
    constructor
    · intro e he
      by_cases hec : e = c
      · subst hec
        rw [setLink_self]
        exact h.lone e he
      · rw [setLink_of_ne hec]
        exact h.lone e he
    · by_cases hd : d = c
      · subst hd
        obtain ⟨m, hpipe, hlast⟩ := h.line
        rw [pipeline_setLink, setLink_self, hcoming, ← List.append_assoc]
        by_cases hlis : (s.links d).listener = some g
        · have hseq := hlast seq hcursor hlis
          refine ⟨m + 1, ?_, ?_⟩
          · rw [if_pos hlis, List.range'_1_concat, ← hseq, ← hpipe]
            rfl
          · intro q hq _
            obtain rfl := Option.some.inj hq
            omega
        · refine ⟨m, ?_, fun q _ hl => absurd hl hlis⟩
          rw [if_neg hlis, List.append_nil]
          exact hpipe
      · rw [pipeline_setLink_of_ne hd, setLink_of_ne hd]
        exact h.line

end Process
end SiliconOmni.Python
