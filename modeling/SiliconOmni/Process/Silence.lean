import Mathlib.Data.List.DropRight
import SiliconOmni.Process.Child

/-! What is heard of a child: all it says while the gate stands open, its exit once, and nothing
once it has been stopped. -/
namespace SiliconOmni.Process

/-- All that calls back. -/
def callers : List Caller := [.pump .stdout, .pump .stderr, .reaper]

/-- How many callbacks are running. -/
def calls (hands : Caller → Hand) : ℕ := callers.countP fun caller => (hands caller).busy

/-- What a thread has had to tell. -/
def spokenBy (s : Process) (caller : Caller) : List Word := s.spoken.filter fun w => w.caller = caller

/-- What has been heard of a thread. -/
def heardOf (s : Process) (caller : Caller) : List Word := s.heard.filter fun w => w.caller = caller

section
variable {s t : Process} {caller other : Caller} {thread : ℕ} {word : Word} {hand : Hand}
variable {hands : Caller → Hand}

theorem calls_same (h : hand.busy = (hands caller).busy) :
    calls (Function.update hands caller hand) = calls hands := by
  unfold calls
  apply List.countP_congr
  intro other _
  by_cases ho : other = caller
  · subst ho
    simp [h]
  · simp [Function.update_of_ne ho]

theorem calls_enter (was : (hands caller).busy = false) (now : hand.busy = true) :
    calls (Function.update hands caller hand) = calls hands + 1 := by
  unfold calls callers
  cases caller with
  | pump pipe =>
    cases pipe with
    | stdout => simp [List.countP_cons, Function.update, was, now]
    | stderr =>
      simp [List.countP_cons, Function.update, was, now]
      omega
  | reaper =>
    simp [List.countP_cons, Function.update, was, now]
    omega

theorem calls_leave (was : (hands caller).busy = true) (now : hand.busy = false) :
    calls (Function.update hands caller hand) = calls hands - 1 := by
  have away : (Function.update hands caller hand caller).busy = false := by simpa using now
  have back := calls_enter away was
  rw [Function.update_idem, Function.update_eq_self] at back
  omega

/-- What one move can do. -/
inductive Moves (s t : Process) : Prop where
  /-- It touches neither the gate nor what is told. -/
  | aside (gate : t.gate = s.gate) (hands : t.hands = s.hands) (spoken : t.spoken = s.spoken)
      (heard : t.heard = s.heard) (running : t.running = s.running)
      (stops : ∀ u, t.stops u = .shut ∨ t.stops u = .stopped → t.stops u = s.stops u)
  | disabled (gate : t.gate = s.gate.disable) (hands : t.hands = s.hands)
      (spoken : t.spoken = s.spoken) (heard : t.heard = s.heard) (running : t.running = s.running)
      (stops : ∀ u, t.stops u = .stopped → t.stops u = s.stops u)
  | done (thread : ℕ) (shut : s.stops thread = .shut) (idle : s.gate.active = 0)
      (next : t = s.setStop thread .stopped)
  | read (word : Word) (pipe : Pipe) (mine : word.caller = .pump pipe)
      (empty : s.hands (.pump pipe) = .empty)
      (next : t = { s.setHand (.pump pipe) (.ready word) with spoken := s.spoken ++ [word] })
  | closed (pipe : Pipe) (empty : s.hands (.pump pipe) = .empty)
      (next : t = s.setHand (.pump pipe) .ended)
  | exits (code : ℤ) (running : s.running = true) (empty : s.hands .reaper = .empty)
      (next : t = { ({ s with running := false }).setHand .reaper (.ready (.exit code)) with
        spoken := s.spoken ++ [.exit code] })
  | lowers (running : s.running = true) (deaf : s.hands .reaper ≠ .empty)
      (next : t = { s with running := false })
  | enters (caller : Caller) (word : Word) (ready : s.hands caller = .ready word)
      (accepting : s.gate.accepting = true)
      (next : t = { s.setHand caller (.inside word) with
        gate := { s.gate with active := s.gate.active + 1 } })
  | turned (caller : Caller) (word : Word) (ready : s.hands caller = .ready word)
      (refusing : s.gate.accepting = false) (next : t = s.setHand caller (rest caller))
  | hears (caller : Caller) (word : Word) (inside : s.hands caller = .inside word)
      (next : t = { s.setHand caller .after with heard := s.heard ++ [word] })
  | leaves (caller : Caller) (after : s.hands caller = .after)
      (next : t = { s.setHand caller (rest caller) with gate := s.gate.leave })

theorem setStop_other {stop : Stopper} (h : stop ≠ .shut ∧ stop ≠ .stopped) (u : ℕ)
    (late : (s.setStop thread stop).stops u = .shut ∨ (s.setStop thread stop).stops u = .stopped) :
    (s.setStop thread stop).stops u = s.stops u := by
  by_cases hu : u = thread
  · subst hu
    simp only [setStop, Function.update_self] at late
    rcases late with late | late
    · exact absurd late h.1
    · exact absurd late h.2
  · exact Function.update_of_ne hu ..

theorem stopping_moves {m : Move} (hstep : s.stopping thread m = some t) : Moves s t := by
  cases m with
  | stop =>
    simp only [stopping] at hstep
    split at hstep
    · cases hstep
      exact .aside rfl rfl rfl rfl rfl (setStop_other (by decide))
    · cases hstep
      exact .aside rfl rfl rfl rfl rfl (setStop_other (by decide))
    · cases hstep
  | signal | kill =>
    simp only [stopping] at hstep
    split_ifs at hstep
    cases hstep
    exact .aside rfl rfl rfl rfl rfl (setStop_other (by decide))
  | settle =>
    simp only [stopping] at hstep
    split at hstep
    · split_ifs at hstep
      cases hstep
      exact .aside rfl rfl rfl rfl rfl (setStop_other (by decide))
    · split_ifs at hstep
      cases hstep
      exact .aside rfl rfl rfl rfl rfl (setStop_other (by decide))
    · cases hstep
      exact .aside rfl rfl rfl rfl rfl (setStop_other (by decide))
    · cases hstep
  | shut =>
    simp only [stopping] at hstep
    split_ifs at hstep
    cases hstep
    refine .disabled rfl rfl rfl rfl rfl fun u late => ?_
    by_cases hu : u = thread
    · subst hu
      simp [setStop] at late
    · exact Function.update_of_ne hu ..
  | done =>
    simp only [stopping] at hstep
    split_ifs at hstep with h
    cases hstep
    exact .done thread h.1 h.2 rfl
  | _ => cases hstep

theorem step_moves {m : Move} (hstep : s.step m = some t) : t = s ∨ Moves s t := by
  cases m with
  | read pipe line =>
    simp only [step, read] at hstep
    split_ifs at hstep with empty blank
    · exact .inl (Option.some.inj hstep).symm
    · exact .inr (.read _ pipe rfl empty (Option.some.inj hstep).symm)
  | close pipe =>
    simp only [step] at hstep
    split_ifs at hstep with empty
    exact .inr (.closed pipe empty (Option.some.inj hstep).symm)
  | exit code =>
    simp only [step, exit] at hstep
    split_ifs at hstep with running empty
    · exact .inr (.exits code running empty (Option.some.inj hstep).symm)
    · exact .inr (.lowers running empty (Option.some.inj hstep).symm)
  | enter caller =>
    simp only [step, enter, CallbackGate.enter] at hstep
    split at hstep
    · rename_i word ready
      cases accepting : s.gate.accepting with
      | true =>
        simp only [accepting, if_true, Option.some.injEq] at hstep
        exact .inr (.enters caller word ready accepting (by simp only [← hstep, accepting]))
      | false =>
        simp only [accepting, Bool.false_eq_true, if_false, Option.some.injEq] at hstep
        exact .inr (.turned caller word ready accepting hstep.symm)
    · cases hstep
  | hear caller =>
    simp only [step, hear] at hstep
    split at hstep
    · rename_i word inside
      exact .inr (.hears caller word inside (Option.some.inj hstep).symm)
    · cases hstep
  | leave caller =>
    simp only [step, leave] at hstep
    split at hstep
    · rename_i after
      exact .inr (.leaves caller after (Option.some.inj hstep).symm)
    · cases hstep
  | send text taken =>
    simp only [step, sendLine, Option.some.injEq] at hstep
    subst hstep
    refine .inr ?_
    split_ifs <;> exact .aside rfl rfl rfl rfl rfl (fun _ _ => rfl)
  | drop =>
    cases hstep
    exact .inr (.disabled rfl rfl rfl rfl rfl fun _ _ => rfl)
  | stop | signal | kill | settle | shut | done =>
    rw [step] at hstep
    exact .inr (stopping_moves hstep)

/-- What was let in by the gate is told in order, and nothing is withheld before it is shut. -/
structure Telling (s : Process) : Prop where
  active : s.gate.active = calls s.hands
  told : ∀ c, s.heardOf c ++ (s.hands c).due <+: s.spokenBy c
  whole : s.gate.accepting = true →
    ∀ c, s.heardOf c ++ (s.hands c).due ++ (s.hands c).next = s.spokenBy c
  mine : ∀ c, ∀ word ∈ (s.hands c).due ++ (s.hands c).next, word.caller = c
  exits : (s.spokenBy .reaper).length ≤ 1
  alive : s.running = true → s.spokenBy .reaper = []
  shut : ∀ u, s.stops u = .shut ∨ s.stops u = .stopped → s.gate.accepting = false
  stopped : ∀ u, s.stops u = .stopped → s.gate.active = 0

theorem start_hands (onLine onStderr onExit : Bool) (c : Caller) :
    (start onLine onStderr onExit).hands c = .empty ∨
      (start onLine onStderr onExit).hands c = .ended := by
  cases c with
  | pump pipe =>
    cases pipe with
    | stdout => cases onLine <;> simp [start]
    | stderr => cases onStderr <;> simp [start]
  | reaper => cases onExit <;> simp [start]

theorem Telling.start (onLine onStderr onExit : Bool) : Telling (start onLine onStderr onExit) := by
  have none_due (c : Caller) : ((Process.start onLine onStderr onExit).hands c).due = [] ∧
      ((Process.start onLine onStderr onExit).hands c).next = [] := by
    rcases start_hands onLine onStderr onExit c with h | h <;> rw [h] <;> exact ⟨rfl, rfl⟩
  constructor
  · cases onLine <;> cases onStderr <;> cases onExit <;> rfl
  · intro c
    rw [(none_due c).1]
    exact List.nil_prefix
  · intro _ c
    rw [(none_due c).1, (none_due c).2]
    rfl
  · intro c word hmem
    rw [(none_due c).1, (none_due c).2] at hmem
    cases hmem
  · exact Nat.zero_le _
  · intro _
    rfl
  · intro u h
    rcases h with h | h <;> cases h
  · intro u h
    cases h

/-- A thread takes something in hand, or lays it down, where nobody hears it. -/
theorem Telling.hold (h : Telling s) (calm : hand.busy = (s.hands caller).busy)
    (due : hand.due = (s.hands caller).due)
    (next : s.gate.accepting = true → hand.next = (s.hands caller).next)
    (mine : ∀ word ∈ hand.next, word ∈ (s.hands caller).next) : Telling (s.setHand caller hand) where
  active := by
    rw [setHand, calls_same calm]
    exact h.active
  told c := by
    by_cases hc : c = caller
    · subst hc
      rw [setHand_self, due]
      exact h.told c
    · rw [setHand_other hc]
      exact h.told c
  whole accepting c := by
    by_cases hc : c = caller
    · subst hc
      rw [setHand_self, due, next accepting]
      exact h.whole accepting c
    · rw [setHand_other hc]
      exact h.whole accepting c
  mine c word hmem := by
    by_cases hc : c = caller
    · subst hc
      rw [setHand_self, due] at hmem
      rcases List.mem_append.mp hmem with hmem | hmem
      · exact h.mine c word (List.mem_append_left _ hmem)
      · exact h.mine c word (List.mem_append_right _ (mine word hmem))
    · rw [setHand_other hc] at hmem
      exact h.mine c word hmem
  exits := h.exits
  alive := h.alive
  shut := h.shut
  stopped := h.stopped

/-- A thread with nothing in hand has a word to tell. -/
theorem Telling.speak (h : Telling s) (by_ : word.caller = caller) (empty : s.hands caller = .empty)
    (last : caller = .reaper → s.spokenBy .reaper = [] ∧ s.running = false) :
    Telling { s.setHand caller (.ready word) with spoken := s.spoken ++ [word] } where
  active := by
    have : (Hand.ready word).busy = (s.hands caller).busy := by rw [empty]; rfl
    rw [setHand, calls_same this]
    exact h.active
  told c := by
    by_cases hc : c = caller
    · subst hc
      have := h.told c
      rw [empty] at this
      simp only [setHand_self, spokenBy, List.filter_append]
      exact this.trans (List.prefix_append ..)
    · have apart : ¬ word.caller = c := fun heq => hc (heq.symm.trans by_)
      simp only [setHand_other hc, spokenBy, List.filter_append, List.filter_singleton, apart,
        decide_false, cond_false, List.append_nil]
      exact h.told c
  whole accepting c := by
    by_cases hc : c = caller
    · subst hc
      have := h.whole accepting c
      simp only [empty, Hand.due, Hand.next, List.append_nil] at this
      simp only [setHand_self, Hand.due, Hand.next, List.append_nil, spokenBy, List.filter_append,
        List.filter_singleton, by_, decide_true, cond_true]
      exact congrArg (· ++ [word]) this
    · have apart : ¬ word.caller = c := fun heq => hc (heq.symm.trans by_)
      simp only [setHand_other hc, spokenBy, List.filter_append, List.filter_singleton, apart,
        decide_false, cond_false, List.append_nil]
      exact h.whole accepting c
  mine c w hmem := by
    by_cases hc : c = caller
    · subst hc
      rw [setHand_self] at hmem
      rw [List.mem_singleton.mp hmem, by_]
    · rw [setHand_other hc] at hmem
      exact h.mine c w hmem
  exits := by
    by_cases hc : caller = .reaper
    · subst hc
      have := (last rfl).1
      simp only [spokenBy] at this
      simp [spokenBy, this, by_]
    · have apart : ¬ word.caller = .reaper := fun heq => hc (by_.symm.trans heq)
      simp only [spokenBy, List.filter_append, List.filter_singleton, apart, decide_false,
        cond_false, List.append_nil]
      exact h.exits
  alive running := by
    by_cases hc : caller = .reaper
    · exact absurd ((last hc).2.symm.trans running) (by decide)
    · have apart : ¬ word.caller = .reaper := fun heq => hc (by_.symm.trans heq)
      simp only [spokenBy, List.filter_append, List.filter_singleton, apart, decide_false,
        cond_false, List.append_nil]
      exact h.alive running
  shut := h.shut
  stopped := h.stopped

/-- The flag goes down. -/
theorem Telling.lower (h : Telling s) : Telling { s with running := false } where
  active := h.active
  told := h.told
  whole := h.whole
  mine := h.mine
  exits := h.exits
  alive running := by cases running
  shut := h.shut
  stopped := h.stopped

/-- The gate lets a callback in. -/
theorem Telling.enter (h : Telling s) (ready : s.hands caller = .ready word)
    (accepting : s.gate.accepting = true) :
    Telling { s.setHand caller (.inside word) with
      gate := { s.gate with active := s.gate.active + 1 } } where
  active := by
    have was : (s.hands caller).busy = false := by rw [ready]; rfl
    rw [setHand, calls_enter was rfl, ← h.active]
  told c := by
    by_cases hc : c = caller
    · subst hc
      have whole := h.whole accepting c
      rw [ready] at whole
      rw [setHand_self]
      show s.heardOf c ++ [word] <+: s.spokenBy c
      rw [← whole]
      exact (List.append_nil _).symm ▸ List.prefix_rfl
    · rw [setHand_other hc]
      exact h.told c
  whole _ c := by
    by_cases hc : c = caller
    · subst hc
      have whole := h.whole accepting c
      rw [ready] at whole
      rw [setHand_self]
      show s.heardOf c ++ [word] ++ [] = s.spokenBy c
      rw [← whole]
      simp [Hand.due, Hand.next]
    · rw [setHand_other hc]
      exact h.whole accepting c
  mine c w hmem := by
    by_cases hc : c = caller
    · subst hc
      rw [setHand_self] at hmem
      exact h.mine c w (by rw [ready]; exact hmem)
    · rw [setHand_other hc] at hmem
      exact h.mine c w hmem
  exits := h.exits
  alive := h.alive
  shut := h.shut
  stopped u late := by
    have := h.shut u (.inr late)
    rw [accepting] at this
    cases this

/-- A callback runs. -/
theorem Telling.hear (h : Telling s) (inside : s.hands caller = .inside word) :
    Telling { s.setHand caller .after with heard := s.heard ++ [word] } := by
  have mine : word.caller = caller := h.mine caller word (by rw [inside]; exact List.mem_cons_self)
  have same : (Hand.after).busy = (s.hands caller).busy := by rw [inside]; rfl
  have onto (c : Caller) :
      ({ s.setHand caller .after with heard := s.heard ++ [word] } : Process).heardOf c ++
        ((s.setHand caller .after).hands c).due = s.heardOf c ++ (s.hands c).due := by
    by_cases hc : c = caller
    · subst hc
      simp [heardOf, inside, Hand.due, mine]
    · have apart : ¬ word.caller = c := fun heq => hc (heq.symm.trans mine)
      simp [heardOf, setHand_other hc, apart]
  have next (c : Caller) : ((s.setHand caller .after).hands c).next = (s.hands c).next := by
    by_cases hc : c = caller
    · subst hc
      rw [setHand_self, inside]
      rfl
    · rw [setHand_other hc]
  constructor
  · show s.gate.active = calls (Function.update s.hands caller .after)
    rw [calls_same same]
    exact h.active
  · intro c
    rw [onto]
    exact h.told c
  · intro accepting c
    rw [onto, next]
    exact h.whole accepting c
  · intro c w hmem
    refine h.mine c w ?_
    by_cases hc : c = caller
    · subst hc
      rw [setHand_self] at hmem
      cases hmem
    · rwa [setHand_other hc] at hmem
  · exact h.exits
  · exact h.alive
  · exact h.shut
  · exact h.stopped

/-- A callback is counted out. -/
theorem Telling.leave (h : Telling s) (after : s.hands caller = .after) :
    Telling { s.setHand caller (rest caller) with gate := s.gate.leave } := by
  have blank : (rest caller).due = [] ∧ (rest caller).next = [] ∧ (rest caller).busy = false := by
    cases caller <;> exact ⟨rfl, rfl, rfl⟩
  have due (c : Caller) : ((s.setHand caller (rest caller)).hands c).due = (s.hands c).due := by
    by_cases hc : c = caller
    · subst hc
      rw [setHand_self, blank.1, after]
      rfl
    · rw [setHand_other hc]
  have next (c : Caller) : ((s.setHand caller (rest caller)).hands c).next = (s.hands c).next := by
    by_cases hc : c = caller
    · subst hc
      rw [setHand_self, blank.2.1, after]
      rfl
    · rw [setHand_other hc]
  constructor
  · have was : (s.hands caller).busy = true := by rw [after]; rfl
    show s.gate.active - 1 = calls (Function.update s.hands caller (rest caller))
    rw [calls_leave was blank.2.2, ← h.active]
  · intro c
    rw [due]
    exact h.told c
  · intro accepting c
    rw [due, next]
    exact h.whole accepting c
  · intro c w hmem
    rw [due, next] at hmem
    exact h.mine c w hmem
  · exact h.exits
  · exact h.alive
  · exact h.shut
  · intro u late
    show s.gate.active - 1 = 0
    rw [h.stopped u late]

theorem Telling.step {m : Move} (h : Telling s) (hstep : s.step m = some t) : Telling t := by
  rcases step_moves hstep with rfl | moves
  · exact h
  cases moves with
  | aside gate hands spoken heard running stops =>
    constructor
    · rw [gate, hands]
      exact h.active
    · intro c
      rw [heardOf, spokenBy, heard, spoken, hands]
      exact h.told c
    · intro accepting c
      rw [heardOf, spokenBy, heard, spoken, hands]
      exact h.whole (gate ▸ accepting) c
    · rw [hands]
      exact h.mine
    · rw [spokenBy, spoken]
      exact h.exits
    · rw [spokenBy, spoken, running]
      exact h.alive
    · intro u late
      rw [gate]
      exact h.shut u (stops u late ▸ late)
    · intro u late
      rw [gate]
      exact h.stopped u (stops u (.inr late) ▸ late)
  | disabled gate hands spoken heard running stops =>
    constructor
    · rw [gate, hands]
      exact h.active
    · intro c
      rw [heardOf, spokenBy, heard, spoken, hands]
      exact h.told c
    · intro accepting
      rw [gate] at accepting
      cases accepting
    · rw [hands]
      exact h.mine
    · rw [spokenBy, spoken]
      exact h.exits
    · rw [spokenBy, spoken, running]
      exact h.alive
    · intro u _
      rw [gate]
      rfl
    · intro u late
      rw [gate]
      exact h.stopped u (stops u late ▸ late)
  | done thread shut idle next =>
    subst next
    refine { h with shut := fun u late => ?_, stopped := fun _ _ => idle }
    by_cases hu : u = thread
    · exact h.shut thread (.inl shut)
    · simp only [setStop, Function.update_of_ne hu] at late
      exact h.shut u late
  | read word pipe mine empty next =>
    subst next
    exact h.speak mine empty (by rintro ⟨⟩)
  | closed pipe empty next =>
    subst next
    refine h.hold ?_ ?_ (fun _ => ?_) ?_
    · rw [empty]; rfl
    · rw [empty]; rfl
    · rw [empty]; rfl
    · intro word hmem
      cases hmem
  | exits code running empty next =>
    subst next
    exact h.lower.speak rfl empty fun _ => ⟨h.alive running, rfl⟩
  | lowers running deaf next =>
    subst next
    exact h.lower
  | enters caller word ready accepting next =>
    subst next
    exact h.enter ready accepting
  | turned caller word ready refusing next =>
    subst next
    have blank : (rest caller).due = [] ∧ (rest caller).next = [] ∧ (rest caller).busy = false := by
      cases caller <;> exact ⟨rfl, rfl, rfl⟩
    refine h.hold ?_ ?_ (fun accepting => ?_) ?_
    · rw [blank.2.2, ready]; rfl
    · rw [blank.1, ready]; rfl
    · rw [refusing] at accepting
      cases accepting
    · rw [blank.2.1]
      intro word hmem
      cases hmem
  | hears caller word inside next =>
    subst next
    exact h.hear inside
  | leaves caller after next =>
    subst next
    exact h.leave after

abbrev Run (s : Process) : Prop := machine.Reach (fun _ _ => True) s

theorem telling (run : Run s) : Telling s := by
  apply run.invariant
  · rintro _ ⟨onLine, onStderr, onExit, rfl⟩
    exact .start onLine onStderr onExit
  · intro s m t _ ih _ hstep
    exact ih.step hstep

theorem mem_callers (caller : Caller) : caller ∈ callers := by
  cases caller with
  | pump pipe => cases pipe <;> decide
  | reaper => decide

/-- Where the gate counts nobody, no callback is running. -/
theorem Telling.idle (h : Telling s) (idle : s.gate.active = 0) (c : Caller) :
    (s.hands c).busy = false := by
  have none := h.active.symm.trans idle
  rw [calls, List.countP_eq_zero] at none
  simpa using none c (mem_callers c)

/-- Nothing is heard of a child whose gate is shut and counts nobody, and so it stays. -/
theorem Telling.mute {m : Move} (h : Telling s) (refusing : s.gate.accepting = false)
    (idle : s.gate.active = 0) (hstep : s.step m = some t) :
    t.gate.accepting = false ∧ t.gate.active = 0 ∧ t.heard = s.heard := by
  rcases step_moves hstep with rfl | moves
  · exact ⟨refusing, idle, rfl⟩
  cases moves with
  | aside gate _ _ heard => exact ⟨gate ▸ refusing, gate ▸ idle, heard⟩
  | disabled gate _ _ heard => exact ⟨gate ▸ rfl, gate ▸ idle, heard⟩
  | done _ _ _ next | read _ _ _ _ next | closed _ _ next | exits _ _ _ next | lowers _ _ next
  | turned _ _ _ _ next =>
    subst next
    exact ⟨refusing, idle, rfl⟩
  | enters _ _ _ accepting =>
    rw [refusing] at accepting
    cases accepting
  | hears caller _ inside =>
    have busy := h.idle idle caller
    rw [inside] at busy
    cases busy
  | leaves caller after =>
    have busy := h.idle idle caller
    rw [after] at busy
    cases busy

theorem Telling.mute_exec {moves : List Move} (h : Telling s) (refusing : s.gate.accepting = false)
    (idle : s.gate.active = 0) (hexec : machine.exec s moves = some t) : t.heard = s.heard := by
  induction moves generalizing s with
  | nil => exact congrArg heard (Option.some.inj hexec).symm
  | cons m moves ih =>
    obtain ⟨u, hstep, hrest⟩ := Option.bind_eq_some_iff.mp hexec
    obtain ⟨still, none, same⟩ := h.mute refusing idle hstep
    exact (ih (h.step hstep) still none hrest).trans same

/-- What is heard of a pipe is the beginning of what it said, and all of it but the line in hand
while the gate stands open; the exit is heard at most once; and once `stop` has returned to any
thread, no callback is running and none ever runs again, whatever else happens. -/
theorem silent_once_stopped (run : Run s) :
    (∀ c, s.heardOf c <+: s.spokenBy c) ∧
    (s.gate.accepting = true →
      ∀ c, s.spokenBy c = s.heardOf c ++ (s.hands c).due ++ (s.hands c).next) ∧
    (s.heardOf .reaper).length ≤ 1 ∧
    ∀ thread, s.stops thread = .stopped → (∀ c, (s.hands c).busy = false) ∧
      ∀ moves t, machine.exec s moves = some t → t.heard = s.heard := by
  have h := telling run
  have told (c : Caller) : s.heardOf c <+: s.spokenBy c := (List.prefix_append ..).trans (h.told c)
  refine ⟨told, fun accepting c => (h.whole accepting c).symm, ?_, fun thread stopped => ?_⟩
  · exact (told .reaper).length_le.trans h.exits
  · have idle := h.stopped thread stopped
    have refusing := h.shut thread (.inr stopped)
    exact ⟨h.idle idle, fun moves t hexec => h.mute_exec refusing idle hexec⟩

/-- A callback is running when the child is stopped; its exit comes while the gate is shut. -/
theorem silent_once_stopped_late : ∃ s : Process, s.stops 0 = .stopped ∧
    s.heard = [.line .stdout "hello"] ∧ (∀ c, (s.hands c).busy = false) ∧
    (s.heardOf .reaper).length ≤ 1 ∧
    ∀ moves t, machine.exec s moves = some t → t.heard = s.heard := by
  have run : ∃ s, machine.exec (start true true true) [.read .stdout "hello\r", .enter (.pump .stdout),
      .stop 0, .signal 0, .kill 0, .settle 0, .shut 0, .exit 1, .enter .reaper, .hear (.pump .stdout),
      .leave (.pump .stdout), .done 0] = some s ∧
      s.stops 0 = .stopped ∧ s.heard = [.line .stdout "hello"] :=
    ⟨_, Option.eq_some_of_isSome (by decide +kernel), by decide +kernel, by decide +kernel⟩
  obtain ⟨s, hs, stopped, heard⟩ := run
  have begins : Run (start true true true) := .init ⟨true, true, true, rfl⟩
  have reach : Run s := begins.exec (Lib.Machine.along_of_forall (fun _ _ => True.intro) _ _) hs
  obtain ⟨-, -, once, silent⟩ := silent_once_stopped reach
  exact ⟨s, stopped, heard, (silent 0 stopped).1, once, (silent 0 stopped).2⟩

end
end SiliconOmni.Process
