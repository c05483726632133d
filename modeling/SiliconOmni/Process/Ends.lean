import SiliconOmni.Process.Child

/-! How a child ends: nobody lets it go before it is gone, and its end is told to whoever did not
stop it. -/
namespace SiliconOmni.Process

section
variable {s t : Process} {caller : Caller} {hand : Hand} {thread : ℕ}

/-- A thread lets a child go only when it has ended or was killed, and while a child with a
listener runs nobody has been told of an exit. -/
structure Served (s : Process) : Prop where
  slain : ∀ u, s.stops u = .slain → s.killed = true
  gone : ∀ u, s.stops u = .released ∨ s.stops u = .shut ∨ s.stops u = .stopped →
    s.running = false ∨ s.killed = true
  awake : s.running = true → s.hands .reaper = .empty

theorem Served.start (onLine onStderr : Bool) : Served (start onLine onStderr true) where
  slain u h := by cases h
  gone u h := by rcases h with h | h | h <;> cases h
  awake _ := rfl

/-- A thread that stops the child goes on to another stage. -/
theorem Served.setStop {stop : Stopper} (h : Served s) (slain : stop = .slain → s.killed = true)
    (gone : stop = .released ∨ stop = .shut ∨ stop = .stopped →
      s.running = false ∨ s.killed = true) : Served (s.setStop thread stop) where
  slain u hu := by
    by_cases hthread : u = thread
    · subst hthread
      simp only [Process.setStop, Function.update_self] at hu
      exact slain hu
    · simp only [Process.setStop, Function.update_of_ne hthread] at hu
      exact h.slain u hu
  gone u hu := by
    by_cases hthread : u = thread
    · subst hthread
      simp only [Process.setStop, Function.update_self] at hu
      exact gone hu
    · simp only [Process.setStop, Function.update_of_ne hthread] at hu
      exact h.gone u hu
  awake := h.awake

/-- A thread that calls back goes on. -/
theorem Served.setHand (h : Served s) (busy : s.hands caller ≠ .empty ∨ caller ≠ .reaper) :
    Served (s.setHand caller hand) where
  slain := h.slain
  gone := h.gone
  awake running := by
    have empty := h.awake running
    by_cases hc : Caller.reaper = caller
    · subst hc
      rcases busy with busy | busy
      · exact absurd empty busy
      · exact absurd rfl busy
    · rw [setHand_other hc]
      exact empty

theorem Served.stopping {m : Move} (h : Served s) (hstep : s.stopping thread m = some t) :
    Served t := by
  cases m with
  | stop =>
    simp only [Process.stopping] at hstep
    split at hstep
    · cases hstep
      exact { h.setStop (by simp) (by simp) with }
    · cases hstep
      exact { h.setStop (by simp) (by simp) with }
    · cases hstep
  | signal =>
    simp only [Process.stopping] at hstep
    split_ifs at hstep
    cases hstep
    exact h.setStop (by simp) (by simp)
  | kill =>
    simp only [Process.stopping] at hstep
    split_ifs at hstep
    cases hstep
    have slain : Served { s with killed := true } :=
      { slain := fun _ _ => rfl, gone := fun _ _ => .inr rfl, awake := h.awake }
    exact slain.setStop (fun _ => rfl) (by simp)
  | settle =>
    simp only [Process.stopping] at hstep
    split at hstep
    · split_ifs at hstep with running
      cases hstep
      exact { h.setStop (by simp) (fun _ => .inl (by simpa using running)) with }
    · split_ifs at hstep with running
      cases hstep
      exact { h.setStop (by simp) (fun _ => .inl (by simpa using running)) with }
    · rename_i slain
      cases hstep
      exact { h.setStop (by simp) (fun _ => .inr (h.slain thread slain)) with }
    · cases hstep
  | shut =>
    simp only [Process.stopping] at hstep
    split_ifs at hstep with released
    cases hstep
    exact { h.setStop (by simp) (fun _ => h.gone thread (.inl released)) with }
  | done =>
    simp only [Process.stopping] at hstep
    split_ifs at hstep with shut
    cases hstep
    exact h.setStop (by simp) (fun _ => h.gone thread (.inr (.inl shut.1)))
  | _ => cases hstep

theorem Served.step {m : Move} (h : Served s) (hstep : s.step m = some t) : Served t := by
  cases m with
  | read pipe line =>
    simp only [Process.step, read] at hstep
    split_ifs at hstep
    · cases hstep
      exact h
    · cases hstep
      have kept : Served (s.setHand (.pump pipe) (.ready (.line pipe (tidy line)))) :=
        h.setHand (.inr (by simp))
      exact { kept with }
  | close pipe =>
    simp only [Process.step] at hstep
    split_ifs at hstep
    cases hstep
    exact h.setHand (.inr (by simp))
  | exit code =>
    simp only [Process.step, exit] at hstep
    split_ifs at hstep
    · cases hstep
      exact { slain := h.slain, gone := fun _ _ => .inl rfl, awake := by rintro ⟨⟩ }
    · cases hstep
      exact { slain := h.slain, gone := fun _ _ => .inl rfl, awake := by rintro ⟨⟩ }
  | enter caller =>
    simp only [Process.step, enter] at hstep
    split at hstep
    · rename_i word ready
      have busy : s.hands caller ≠ .empty := by simp [ready]
      split at hstep
      · cases hstep
        exact { h.setHand (.inl busy) with }
      · cases hstep
        exact h.setHand (.inl busy)
    · cases hstep
  | hear caller =>
    simp only [Process.step, hear] at hstep
    split at hstep
    · rename_i word inside
      cases hstep
      exact { h.setHand (.inl (by simp [inside])) with }
    · cases hstep
  | leave caller =>
    simp only [Process.step, leave] at hstep
    split at hstep
    · rename_i after
      cases hstep
      exact { h.setHand (.inl (by simp [after])) with }
    · cases hstep
  | send text taken =>
    simp only [Process.step, sendLine, Option.some.injEq] at hstep
    subst hstep
    split_ifs <;> exact { slain := h.slain, gone := h.gone, awake := h.awake }
  | drop =>
    cases hstep
    refine { slain := fun u hu => ?_, gone := fun u hu => ?_, awake := h.awake }
    · simp [Process.drop, h.slain u hu]
    · exact (h.gone u hu).imp_right fun killed => by simp [Process.drop, killed]
  | stop | signal | kill | settle | shut | done =>
    rw [Process.step] at hstep
    exact h.stopping hstep

theorem stopping_lasts {m : Move} (hstep : s.stopping thread m = some t) :
    t.running = s.running ∧ (s.killed = true → t.killed = true) := by
  cases m with
  | stop =>
    simp only [stopping] at hstep
    split at hstep <;> cases hstep <;> exact ⟨rfl, id⟩
  | settle =>
    simp only [stopping] at hstep
    split at hstep
    · split_ifs at hstep
      cases hstep
      exact ⟨rfl, id⟩
    · split_ifs at hstep
      cases hstep
      exact ⟨rfl, id⟩
    · cases hstep
      exact ⟨rfl, id⟩
    · cases hstep
  | signal | shut | done =>
    simp only [stopping] at hstep
    split_ifs at hstep
    cases hstep
    exact ⟨rfl, id⟩
  | kill =>
    simp only [stopping] at hstep
    split_ifs at hstep
    cases hstep
    exact ⟨rfl, fun _ => rfl⟩
  | _ => cases hstep

/-- Whether it runs, or the callback that tells of its end is still to run. -/
def pending (s : Process) : Bool :=
  s.running || !((s.hands .reaper).next ++ (s.hands .reaper).due).isEmpty

/-- The moves of the child itself and of the threads that call back. -/
def Move.own : Move → Bool
  | .read .. | .close _ | .exit _ | .enter _ | .hear _ | .leave _ => true
  | _ => false

/-- Nobody has begun to stop the child. -/
structure Untouched (s : Process) : Prop where
  accepting : s.gate.accepting = true
  spared : s.killed = false
  left : ∀ u, s.stops u = .away

theorem Untouched.start (onLine onStderr onExit : Bool) :
    Untouched (start onLine onStderr onExit) := ⟨rfl, rfl, fun _ => rfl⟩

/-- By itself a child touches neither the gate's flag nor the threads that stop it, and it does not
come back. -/
theorem step_own {m : Move} (own : m.own = true) (hstep : s.step m = some t) :
    t.gate.accepting = s.gate.accepting ∧ t.killed = s.killed ∧ t.stops = s.stops ∧
      (t.running = true → s.running = true) := by
  cases m with
  | read =>
    simp only [step, read] at hstep
    split_ifs at hstep <;> cases hstep <;> exact ⟨rfl, rfl, rfl, id⟩
  | close =>
    simp only [step] at hstep
    split_ifs at hstep
    cases hstep
    exact ⟨rfl, rfl, rfl, id⟩
  | exit =>
    simp only [step, exit] at hstep
    split_ifs at hstep <;> cases hstep <;> exact ⟨rfl, rfl, rfl, by rintro ⟨⟩⟩
  | enter =>
    simp only [step, enter, CallbackGate.enter] at hstep
    split at hstep
    · split at hstep
      · rename_i gate hgate
        cases hstep
        split_ifs at hgate
        cases hgate
        exact ⟨rfl, rfl, rfl, id⟩
      · cases hstep
        exact ⟨rfl, rfl, rfl, id⟩
    · cases hstep
  | hear =>
    simp only [step, hear] at hstep
    split at hstep <;> cases hstep
    exact ⟨rfl, rfl, rfl, id⟩
  | leave =>
    simp only [step, leave] at hstep
    split at hstep <;> cases hstep
    exact ⟨rfl, rfl, rfl, id⟩
  | _ => cases own

/-- A child that has ended stays so, as does one that was killed. -/
theorem step_lasts {m : Move} (hstep : s.step m = some t) :
    (t.running = true → s.running = true) ∧ (s.killed = true → t.killed = true) := by
  cases m with
  | stop | signal | kill | settle | shut | done =>
    rw [step] at hstep
    obtain ⟨running, killed⟩ := stopping_lasts hstep
    exact ⟨fun h => running ▸ h, killed⟩
  | send text taken =>
    simp only [step, sendLine, Option.some.injEq] at hstep
    subst hstep
    split_ifs <;> exact ⟨id, id⟩
  | drop =>
    cases hstep
    exact ⟨id, fun killed => by simp [Process.drop, killed]⟩
  | _ =>
    obtain ⟨-, killed, -, running⟩ := step_own rfl hstep
    exact ⟨running, fun h => killed.trans h⟩

/-- Whether nothing is left of the child, as far as its owner could see to it. -/
def Gone (s : Process) : Prop := s.running = false ∨ s.killed = true

theorem Gone.step {m : Move} (h : Gone s) (hstep : s.step m = some t) : Gone t := by
  obtain ⟨running, killed⟩ := step_lasts hstep
  rcases h with h | h
  · left
    cases now : t.running with
    | false => rfl
    | true => exact absurd (running now) (by simp [h])
  · exact .inr (killed h)

theorem Untouched.own {m : Move} (h : Untouched s) (own : m.own = true)
    (hstep : s.step m = some t) : Untouched t := by
  obtain ⟨accepting, killed, stops, -⟩ := step_own own hstep
  exact ⟨accepting ▸ h.accepting, killed ▸ h.spared, stops ▸ h.left⟩

/-- The end of an untouched child is pending until its callback has run. -/
theorem Untouched.pending {m : Move} (h : Untouched s) (served : Served s)
    (pending : s.pending = true) (own : m.own = true) (unheard : m ≠ .hear .reaper)
    (hstep : s.step m = some t) : t.pending = true := by
  cases m with
  | read =>
    simp only [step, read] at hstep
    split_ifs at hstep <;> cases hstep
    · exact pending
    · simpa [Process.pending, setHand] using pending
  | close =>
    simp only [step] at hstep
    split_ifs at hstep
    cases hstep
    simpa [Process.pending, setHand] using pending
  | exit =>
    simp only [step, exit] at hstep
    split_ifs at hstep with running empty
    · cases hstep
      simp [Process.pending, Hand.next]
    · exact absurd (served.awake running) empty
  | enter caller =>
    simp only [step, enter, CallbackGate.enter, h.accepting, if_true] at hstep
    split at hstep
    · cases hstep
      by_cases hc : caller = .reaper
      · subst hc
        simp [Process.pending, Hand.due]
      · simpa [Process.pending, setHand, Function.update_of_ne (Ne.symm hc)] using pending
    · cases hstep
  | hear caller =>
    have hc : caller ≠ .reaper := by
      rintro rfl
      exact unheard rfl
    simp only [step, hear] at hstep
    split at hstep <;> cases hstep
    simpa [Process.pending, setHand, Function.update_of_ne (Ne.symm hc)] using pending
  | leave caller =>
    simp only [step, leave] at hstep
    split at hstep
    · rename_i after
      cases hstep
      by_cases hc : caller = .reaper
      · subst hc
        have running : s.running = true := by
          simpa [Process.pending, after, Hand.next, Hand.due] using pending
        rw [served.awake running] at after
        cases after
      · simpa [Process.pending, setHand, Function.update_of_ne (Ne.symm hc)] using pending
    · cases hstep
  | _ => cases own

/-- A callback of the exit is heard only after the flag went down. -/
theorem Served.heard (h : Served s) (hstep : s.step (.hear .reaper) = some t) :
    s.running = false := by
  simp only [Process.step, hear] at hstep
  split at hstep
  · rename_i inside
    cases running : s.running with
    | false => rfl
    | true =>
      rw [h.awake running] at inside
      cases inside
  · cases hstep

/-- What a thread has stopped is gone. -/
theorem Served.done (h : Served s) (hstep : s.step (.done thread) = some t) : Gone t := by
  simp only [Process.step, Process.stopping] at hstep
  split_ifs at hstep with shut
  cases hstep
  exact h.gone thread (.inr (.inl shut.1))

end
end SiliconOmni.Process
