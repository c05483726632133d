import SiliconOmni.Daemon.Lifecycle

/-! The gates go again: what is left of them when the operations on a session are done. -/
namespace SiliconOmni.Daemon

/-- The gate a thread has unlocked and still refers to. -/
def Pc.unlocked : Pc → Option ℕ
  | left g _ => some g
  | _ => none

/-- A thread that holds a clone waits or works, or it has given the gate up. -/
theorem Pc.clone_cases {pc : Pc} {g : ℕ} (h : pc.clone = some g) :
    (∃ name, pc.claim = some (name, g)) ∨ pc.owned = some g ∨ pc.unlocked = some g := by
  cases pc with
  | waiting name k op => exact .inl ⟨name, by cases h; rfl⟩
  | inside name k op st => exact .inl ⟨name, by cases h; rfl⟩
  | leaving k op => exact .inr (.inl h)
  | left k op => exact .inr (.inr h)
  | _ => cases h

namespace Registry
variable {s s' : Registry} {t u name g : ℕ}

/-- No thread counts the references to its gate while another has unlocked the gate and not dropped
its own, unless a third is still to work by it. -/
def Prompt (s : Registry) : Act → Prop
  | .reclaim t => match s.pc t with
      | .inside _ g _ _ =>
          (∃ u ∈ s.clones g, u ≠ t ∧ (s.pc u).claim.isSome) ∨
            ∀ u ∈ s.clones g, (s.pc u).unlocked = none
      | _ => True
  | _ => True

instance (s : Registry) : (act : Act) → Decidable (s.Prompt act)
  | .reclaim t => match h : s.pc t with
      | .inside _ g _ _ =>
          decidable_of_iff ((∃ u ∈ s.clones g, u ≠ t ∧ (s.pc u).claim.isSome) ∨
            ∀ u ∈ s.clones g, (s.pc u).unlocked = none) (by simp [Prompt, h])
      | .idle | .waiting .. | .leaving .. | .left .. | .reaping .. | .forgetting .. | .closing
      | .putting _ | .shutting .. | .joining .. => .isTrue (by simp [Prompt, h])
  | .call .. | .reap .. | .next .. | .enter _ | .go .. | .unlock _ | .drop _ | .forget ..
  | .visit .. | .detach .. | .shutdown _ | .take _ | .put .. | .swap _ | .join _ | .finish _
  | .close _ | .tick | .stir .. | .halt _ | .exit _ => .isTrue trivial

/-- Each gate in the map is there for one session, on which a thread waits or works. -/
structure Wanted (s : Registry) : Prop where
  one : ∀ name name' g, s.gates name = some g → s.gates name' = some g → name = name'
  claimed : ∀ name g, s.gates name = some g → ∃ t, (s.pc t).claim = some (name, g)

theorem Wanted.init : Wanted {} := by
  constructor
  · rintro _ _ _ ⟨⟩
  · rintro _ _ ⟨⟩

theorem Wanted.congr (h : Wanted s) (gates : s'.gates = s.gates)
    (claim : ∀ u, (s'.pc u).claim = (s.pc u).claim) : Wanted s' := by
  constructor
  · rw [gates]
    exact h.one
  · intro name g hg
    obtain ⟨t, ht⟩ := h.claimed name g (gates ▸ hg)
    exact ⟨t, (claim t).trans ht⟩

theorem setPc_claim {pc : Pc} (h : pc.claim = (s.pc t).claim) (u : ℕ) :
    ((s.setPc t pc).pc u).claim = (s.pc u).claim := by
  by_cases hu : u = t
  · subst hu
    simpa [setPc] using h
  · simp [setPc, hu]

/-- What a step does to the gate map: nothing, or a thread asks for a gate, or it leaves one. -/
theorem step_gates {act : Act} (h : s.step act = some s') :
    (s'.gates = s.gates ∧ ∀ u, (s'.pc u).claim = (s.pc u).claim) ∨
      (∃ t name op, (s.pc t).claim = none ∧ s' = s.gate t name op) ∨
      ∃ t name g op, act = .reclaim t ∧ s.pc t = .inside name g op .done ∧
        s' = { s with
          gates := if s.last name g then Function.update s.gates name none else s.gates }.setPc t
            (.leaving g op) := by
  have moved {r : Registry} {pc : Pc} {t : ℕ} (hr : r.gates = s.gates) (hpc : r.pc = s.pc)
      (hclaim : pc.claim = (s.pc t).claim) :
      (r.setPc t pc).gates = s.gates ∧ ∀ u, ((r.setPc t pc).pc u).claim = (s.pc u).claim := by
    refine ⟨hr, fun u => ?_⟩
    rw [setPc_claim (hclaim.trans (by rw [hpc])), hpc]
  cases act with
  | call t name op =>
    simp only [step] at h
    split_ifs at h with hif
    cases h
    exact .inr (.inl ⟨t, name, op, by rw [hif.1]; rfl, rfl⟩)
  | next t name =>
    simp only [step] at h
    split at h
    · rename_i ht
      split_ifs at h
      cases h
      exact .inr (.inl ⟨t, name, _, by rw [ht]; rfl, rfl⟩)
    · cases h
  | reclaim t =>
    simp only [step] at h
    split at h
    · rename_i ht
      cases h
      exact .inr (.inr ⟨t, _, _, _, rfl, ht, rfl⟩)
    · cases h
  | go t ok =>
    simp only [step] at h
    split at h
    · rename_i ht
      obtain ⟨⟨r, st'⟩, hbody, rfl⟩ := Option.map_eq_some_iff.mp h
      have hframe := body_frame hbody
      exact .inl (moved (by rw [hframe]) (by rw [hframe]) (by rw [ht]; rfl))
    · cases h
  | reap t grace =>
    simp only [step] at h
    split_ifs at h with hif
    cases h
    exact .inl (moved rfl rfl (by rw [hif.1]; rfl))
  | forget t conn =>
    simp only [step] at h
    split_ifs at h with hif
    cases h
    exact .inl (moved rfl rfl (by rw [hif.1]; rfl))
  | shutdown t =>
    simp only [step] at h
    split_ifs at h with hif
    cases h
    exact .inl (moved rfl rfl (by rw [hif]; rfl))
  | take t =>
    simp only [step] at h
    split_ifs at h with hif
    cases h
    exact .inl (moved rfl rfl (by rw [hif.1]; rfl))
  | detach conn live =>
    simp only [step] at h
    split_ifs at h
    cases h
    exact .inl ⟨rfl, fun _ => rfl⟩
  | close | tick | stir | halt | exit =>
    cases h
    exact .inl ⟨rfl, fun _ => rfl⟩
  | drop t =>
    simp only [step] at h
    split at h
    · rename_i ht
      cases h
      exact .inl (moved rfl rfl (by rw [ht, home_claim]; rfl))
    · cases h
  | enter t | unlock t | visit t live | put t live | swap t | join t | finish t =>
    simp only [step] at h
    repeat' split at h
    all_goals cases h
    all_goals exact .inl (moved rfl rfl (by simp [*, Pc.claim]))

/-- A thread that asks for a gate waits for the one of its session. -/
theorem gate_claim (s : Registry) (t name : ℕ) (op : Op) :
    ∃ g, (s.gate t name op).gates = Function.update s.gates name (some g) ∧
      (s.gates name = some g ∨ s.gates name = none ∧ g = s.gatesMade) ∧
      (s.gate t name op).pc = Function.update s.pc t (.waiting name g op) := by
  unfold gate
  split
  · rename_i g hg
    exact ⟨g, by rw [← hg, Function.update_eq_self]; rfl, .inl hg, rfl⟩
  · rename_i hg
    exact ⟨_, rfl, .inr ⟨hg, rfl⟩, rfl⟩

theorem Wanted.gate {op : Op} (h : Wanted s) (gates : Gates s) (ht : (s.pc t).claim = none) :
    Wanted (s.gate t name op) := by
  obtain ⟨g, hgates, hg, hpc⟩ := gate_claim s t name op
  have only : ∀ name' k, s.gates name' = some k → k = g → name' = name := by
    rintro name' k hk rfl
    rcases hg with hg | ⟨_, rfl⟩
    · exact h.one name' name k hk hg
    · exact absurd (gates.known name' _ hk) (Nat.lt_irrefl _)
  constructor
  · intro a b k ha hb
    rw [hgates] at ha hb
    by_cases haname : a = name <;> by_cases hbname : b = name
    · rw [haname, hbname]
    · subst haname
      rw [Function.update_self] at ha
      rw [Function.update_of_ne hbname] at hb
      exact absurd (only b k hb (Option.some.inj ha).symm) hbname
    · subst hbname
      rw [Function.update_self] at hb
      rw [Function.update_of_ne haname] at ha
      exact absurd (only a k ha (Option.some.inj hb).symm) haname
    · rw [Function.update_of_ne haname] at ha
      rw [Function.update_of_ne hbname] at hb
      exact h.one a b k ha hb
  · intro a k ha
    rw [hgates] at ha
    rw [hpc]
    by_cases haname : a = name
    · subst haname
      rw [Function.update_self] at ha
      exact ⟨t, by rw [Function.update_self, ← Option.some.inj ha]; rfl⟩
    · rw [Function.update_of_ne haname] at ha
      obtain ⟨u, hu⟩ := h.claimed a k ha
      have hut : u ≠ t := by
        rintro rfl
        rw [ht] at hu
        cases hu
      exact ⟨u, by rw [Function.update_of_ne hut]; exact hu⟩

/-- A thread that finds more references to its gate than its own leaves behind one who works on
the session, unless those have given the gate up. -/
theorem Wanted.reclaim {op : Op} (h : Wanted s) (gates : Gates s)
    (ht : s.pc t = .inside name g op .done) (prompt : s.Prompt (.reclaim t)) :
    Wanted ({ s with
      gates := if s.last name g then Function.update s.gates name none else s.gates }.setPc t
        (.leaving g op)) := by
  have hclone : (s.pc t).clone = some g := by rw [ht]; rfl
  have hgate : s.gates name = some g := gates.current t name g (by rw [ht]; rfl)
  have howner : s.owner g = some t := gates.owner t g (by rw [ht]; rfl)
  -- what is in the map afterwards was there before, and another thread claims it
  have kept : ∀ a k, (if s.last name g then Function.update s.gates name none else s.gates) a = some k →
      s.gates a = some k ∧ ∃ u, u ≠ t ∧ (s.pc u).claim = some (a, k) := by
    intro a k ha
    have hold : s.gates a = some k := by
      split_ifs at ha with hlast
      · by_cases haname : a = name
        · subst haname
          simp at ha
        · rwa [Function.update_of_ne haname] at ha
      · exact ha
    refine ⟨hold, ?_⟩
    obtain ⟨u, hu⟩ := h.claimed a k hold
    by_cases hut : u = t
    · subst hut
      have hclaim : (s.pc u).claim = some (name, g) := by rw [ht]; rfl
      obtain ⟨rfl, rfl⟩ := Prod.mk.inj (Option.some.inj (hclaim.symm.trans hu))
      have hmem : u ∈ s.clones g := (gates.clones u g).mpr hclone
      have hmore : s.clones g ≠ [u] := by
        intro hone
        have hlast : s.last name g = true := by simp [last, hgate, hone]
        rw [if_pos hlast, Function.update_self] at ha
        cases ha
      obtain ⟨v, hv, hvu⟩ : ∃ v ∈ s.clones g, v ≠ u := by
        rcases ((gates.nodup g).ne_singleton_iff u).mp hmore with hnil | hother
        · exact absurd hmem (hnil ▸ List.not_mem_nil)
        · exact hother
      have claims : ∀ w ∈ s.clones g, ∀ b, (s.pc w).claim = some b → b = (name, g) := by
        rintro w hw ⟨name', k⟩ hb
        have hk : k = g := Option.some.inj ((Pc.clone_of_claim hb).symm.trans ((gates.clones w g).mp hw))
        subst hk
        rw [h.one name' name k (gates.current w name' k hb) hgate]
      have hprompt : (∃ w ∈ s.clones g, w ≠ u ∧ (s.pc w).claim.isSome) ∨
          ∀ w ∈ s.clones g, (s.pc w).unlocked = none := by
        simpa only [Prompt, ht] using prompt
      rcases hprompt with ⟨w, hw, hwu, hclaims⟩ | hnone
      · obtain ⟨b, hb⟩ := Option.isSome_iff_exists.mp hclaims
        exact ⟨w, hwu, claims w hw b hb ▸ hb⟩
      · rcases Pc.clone_cases ((gates.clones v g).mp hv) with ⟨name', hclaimed⟩ | howned | hunlocked
        · exact ⟨v, hvu, claims v hv _ hclaimed ▸ hclaimed⟩
        · exact absurd (Option.some.inj ((gates.owner v g howned).symm.trans howner)) hvu
        · rw [hnone v hv] at hunlocked
          cases hunlocked
    · exact ⟨u, hut, hu⟩
  constructor
  · intro a b k ha hb
    exact h.one a b k (kept a k ha).1 (kept b k hb).1
  · intro a k ha
    obtain ⟨u, hut, hu⟩ := (kept a k ha).2
    exact ⟨u, by simpa [setPc, hut] using hu⟩

theorem reach_wanted (h : machine.Reach Prompt s) : Wanted s := by
  refine h.invariant ?_ ?_
  · rintro _ rfl
    exact Wanted.init
  · intro r act r' hreach hinv prompt hstep
    have gates : Gates r := reach_gates (hreach.mono fun _ _ _ => trivial)
    rcases step_gates hstep with ⟨hgates, hclaim⟩ | ⟨t, name, op, ht, rfl⟩ | ⟨t, name, g, op, rfl, ht, rfl⟩
    · exact hinv.congr hgates hclaim
    · exact hinv.gate gates ht
    · exact hinv.reclaim gates ht prompt

/-- Once no thread waits for a session or works on it, its gate is gone. -/
theorem gates_reclaimed (h : machine.Reach Prompt s)
    (returned : ∀ t g, (s.pc t).claim ≠ some (name, g)) : s.gates name = none := by
  by_contra hsome
  obtain ⟨g, hg⟩ := Option.ne_none_iff_exists'.mp hsome
  obtain ⟨t, ht⟩ := (reach_wanted h).claimed name g hg
  exact returned t g ht

/-- A send waits while another one is under way; both return, and the gate is gone. -/
theorem gates_reclaimed_two :
    ∃ s : Registry, (∀ t, s.pc t = .idle) ∧ s.gatesMade = 1 ∧ s.gates 7 = none := by
  let moves : List Act :=
    [.call 0 7 .send, .call 1 7 .send, .enter 0, .go 0 true, .reclaim 0, .unlock 0, .enter 1,
      .go 1 true, .drop 0, .reclaim 1, .unlock 1, .drop 1]
  have run : ∃ s, machine.exec {} moves = some s ∧ s.gatesMade = 1 ∧ ∀ t < 2, s.pc t = .idle :=
    ⟨_, Option.eq_some_of_isSome (by decide +kernel), by decide +kernel, by decide +kernel⟩
  obtain ⟨s, hrun, hmade, hpc⟩ := run
  have idle (t : ℕ) : s.pc t = .idle := by
    by_cases ht : t < 2
    · exact hpc t ht
    · rw [exec_pc_of_lt hrun (by decide) ht]
  have along : machine.Along Prompt {} moves := by decide +kernel
  refine ⟨s, idle, hmade, gates_reclaimed ((Lib.Machine.Reach.init rfl).exec along hrun) ?_⟩
  intro t g
  rw [idle t]
  rintro ⟨⟩

/-- The first of two sends has unlocked the gate but not dropped its reference when the second
counts them: both return, and the gate stays. -/
theorem gate_left_behind :
    ∃ s : Registry, machine.Reach (fun _ _ => True) s ∧ (∀ t, s.pc t = .idle) ∧
      s.gates 7 ≠ none := by
  let moves : List Act :=
    [.call 0 7 .send, .call 1 7 .send, .enter 0, .go 0 true, .reclaim 0, .unlock 0, .enter 1,
      .go 1 true, .reclaim 1, .unlock 1, .drop 0, .drop 1]
  have run : ∃ s, machine.exec {} moves = some s ∧ s.gates 7 ≠ none ∧ ∀ t < 2, s.pc t = .idle :=
    ⟨_, Option.eq_some_of_isSome (by decide +kernel), by decide +kernel, by decide +kernel⟩
  obtain ⟨s, hrun, hgate, hpc⟩ := run
  have along := Lib.Machine.along_of_forall (M := machine) (fun _ _ => trivial) {} moves
  refine ⟨s, (Lib.Machine.Reach.init rfl).exec along hrun, fun t => ?_, hgate⟩
  by_cases ht : t < 2
  · exact hpc t ht
  · rw [exec_pc_of_lt hrun (by decide) ht]

end Registry
end SiliconOmni.Daemon
