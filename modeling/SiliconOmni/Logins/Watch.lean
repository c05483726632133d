import SiliconOmni.Logins.Custody

/-! No login is forgotten, and none outlives a shutdown in flight. -/
namespace SiliconOmni.Logins

section
variable {s t : Logins} {thread token : ℕ} {pc : Pc} {login : Login} {proc : Process}

/-- What is in flight is alive, or somebody is about to find out; and it was begun in this epoch, or
somebody is about to drain it. -/
structure Watched (s : Logins) : Prop where
  seen : ∀ token login, s.child token = some login → s.Flying token →
    login.proc.pending = true ∨ ∃ t, (s.pc t).checks = some token
  epoch : ∀ token login, s.child token = some login → s.Flying token →
    login.epoch = s.loginEpoch ∨ ∃ t, s.pc t = .draining

theorem Watched.init : Watched {} := by
  constructor <;> simp [Flying]

theorem Watched.turn (h : Watched s) (child : t.child = s.child)
    (turned : t.pc = Function.update s.pc thread pc)
    (fewer : ∀ token, t.Flying token → s.Flying token) (epoch : t.loginEpoch = s.loginEpoch)
    (checks : ∀ token login, s.child token = some login → (s.pc thread).checks = some token →
      t.Flying token → login.proc.pending = true ∨ pc.checks = some token)
    (draining : s.pc thread = .draining → ∀ token, ¬ t.Flying token) : Watched t := by
  have self : t.pc thread = pc := by rw [turned, Function.update_self]
  have other {u : ℕ} (hu : u ≠ thread) : t.pc u = s.pc u := by rw [turned, Function.update_of_ne hu]
  constructor
  · intro token login hlogin flying
    rw [child] at hlogin
    rcases h.seen token login hlogin (fewer token flying) with pending | ⟨u, hu⟩
    · exact .inl pending
    · by_cases hthread : u = thread
      · subst hthread
        exact (checks token login hlogin hu flying).imp_right fun hchecks => ⟨u, self ▸ hchecks⟩
      · exact .inr ⟨u, (other hthread).symm ▸ hu⟩
  · intro token login hlogin flying
    rw [child] at hlogin
    rw [epoch]
    rcases h.epoch token login hlogin (fewer token flying) with current | ⟨u, hu⟩
    · exact .inl current
    · by_cases hthread : u = thread
      · subst hthread
        exact absurd flying (draining hu token)
      · exact .inr ⟨u, (other hthread).trans hu⟩

/-- A thread that looks after nobody and drains nothing goes on. -/
theorem Watched.onward (h : Watched s) (child : t.child = s.child)
    (turned : t.pc = Function.update s.pc thread pc)
    (fewer : ∀ token, t.Flying token → s.Flying token) (epoch : t.loginEpoch = s.loginEpoch)
    (checks : (s.pc thread).checks = none) (drains : s.pc thread ≠ .draining) : Watched t := by
  refine h.turn child turned fewer epoch ?_ fun draining => absurd draining drains
  intro token login _ hchecks
  rw [checks] at hchecks
  cases hchecks

/-- A child moves that is not in flight, or whose end is still to be told. -/
theorem Watched.child (h : Watched s) (child : s.child token = some login)
    (pending : s.Flying token → login.proc.pending = true → proc.pending = true) :
    Watched (s.setChild token { login with proc }) := by
  have self : (s.setChild token { login with proc }).child token = some { login with proc } :=
    Function.update_self ..
  have other {k : ℕ} (hk : k ≠ token) :
      (s.setChild token { login with proc }).child k = s.child k := Function.update_of_ne hk ..
  constructor
  · intro k found hfound flying
    by_cases hk : k = token
    · subst hk
      cases self.symm.trans hfound
      exact (h.seen k login child flying).imp_left (pending flying)
    · rw [other hk] at hfound
      exact h.seen k found hfound flying
  · intro k found hfound flying
    by_cases hk : k = token
    · subst hk
      cases self.symm.trans hfound
      exact h.epoch k login child flying
    · rw [other hk] at hfound
      exact h.epoch k found hfound flying

theorem fewer_of_sub (sub : ∀ entry ∈ t.inFlight, entry ∈ s.inFlight) (token : ℕ)
    (flying : t.Flying token) : s.Flying token := by
  obtain ⟨provider, hmem⟩ := flying
  exact ⟨provider, sub _ hmem⟩

/-- A child is started: nothing about it is in flight yet. -/
theorem Watched.spawns {call : Begin} {epoch : ℕ} (h : Watched s) (kept : Kept s)
    (unborn : s.child token = none) (naming : s.pc thread = .naming call epoch token) :
    Watched ((s.setChild token
      { proc := .start true true true, provider := call.provider, epoch }).setPc thread
        (.spawned call epoch token)) := by
  have apart {k : ℕ} (flying : s.Flying k) : k ≠ token := by
    rintro rfl
    obtain ⟨provider, hmem⟩ := flying
    obtain ⟨login, hlogin, -⟩ := kept.entry provider k hmem
    rw [unborn] at hlogin
    cases hlogin
  have before {k : ℕ} {found : Login} (flying : s.Flying k) (hfound : ((s.setChild token
      { proc := .start true true true, provider := call.provider, epoch }).setPc thread
        (.spawned call epoch token)).child k = some found) : s.child k = some found :=
    (Function.update_of_ne (apart flying) ..).symm.trans hfound
  have still {u : ℕ} (hu : s.pc u ≠ .naming call epoch token) :
      Function.update s.pc thread (.spawned call epoch token) u = s.pc u := by
    refine Function.update_of_ne ?_ ..
    rintro rfl
    exact hu naming
  constructor
  · intro k found hfound flying
    rcases h.seen k found (before flying hfound) flying with pending | ⟨u, hu⟩
    · exact .inl pending
    · refine .inr ⟨u, ?_⟩
      show (Function.update s.pc thread _ u).checks = some k
      rw [still]
      · exact hu
      · intro hpc
        rw [hpc] at hu
        cases hu
  · intro k found hfound flying
    rcases h.epoch k found (before flying hfound) flying with current | ⟨u, hu⟩
    · exact .inl current
    · refine .inr ⟨u, ?_⟩
      show Function.update s.pc thread _ u = .draining
      rw [still]
      · exact hu
      · rw [hu]
        rintro ⟨⟩

/-- A child is entered: the thread looks after it, and it is of this epoch. -/
theorem Watched.enters {call : Begin} {epoch : ℕ} (h : Watched s)
    (spawned : s.pc thread = .spawned call epoch token) (current : s.loginEpoch = epoch)
    (its : ∃ login, s.child token = some login ∧ login.epoch = epoch) :
    Watched { s.setPc thread (.entered call token (s.inFlight.lookup call.provider)) with
      inFlight := Entries.insert s.inFlight call.provider token
      reaper := true } := by
  have now {k : ℕ} (flying : ∃ provider, (provider, k) ∈ Entries.insert s.inFlight call.provider token) :
      k = token ∨ s.Flying k := by
    obtain ⟨provider, hmem⟩ := flying
    rcases Entries.mem_insert hmem with heq | hmem
    · exact .inl (congrArg Prod.snd heq)
    · exact .inr ⟨provider, hmem⟩
  constructor
  · intro k found hfound flying
    rcases now flying with rfl | flying
    · exact .inr ⟨thread, by simp [Logins.setPc, Pc.checks]⟩
    · rcases h.seen k found hfound flying with pending | ⟨u, hu⟩
      · exact .inl pending
      · have hthread : u ≠ thread := by
          rintro rfl
          rw [spawned] at hu
          cases hu
        refine .inr ⟨u, ?_⟩
        simpa only [Logins.setPc, Function.update_of_ne hthread] using hu
  · intro k found hfound flying
    rcases now flying with rfl | flying
    · obtain ⟨login, hlogin, hepoch⟩ := its
      cases hlogin.symm.trans hfound
      exact .inl (hepoch.trans current.symm)
    · rcases h.epoch k found hfound flying with same | ⟨u, hu⟩
      · exact .inl same
      · have hthread : u ≠ thread := by
          rintro rfl
          rw [spawned] at hu
          cases hu
        refine .inr ⟨u, ?_⟩
        simpa only [Logins.setPc, Function.update_of_ne hthread] using hu

theorem Watched.step (h : Watched s) (kept : Kept s) (named : Named s) (steps : Steps s t) :
    Watched t := by
  cases steps with
  | idle => exact h
  | own token login proc move child own unheard moves =>
    refine h.child child fun flying pending => ?_
    exact (kept.untouched child (.inl flying)).pending (kept.served token login child) pending own
      unheard moves
  | exited token login proc child moves =>
    have self : (s.setChild token { login with proc }).child token = some { login with proc } :=
      Function.update_self ..
    obtain ⟨-, sub, low, -⟩ := (kept.moves child rfl moves).taken self
    have before {k : ℕ} {found : Login}
        (flying : ((s.setChild token { login with proc }).take login.provider (some token)).2.Flying k)
        (hfound : ((s.setChild token { login with proc }).take login.provider
          (some token)).2.child k = some found) : s.Flying k ∧ s.child k = some found := by
      have hk : k ≠ token := by
        rintro rfl
        exact low flying
      rw [take_child] at hfound
      exact ⟨fewer_of_sub sub k flying, (Function.update_of_ne hk ..).symm.trans hfound⟩
    constructor
    · intro k found hfound flying
      rw [take_pc]
      exact h.seen k found (before flying hfound).2 (before flying hfound).1
    · intro k found hfound flying
      rw [take_pc, take_loginEpoch]
      exact h.epoch k found (before flying hfound).2 (before flying hfound).1
  | stops thread token tokens next login proc move stopping child its moves =>
    have mine := kept.own thread (by rw [stopping]; rfl)
      (by rw [stopping]; exact List.mem_cons_self)
    exact h.child child fun flying => absurd (.inl flying) mine
  | stopped thread token tokens next login proc stopping child moves =>
    have mine := kept.own thread (by rw [stopping]; rfl)
      (by rw [stopping]; exact List.mem_cons_self)
    have watched : Watched (s.setChild token { login with proc }) :=
      h.child child fun flying => absurd (.inl flying) mine
    have pc : (s.setChild token { login with proc }).pc thread = .stopping (token :: tokens) next :=
      stopping
    exact watched.onward rfl rfl (fun _ flying => flying) rfl (by rw [pc]; rfl) (by rw [pc]; rintro ⟨⟩)
  | begins thread call idle =>
    exact h.onward rfl rfl (fun _ flying => flying) rfl (by rw [idle]; rfl) (by rw [idle]; rintro ⟨⟩)
  | names thread call epoch reading =>
    exact h.onward rfl rfl (fun _ flying => flying) rfl (by rw [reading]; rfl)
      (by rw [reading]; rintro ⟨⟩)
  | spawns thread call epoch token naming =>
    exact h.spawns kept (named.unborn thread token (by rw [naming]; rfl)) naming
  | fails thread call epoch token naming =>
    exact h.onward rfl rfl (fun _ flying => flying) rfl (by rw [naming]; rfl)
      (by rw [naming]; rintro ⟨⟩)
  | enters thread call epoch token spawned current =>
    exact h.enters spawned current (named.epoch thread call epoch token spawned)
  | rejects thread call epoch token spawned =>
    exact h.onward rfl rfl (fun _ flying => flying) rfl (by rw [spawned]; rfl)
      (by rw [spawned]; rintro ⟨⟩)
  | sees thread call token old entered alive =>
    refine h.turn rfl rfl (fun _ flying => flying) rfl ?_ (by rw [entered]; rintro ⟨⟩)
    intro k login hlogin hchecks _
    rw [entered] at hchecks
    obtain rfl : token = k := Option.some.inj hchecks
    left
    have running : login.proc.running = true := by simpa [isAlive, hlogin] using alive
    simp [Process.pending, running]
  | finds thread call token old entered dead =>
    refine h.turn rfl rfl (fun _ flying => flying) rfl ?_ (by rw [entered]; rintro ⟨⟩)
    intro k login _ hchecks _
    rw [entered] at hchecks
    exact .inr hchecks
  | drops thread call token old dead =>
    obtain ⟨login, hlogin, provider⟩ := named.begun thread call token (by rw [dead]; rfl)
    rw [← provider]
    obtain ⟨-, sub, low, -⟩ := kept.taken hlogin
    refine h.turn (take_child ..) (congrArg (Function.update · thread _) (take_pc ..))
      (fewer_of_sub sub) (take_loginEpoch ..) ?_ (by rw [dead]; rintro ⟨⟩)
    intro k _ _ hchecks flying
    rw [dead] at hchecks
    obtain rfl : token = k := Option.some.inj hchecks
    exact absurd flying low
  | receives thread call token url waiting =>
    exact h.onward rfl rfl (fun _ flying => flying) rfl (by rw [waiting]; rfl)
      (by rw [waiting]; rintro ⟨⟩)
  | waits thread call token waiting =>
    exact h.onward rfl rfl (fun _ flying => flying) rfl (by rw [waiting]; rfl)
      (by rw [waiting]; rintro ⟨⟩)
  | transcribes thread call token text silent =>
    exact h.onward rfl rfl (fun _ flying => flying) rfl (by rw [silent]; rfl)
      (by rw [silent]; rintro ⟨⟩)
  | abandons thread call token transcript answer giving =>
    obtain ⟨login, hlogin, provider⟩ := named.begun thread call token (by rw [giving]; rfl)
    rw [← provider]
    obtain ⟨-, sub, -, -⟩ := kept.taken hlogin
    exact h.onward (take_child ..) (congrArg (Function.update · thread _) (take_pc ..))
      (fewer_of_sub sub) (take_loginEpoch ..) (by rw [giving]; rfl) (by rw [giving]; rintro ⟨⟩)
  | takes thread provider code token idle found =>
    obtain ⟨-, sub, -, -⟩ := kept.removed found
    exact h.onward rfl rfl (fewer_of_sub sub) rfl (by rw [idle]; rfl) (by rw [idle]; rintro ⟨⟩)
  | hands thread token code login proc handing child sent =>
    have mine := kept.own thread (by rw [handing]; rfl)
      (by rw [handing]; exact List.mem_cons_self)
    have watched : Watched (s.setChild token { login with proc }) :=
      h.child child fun flying => absurd (.inl flying) mine
    have pc : (s.setChild token { login with proc }).pc thread = .handing token code := handing
    exact watched.onward rfl rfl (fun _ flying => flying) rfl (by rw [pc]; rfl) (by rw [pc]; rintro ⟨⟩)
  | sweeps thread gone idle =>
    exact h.onward rfl rfl (fewer_of_sub fun _ hmem => List.mem_of_mem_filter hmem) rfl
      (by rw [idle]; rfl) (by rw [idle]; rintro ⟨⟩)
  | raises thread idle =>
    constructor
    · intro k login hlogin flying
      rcases h.seen k login hlogin flying with pending | ⟨u, hu⟩
      · exact .inl pending
      · have hthread : u ≠ thread := by
          rintro rfl
          rw [idle] at hu
          cases hu
        refine .inr ⟨u, ?_⟩
        simpa only [Logins.setPc, Function.update_of_ne hthread] using hu
    · intro k login _ _
      exact .inr ⟨thread, Function.update_self ..⟩
  | drains thread draining =>
    have none (token : ℕ) : ¬ (({ s with inFlight := [] } : Logins).retire thread
        (s.inFlight.map (·.2)) .finish).Flying token := by
      rintro ⟨provider, hmem⟩
      cases hmem
    exact ⟨fun k _ _ flying => absurd flying (none k), fun k _ _ flying => absurd flying (none k)⟩

/-- Every run of any number of calls, children, sweeps and shutdowns. -/
abbrev Run (s : Logins) : Prop := machine.Reach (fun _ _ => True) s

theorem kept_all (run : Run s) : Named s ∧ Kept s ∧ Watched s := by
  apply run.invariant
  · rintro _ rfl
    exact ⟨.init, .init, .init⟩
  · intro s act t _ ih _ hstep
    obtain ⟨named, kept, watched⟩ := ih
    have steps := step_steps hstep
    exact ⟨named.step steps, kept.step named steps, watched.step kept named steps⟩

/-- Whatever calls, exits, sweeps and shutdowns do to one another: a login whose child runs has been
killed, is in flight, or is held by a thread that will enter or stop it. What is in flight is there
under its own provider, and nobody has begun to stop it; it is of the present epoch unless a
shutdown is about to drain it; and it is not dead unless its exit is about to be heard or the
thread that entered it about to look. So once the calls have returned and the exits been heard,
in flight are exactly the logins whose children run unharmed, all begun since the last shutdown. -/
theorem no_login_is_forgotten (run : Run s) :
    (∀ token login, s.child token = some login → login.proc.running = true →
      login.proc.killed = true ∨ s.Flying token ∨ ∃ t, token ∈ (s.pc t).holds) ∧
    (∀ provider token, (provider, token) ∈ s.inFlight → ∃ login, s.child token = some login ∧
      login.provider = provider ∧ login.proc.Untouched ∧
      (login.epoch = s.loginEpoch ∨ ∃ t, s.pc t = .draining) ∧
      (login.proc.pending = true ∨ ∃ t, (s.pc t).checks = some token)) ∧
    ((∀ t, s.pc t = .idle) →
      (∀ token login, s.child token = some login →
        (login.proc.hands .reaper).next = [] ∧ (login.proc.hands .reaper).due = []) →
      ∀ token login, s.child token = some login →
        ((login.provider, token) ∈ s.inFlight ↔
          login.proc.running = true ∧ login.proc.killed = false) ∧
        ((login.provider, token) ∈ s.inFlight → login.epoch = s.loginEpoch)) := by
  obtain ⟨named, kept, watched⟩ := kept_all run
  have held (token : ℕ) (login : Login) (hlogin : s.child token = some login)
      (running : login.proc.running = true) :
      login.proc.killed = true ∨ s.Flying token ∨ ∃ t, token ∈ (s.pc t).holds := by
    rcases kept.kept token login hlogin with (ended | killed) | rest
    · rw [running] at ended
      cases ended
    · exact .inl killed
    · exact .inr rest
  refine ⟨held, ?_, ?_⟩
  · intro provider token hmem
    obtain ⟨login, hlogin, hprovider, whole⟩ := kept.entry provider token hmem
    exact ⟨login, hlogin, hprovider, whole, watched.epoch token login hlogin ⟨provider, hmem⟩,
      watched.seen token login hlogin ⟨provider, hmem⟩⟩
  · intro idle heard token login hlogin
    refine ⟨⟨fun hmem => ?_, fun unharmed => ?_⟩, fun hmem => ?_⟩
    · obtain ⟨found, hfound, -, whole⟩ := kept.entry _ token hmem
      cases hlogin.symm.trans hfound
      refine ⟨?_, whole.spared⟩
      rcases watched.seen token login hlogin ⟨_, hmem⟩ with pending | ⟨t, ht⟩
      · obtain ⟨next, due⟩ := heard token login hlogin
        simpa [Process.pending, next, due] using pending
      · rw [idle] at ht
        cases ht
    · rcases held token login hlogin unharmed.1 with killed | ⟨provider, hmem⟩ | ⟨t, ht⟩
      · rw [unharmed.2] at killed
        cases killed
      · obtain ⟨found, hfound, rfl, -⟩ := kept.entry provider token hmem
        cases hlogin.symm.trans hfound
        exact hmem
      · rw [idle] at ht
        cases ht
    · rcases watched.epoch token login hlogin ⟨_, hmem⟩ with same | ⟨t, ht⟩
      · exact same
      · rw [idle] at ht
        cases ht

/-- A second login takes the place of the first, and a third loses a race with a shutdown that is
still to drain. -/
def crowded : List Act :=
  let claude : Begin := { provider := "claude", argv := ["claude", "login"] }
  let codex : Begin := { provider := "codex", argv := ["codex", "login"] }
  [.begin_ 0 claude, .name 0, .spawn 0 true, .track 0, .check 0,
    .child 1 (.read .stdout "open https://claude.ai/login"), .child 1 (.enter (.pump .stdout)),
    .child 1 (.hear (.pump .stdout)), .child 1 (.leave (.pump .stdout)), .receive 0,
    .begin_ 0 claude, .begin_ 1 codex, .name 1, .spawn 1 true, .name 0, .spawn 0 true, .track 0,
    .check 0, .stop 0 (.stop 0), .child 1 (.exit 0), .stop 0 (.settle 0),
    .shutdown 2, .track 1]

theorem no_login_is_forgotten_crowded : ∃ s : Logins, s.inFlight = [("claude", 3)] ∧
    s.answers = [(0, "https://claude.ai/login")] ∧
    s.pc 1 = .stopping [2] (.answer "omni stopped this login during shutdown") ∧
    (∀ token login, s.child token = some login → login.proc.running = true →
      login.proc.killed = true ∨ s.Flying token ∨ ∃ t, token ∈ (s.pc t).holds) ∧
    ∃ login, s.child 3 = some login ∧ login.provider = "claude" ∧ login.proc.Untouched := by
  have run : ∃ s, machine.exec {} crowded = some s ∧ s.inFlight = [("claude", 3)] ∧
      s.answers = [(0, "https://claude.ai/login")] ∧
      s.pc 1 = .stopping [2] (.answer "omni stopped this login during shutdown") :=
    ⟨_, Option.eq_some_of_isSome (by decide +kernel), by decide +kernel, by decide +kernel,
      by decide +kernel⟩
  obtain ⟨s, hs, flight, answers, pc⟩ := run
  have begins : Run ({} : Logins) := .init rfl
  have reach : Run s := begins.exec (Lib.Machine.along_of_forall (fun _ _ => True.intro) _ _) hs
  obtain ⟨held, entered, -⟩ := no_login_is_forgotten reach
  obtain ⟨login, hlogin, provider, whole, -⟩ := entered "claude" 3 (by rw [flight]; decide)
  exact ⟨s, flight, answers, pc, held, login, hlogin, provider, whole⟩

end
end SiliconOmni.Logins
