import SiliconOmni.Logins.Steps

/-! Who answers for a login: it is in flight, in the hands of a thread, or gone. -/
namespace SiliconOmni.Logins

section
variable {s t : Logins} {thread token : ℕ} {pc : Pc} {login : Login} {proc : Process}

def Flying (s : Logins) (token : ℕ) : Prop := ∃ provider, (provider, token) ∈ s.inFlight

/-- What is in flight is in nobody's hands, what a thread has started is in its hands alone, and a
child that is neither in flight nor in anybody's hands is gone. -/
structure Kept (s : Logins) : Prop where
  keyed : s.inFlight.Keyed
  entry : ∀ provider token, (provider, token) ∈ s.inFlight →
    ∃ login, s.child token = some login ∧ login.provider = provider ∧ login.proc.Untouched
  free : ∀ token, s.Flying token → ∀ t, token ∉ (s.pc t).holds
  known : ∀ t, ∀ token ∈ (s.pc t).holds, ∃ login, s.child token = some login
  alone : ∀ t token, (s.pc t).unentered = some token →
    ¬ s.Flying token ∧ ∀ u, u ≠ t → token ∉ (s.pc u).holds
  whole : ∀ t token, (s.pc t).unentered = some token →
    ∃ login, s.child token = some login ∧ login.proc.Untouched
  kept : ∀ token login, s.child token = some login →
    login.proc.Gone ∨ s.Flying token ∨ ∃ t, token ∈ (s.pc t).holds
  served : ∀ token login, s.child token = some login → login.proc.Served

theorem Kept.init : Kept {} := by
  constructor <;> simp [Flying, Pc.holds, Pc.unentered, Entries.Keyed]

/-- A thread lets go of children that are gone or in flight, and takes up some that are in nobody's
way. -/
theorem Kept.turn (h : Kept s) (child : t.child = s.child)
    (turned : t.pc = Function.update s.pc thread pc) (keyed : t.inFlight.Keyed)
    (sub : ∀ entry ∈ t.inFlight, entry ∈ s.inFlight) (entered : pc.unentered = none)
    (holds : ∀ token ∈ pc.holds, (∃ login, s.child token = some login) ∧ ¬ t.Flying token ∧
      ∀ u, u ≠ thread → (s.pc u).unentered ≠ some token)
    (kept : ∀ token login, s.child token = some login →
      token ∈ (s.pc thread).holds ∨ s.Flying token →
        login.proc.Gone ∨ t.Flying token ∨ token ∈ pc.holds) : Kept t := by
  have fewer {token : ℕ} (flying : t.Flying token) : s.Flying token := by
    obtain ⟨provider, hmem⟩ := flying
    exact ⟨provider, sub _ hmem⟩
  have self : t.pc thread = pc := by rw [turned, Function.update_self]
  have other {u : ℕ} (hu : u ≠ thread) : t.pc u = s.pc u := by rw [turned, Function.update_of_ne hu]
  constructor
  · exact keyed
  · intro provider token hmem
    rw [child]
    exact h.entry provider token (sub _ hmem)
  · intro token flying u hu
    by_cases hthread : u = thread
    · subst hthread
      rw [self] at hu
      exact (holds token hu).2.1 flying
    · rw [other hthread] at hu
      exact h.free token (fewer flying) u hu
  · intro u token hu
    rw [child]
    by_cases hthread : u = thread
    · subst hthread
      rw [self] at hu
      exact (holds token hu).1
    · rw [other hthread] at hu
      exact h.known u token hu
  · intro u token hu
    have hthread : u ≠ thread := by
      rintro rfl
      rw [self, entered] at hu
      cases hu
    rw [other hthread] at hu
    obtain ⟨grounded, apart⟩ := h.alone u token hu
    refine ⟨fun flying => grounded (fewer flying), fun v hv hmem => ?_⟩
    by_cases hself : v = thread
    · subst hself
      rw [self] at hmem
      exact (holds token hmem).2.2 u hthread hu
    · rw [other hself] at hmem
      exact apart v hv hmem
  · intro u token hu
    rw [child]
    by_cases hthread : u = thread
    · subst hthread
      rw [self, entered] at hu
      cases hu
    · rw [other hthread] at hu
      exact h.whole u token hu
  · intro token login hlogin
    rw [child] at hlogin
    have mine (was : token ∈ (s.pc thread).holds ∨ s.Flying token) :
        login.proc.Gone ∨ t.Flying token ∨ ∃ u, token ∈ (t.pc u).holds := by
      rcases kept token login hlogin was with gone | flying | holds
      · exact .inl gone
      · exact .inr (.inl flying)
      · exact .inr (.inr ⟨thread, self ▸ holds⟩)
    rcases h.kept token login hlogin with gone | flying | ⟨u, hu⟩
    · exact .inl gone
    · exact mine (.inr flying)
    · by_cases hthread : u = thread
      · subst hthread
        exact mine (.inl hu)
      · exact .inr (.inr ⟨u, (other hthread).symm ▸ hu⟩)
  · intro token login hlogin
    rw [child] at hlogin
    exact h.served token login hlogin

/-- A child moves on, unharmed while it is in flight or still to be entered. -/
theorem Kept.child (h : Kept s) (child : s.child token = some login) (served : proc.Served)
    (gone : login.proc.Gone → proc.Gone)
    (untouched : s.Flying token ∨ (∃ t, (s.pc t).unentered = some token) → proc.Untouched) :
    Kept (s.setChild token { login with proc }) := by
  have self : (s.setChild token { login with proc }).child token = some { login with proc } :=
    Function.update_self ..
  have other {k : ℕ} (hk : k ≠ token) :
      (s.setChild token { login with proc }).child k = s.child k := Function.update_of_ne hk ..
  have known {k : ℕ} (hk : ∃ found, s.child k = some found) :
      ∃ found, (s.setChild token { login with proc }).child k = some found := by
    by_cases heq : k = token
    · subst heq
      exact ⟨_, self⟩
    · rw [other heq]
      exact hk
  constructor
  · exact h.keyed
  · intro provider k hmem
    obtain ⟨found, hfound, hprovider, whole⟩ := h.entry provider k hmem
    by_cases hk : k = token
    · subst hk
      cases child.symm.trans hfound
      exact ⟨_, self, hprovider, untouched (.inl ⟨provider, hmem⟩)⟩
    · rw [other hk]
      exact ⟨found, hfound, hprovider, whole⟩
  · exact h.free
  · intro t k hk
    exact known (h.known t k hk)
  · exact h.alone
  · intro t k hk
    obtain ⟨found, hfound, whole⟩ := h.whole t k hk
    by_cases heq : k = token
    · subst heq
      exact ⟨_, self, untouched (.inr ⟨t, hk⟩)⟩
    · rw [other heq]
      exact ⟨found, hfound, whole⟩
  · intro k found hfound
    by_cases hk : k = token
    · subst hk
      cases self.symm.trans hfound
      exact (h.kept k login child).imp_left gone
    · rw [other hk] at hfound
      exact h.kept k found hfound
  · intro k found hfound
    by_cases hk : k = token
    · subst hk
      cases self.symm.trans hfound
      exact served
    · rw [other hk] at hfound
      exact h.served k found hfound

theorem Pc.holds_of_unentered (h : pc.unentered = some token) : token ∈ pc.holds := by
  cases pc <;> simp_all [unentered, holds]

/-- A child is started. -/
theorem Kept.spawns {call : Begin} {epoch : ℕ} (h : Kept s) (unborn : s.child token = none)
    (naming : s.pc thread = .naming call epoch token) :
    Kept ((s.setChild token
      { proc := .start true true true, provider := call.provider, epoch }).setPc thread
        (.spawned call epoch token)) := by
  have grounded : ¬ s.Flying token := by
    rintro ⟨provider, hmem⟩
    obtain ⟨login, hlogin, -⟩ := h.entry provider token hmem
    rw [unborn] at hlogin
    cases hlogin
  have apart (u : ℕ) : token ∉ (s.pc u).holds := by
    intro hmem
    obtain ⟨login, hlogin⟩ := h.known u token hmem
    rw [unborn] at hlogin
    cases hlogin
  have empty : (s.pc thread).holds = [] := by rw [naming]; rfl
  have self : ((s.setChild token
      { proc := .start true true true, provider := call.provider, epoch }).setPc thread
        (.spawned call epoch token)).child token =
          some { proc := .start true true true, provider := call.provider, epoch } :=
    Function.update_self ..
  have other {k : ℕ} {found : Login} (hk : s.child k = some found) : ((s.setChild token
      { proc := .start true true true, provider := call.provider, epoch }).setPc thread
        (.spawned call epoch token)).child k = some found := by
    have hne : k ≠ token := by
      rintro rfl
      rw [unborn] at hk
      cases hk
    exact (Function.update_of_ne hne ..).trans hk
  have pcs {u : ℕ} (hu : u ≠ thread) :
      Function.update s.pc thread (.spawned call epoch token) u = s.pc u :=
    Function.update_of_ne hu ..
  constructor
  · exact h.keyed
  · intro provider k hmem
    obtain ⟨found, hfound, rest⟩ := h.entry provider k hmem
    exact ⟨found, other hfound, rest⟩
  · intro k flying u hu
    by_cases hthread : u = thread
    · subst hthread
      simp only [Logins.setPc, Function.update_self, Pc.holds, List.mem_singleton] at hu
      subst hu
      exact grounded flying
    · simp only [Logins.setPc, Function.update_of_ne hthread] at hu
      exact h.free k flying u hu
  · intro u k hu
    by_cases hthread : u = thread
    · subst hthread
      simp only [Logins.setPc, Function.update_self, Pc.holds, List.mem_singleton] at hu
      subst hu
      exact ⟨_, self⟩
    · simp only [Logins.setPc, Function.update_of_ne hthread] at hu
      obtain ⟨found, hfound⟩ := h.known u k hu
      exact ⟨found, other hfound⟩
  · intro u k hu
    by_cases hthread : u = thread
    · subst hthread
      simp only [Logins.setPc, Function.update_self, Pc.unentered, Option.some.injEq] at hu
      subst hu
      refine ⟨grounded, fun v hv => ?_⟩
      simp only [Logins.setPc, Function.update_of_ne hv]
      exact apart v
    · simp only [Logins.setPc, Function.update_of_ne hthread] at hu
      obtain ⟨low, alone⟩ := h.alone u k hu
      refine ⟨low, fun v hv hmem => ?_⟩
      by_cases hself : v = thread
      · subst hself
        simp only [Logins.setPc, Function.update_self, Pc.holds, List.mem_singleton] at hmem
        subst hmem
        exact apart u (Pc.holds_of_unentered hu)
      · simp only [Logins.setPc, Function.update_of_ne hself] at hmem
        exact alone v hv hmem
  · intro u k hu
    by_cases hthread : u = thread
    · subst hthread
      simp only [Logins.setPc, Function.update_self, Pc.unentered, Option.some.injEq] at hu
      subst hu
      exact ⟨_, self, .start true true true⟩
    · simp only [Logins.setPc, Function.update_of_ne hthread] at hu
      obtain ⟨found, hfound, whole⟩ := h.whole u k hu
      exact ⟨found, other hfound, whole⟩
  · intro k found hfound
    by_cases hk : k = token
    · subst hk
      right; right
      exact ⟨thread, by simp [Logins.setPc, Pc.holds]⟩
    · have was : s.child k = some found := (Function.update_of_ne hk ..).symm.trans hfound
      rcases h.kept k found was with gone | flying | ⟨u, hu⟩
      · exact .inl gone
      · exact .inr (.inl flying)
      · have hthread : u ≠ thread := by
          rintro rfl
          rw [empty] at hu
          cases hu
        rw [← pcs hthread] at hu
        exact .inr (.inr ⟨u, hu⟩)
  · intro k found hfound
    by_cases hk : k = token
    · subst hk
      cases self.symm.trans hfound
      exact .start true true
    · exact h.served k found ((Function.update_of_ne hk ..).symm.trans hfound)

/-- A child is entered, and the one it replaces passes into the hands of the thread. -/
theorem Kept.enters {call : Begin} {epoch : ℕ} (h : Kept s)
    (spawned : s.pc thread = .spawned call epoch token)
    (its : ∃ login, s.child token = some login ∧ login.provider = call.provider) :
    Kept { s.setPc thread (.entered call token (s.inFlight.lookup call.provider)) with
      inFlight := Entries.insert s.inFlight call.provider token
      reaper := true } := by
  have unentered : (s.pc thread).unentered = some token := by rw [spawned]; rfl
  obtain ⟨grounded, apart⟩ := h.alone thread token unentered
  obtain ⟨login, hlogin, whole⟩ := h.whole thread token unentered
  obtain ⟨login', hlogin', hprovider⟩ := its
  cases hlogin.symm.trans hlogin'
  have pcs {u : ℕ} (hu : u ≠ thread) : Function.update s.pc thread
      (.entered call token (s.inFlight.lookup call.provider)) u = s.pc u := Function.update_of_ne hu ..
  have now {k : ℕ} (flying : ∃ provider, (provider, k) ∈ Entries.insert s.inFlight call.provider token) :
      k = token ∨ s.Flying k := by
    obtain ⟨provider, hmem⟩ := flying
    rcases Entries.mem_insert hmem with heq | hmem
    · exact .inl (congrArg Prod.snd heq)
    · exact .inr ⟨provider, hmem⟩
  have replaced {k : ℕ} (hk : k ∈ (s.inFlight.lookup call.provider).toList) : s.Flying k ∧
      ¬ ∃ provider, (provider, k) ∈ Entries.insert s.inFlight call.provider token := by
    have was := Entries.mem_of_lookup (Option.mem_toList.mp hk)
    refine ⟨⟨_, was⟩, ?_⟩
    rintro ⟨provider, hmem⟩
    obtain ⟨old, hold, hkey, -⟩ := h.entry _ k was
    rcases Entries.mem_insert hmem with heq | hstill
    · cases heq
      exact grounded ⟨_, was⟩
    · obtain ⟨old', hold', hkey', -⟩ := h.entry _ k hstill
      cases hold.symm.trans hold'
      obtain rfl : provider = call.provider := hkey'.symm.trans hkey
      have again : (Entries.insert s.inFlight call.provider token).Keyed := h.keyed.insert
      have := again.lookup hmem
      rw [Entries.lookup_insert_self] at this
      cases this
      exact grounded ⟨_, was⟩
  constructor
  · exact h.keyed.insert
  · intro provider k hmem
    rcases Entries.mem_insert hmem with heq | hmem
    · cases heq
      exact ⟨login, hlogin, hprovider, whole⟩
    · exact h.entry provider k hmem
  · intro k flying u hu
    by_cases hthread : u = thread
    · subst hthread
      simp only [Logins.setPc, Function.update_self, Pc.holds] at hu
      exact (replaced hu).2 flying
    · simp only [Logins.setPc, Function.update_of_ne hthread] at hu
      rcases now flying with rfl | flying
      · exact apart u hthread hu
      · exact h.free k flying u hu
  · intro u k hu
    by_cases hthread : u = thread
    · subst hthread
      simp only [Logins.setPc, Function.update_self, Pc.holds] at hu
      obtain ⟨provider, hmem⟩ := (replaced hu).1
      obtain ⟨old, hold, -⟩ := h.entry provider k hmem
      exact ⟨old, hold⟩
    · simp only [Logins.setPc, Function.update_of_ne hthread] at hu
      exact h.known u k hu
  · intro u k hu
    have hthread : u ≠ thread := by
      rintro rfl
      simp [Logins.setPc, Pc.unentered] at hu
    simp only [Logins.setPc, Function.update_of_ne hthread] at hu
    obtain ⟨low, alone⟩ := h.alone u k hu
    refine ⟨fun flying => ?_, fun v hv hmem => ?_⟩
    · rcases now flying with rfl | flying
      · exact apart u hthread (Pc.holds_of_unentered hu)
      · exact low flying
    · by_cases hself : v = thread
      · subst hself
        simp only [Logins.setPc, Function.update_self, Pc.holds] at hmem
        exact low (replaced hmem).1
      · simp only [Logins.setPc, Function.update_of_ne hself] at hmem
        exact alone v hv hmem
  · intro u k hu
    have hthread : u ≠ thread := by
      rintro rfl
      simp [Logins.setPc, Pc.unentered] at hu
    simp only [Logins.setPc, Function.update_of_ne hthread] at hu
    exact h.whole u k hu
  · intro k found hfound
    rcases h.kept k found hfound with gone | ⟨provider, hmem⟩ | ⟨u, hu⟩
    · exact .inl gone
    · by_cases hkey : provider = call.provider
      · subst hkey
        right; right
        refine ⟨thread, ?_⟩
        simp only [Logins.setPc, Function.update_self, Pc.holds]
        exact Option.mem_toList.mpr (h.keyed.lookup hmem)
      · right; left
        have := h.keyed.lookup hmem
        rw [← Entries.lookup_insert_ne _ token hkey] at this
        exact ⟨provider, Entries.mem_of_lookup this⟩
    · by_cases hthread : u = thread
      · subst hthread
        rw [spawned, Pc.holds, List.mem_singleton] at hu
        subst hu
        right; left
        exact ⟨call.provider, Entries.mem_of_lookup (Entries.lookup_insert_self ..)⟩
      · rw [← pcs hthread] at hu
        exact .inr (.inr ⟨u, hu⟩)
  · exact h.served

/-- A thread goes on, and lets go only of children that are gone. -/
theorem Kept.stay (h : Kept s) (child : t.child = s.child)
    (turned : t.pc = Function.update s.pc thread pc) (flight : t.inFlight = s.inFlight)
    (entered : pc.unentered = none) (sub : ∀ token ∈ pc.holds, token ∈ (s.pc thread).holds)
    (dropped : ∀ token login, s.child token = some login → token ∈ (s.pc thread).holds →
      login.proc.Gone ∨ token ∈ pc.holds) : Kept t := by
  have flying {token : ℕ} : t.Flying token ↔ s.Flying token := by rw [Flying, Flying, flight]
  refine h.turn child turned (flight ▸ h.keyed) (fun _ hmem => flight ▸ hmem) entered ?_ ?_
  · intro token hmem
    have mine := sub token hmem
    refine ⟨h.known thread token mine, fun up => h.free token (flying.mp up) thread mine, ?_⟩
    intro u hu unentered
    exact (h.alone u token unentered).2 thread (Ne.symm hu) mine
  · intro token login hlogin was
    rcases was with held | up
    · exact (dropped token login hlogin held).imp_right .inr
    · exact .inr (.inl (flying.mpr up))

/-- A thread goes on with what it holds. -/
theorem Kept.onward (h : Kept s) (child : t.child = s.child)
    (turned : t.pc = Function.update s.pc thread pc) (flight : t.inFlight = s.inFlight)
    (entered : pc.unentered = none) (same : pc.holds = (s.pc thread).holds) : Kept t := by
  refine h.stay child turned flight entered ?_ ?_
  · rw [same]
    exact fun _ hmem => hmem
  · rw [same]
    exact fun _ _ _ hmem => .inr hmem

/-- Children that are gone are taken out of flight. -/
theorem Kept.release (h : Kept s) (child : t.child = s.child) (turned : t.pc = s.pc)
    (keyed : t.inFlight.Keyed) (sub : ∀ entry ∈ t.inFlight, entry ∈ s.inFlight)
    (gone : ∀ token login, s.child token = some login → s.Flying token →
      login.proc.Gone ∨ t.Flying token) : Kept t := by
  have fewer {token : ℕ} (flying : t.Flying token) : s.Flying token := by
    obtain ⟨provider, hmem⟩ := flying
    exact ⟨provider, sub _ hmem⟩
  constructor
  · exact keyed
  · intro provider token hmem
    rw [child]
    exact h.entry provider token (sub _ hmem)
  · intro token flying
    rw [turned]
    exact h.free token (fewer flying)
  · rw [turned, child]
    exact h.known
  · intro u token hu
    rw [turned] at hu ⊢
    exact ⟨fun flying => (h.alone u token hu).1 (fewer flying), (h.alone u token hu).2⟩
  · rw [turned, child]
    exact h.whole
  · intro token login hlogin
    rw [child] at hlogin
    rw [turned]
    rcases h.kept token login hlogin with dead | flying | held
    · exact .inl dead
    · exact (gone token login hlogin flying).imp_right .inl
    · exact .inr (.inr held)
  · rw [child]
    exact h.served

/-- What is in flight is there under its provider. -/
theorem Kept.lookup (h : Kept s) (child : s.child token = some login) (flying : s.Flying token) :
    s.inFlight.lookup login.provider = some token := by
  obtain ⟨provider, hmem⟩ := flying
  obtain ⟨found, hfound, rfl, -⟩ := h.entry provider token hmem
  cases child.symm.trans hfound
  exact h.keyed.lookup hmem

/-- Out of flight goes the login that was found under its provider, and it alone. -/
theorem Kept.removed (h : Kept s) {provider : String}
    (found : s.inFlight.lookup provider = some token) :
    (Entries.remove s.inFlight provider).Keyed ∧
    (∀ entry ∈ Entries.remove s.inFlight provider, entry ∈ s.inFlight) ∧
    (¬ ∃ name, (name, token) ∈ Entries.remove s.inFlight provider) ∧
    ∀ k, k ≠ token → s.Flying k → ∃ name, (name, k) ∈ Entries.remove s.inFlight provider := by
  have sub : ∀ entry ∈ Entries.remove s.inFlight provider, entry ∈ s.inFlight :=
    fun entry hmem => List.mem_of_mem_filter hmem
  refine ⟨h.keyed.remove, sub, ?_, ?_⟩
  · rintro ⟨name, hmem⟩
    obtain ⟨hold, hname⟩ := List.mem_filter.mp hmem
    obtain ⟨login, hlogin, hprovider, -⟩ := h.entry _ _ (Entries.mem_of_lookup found)
    obtain ⟨login', hlogin', hprovider', -⟩ := h.entry _ _ hold
    cases hlogin.symm.trans hlogin'
    exact absurd (hprovider'.symm.trans hprovider) (by simpa using hname)
  · rintro k hk ⟨name, hmem⟩
    have hname : name ≠ provider := by
      rintro rfl
      exact hk (Option.some.inj ((h.keyed.lookup hmem).symm.trans found))
    exact ⟨name, List.mem_filter.mpr ⟨hmem, by simpa using hname⟩⟩

/-- A login is taken out of flight by its token: it is not there afterwards, and the others are. -/
theorem Kept.taken (h : Kept s) (child : s.child token = some login) :
    (s.take login.provider (some token)).2.inFlight.Keyed ∧
    (∀ entry ∈ (s.take login.provider (some token)).2.inFlight, entry ∈ s.inFlight) ∧
    ¬ (s.take login.provider (some token)).2.Flying token ∧
    ∀ k, k ≠ token → s.Flying k → (s.take login.provider (some token)).2.Flying k := by
  unfold take
  cases found : s.inFlight.lookup login.provider with
  | none =>
    refine ⟨h.keyed, fun _ hmem => hmem, fun flying => ?_, fun _ _ hk => hk⟩
    rw [h.lookup child flying] at found
    cases found
  | some other =>
    by_cases same : token = other
    · subst same
      simp only [Option.all_some, decide_true, if_true]
      exact h.removed found
    · simp only [Option.all_some, same, decide_false, Bool.false_eq_true, if_false]
      refine ⟨h.keyed, fun _ hmem => hmem, fun flying => ?_, fun _ _ hk => hk⟩
      exact same (Option.some.inj ((h.lookup child flying).symm.trans found))

/-- A child that a thread stops is not in flight, nor waiting to be entered. -/
theorem Kept.own (h : Kept s) (thread : ℕ) (entered : (s.pc thread).unentered = none)
    (mine : token ∈ (s.pc thread).holds) :
    ¬ (s.Flying token ∨ ∃ t, (s.pc t).unentered = some token) := by
  rintro (flying | ⟨u, hu⟩)
  · exact h.free token flying thread mine
  · have hne : thread ≠ u := by
      rintro rfl
      rw [entered] at hu
      cases hu
    exact (h.alone u token hu).2 thread hne mine

/-- What is in flight, or waiting to be entered, is unharmed. -/
theorem Kept.untouched (h : Kept s) (child : s.child token = some login)
    (free : s.Flying token ∨ ∃ t, (s.pc t).unentered = some token) : login.proc.Untouched := by
  rcases free with ⟨provider, hmem⟩ | ⟨t, ht⟩
  · obtain ⟨found, hfound, -, whole⟩ := h.entry provider token hmem
    cases child.symm.trans hfound
    exact whole
  · obtain ⟨found, hfound, whole⟩ := h.whole t token ht
    cases child.symm.trans hfound
    exact whole

/-- A child moves by itself. -/
theorem Kept.moves {move : Process.Move} (h : Kept s) (child : s.child token = some login)
    (own : move.own = true) (moves : login.proc.step move = some proc) :
    Kept (s.setChild token { login with proc }) :=
  h.child child ((h.served token login child).step moves) (fun gone => gone.step moves)
    fun free => (h.untouched child free).own own moves

theorem Kept.exited (h : Kept s) (child : s.child token = some login)
    (moves : login.proc.step (.hear .reaper) = some proc) :
    Kept ((s.setChild token { login with proc }).take login.provider (some token)).2 := by
  have kept := h.moves child rfl moves
  have self : (s.setChild token { login with proc }).child token = some { login with proc } :=
    Function.update_self ..
  obtain ⟨keyed, sub, -, others⟩ := kept.taken self
  refine kept.release (take_child ..) (take_pc ..) keyed sub fun k found hfound flying => ?_
  by_cases hk : k = token
  · subst hk
    cases self.symm.trans hfound
    have ended : login.proc.Gone := .inl ((h.served k login child).heard moves)
    exact .inl (ended.step moves)
  · exact .inr (others k hk flying)

theorem Kept.stopped {tokens : List ℕ} {next : Next} (h : Kept s)
    (stopping : s.pc thread = .stopping (token :: tokens) next) (child : s.child token = some login)
    (moves : login.proc.step (.done thread) = some proc) :
    Kept ((s.setChild token { login with proc }).retire thread tokens next) := by
  have mine := h.own thread (by rw [stopping]; rfl)
    (by rw [stopping]; exact List.mem_cons_self)
  have kept : Kept (s.setChild token { login with proc }) :=
    h.child child ((h.served token login child).step moves) (fun gone => gone.step moves)
      fun free => absurd free mine
  have pc : (s.setChild token { login with proc }).pc thread = .stopping (token :: tokens) next :=
    stopping
  refine kept.stay rfl rfl rfl (by simp) ?_ ?_
  · intro k hk
    rw [Pc.after_holds] at hk
    rw [pc]
    exact List.mem_cons_of_mem _ hk
  · intro k found hfound hk
    rw [pc] at hk
    rw [Pc.after_holds]
    rcases List.mem_cons.mp hk with rfl | hk
    · have self : (s.setChild k { login with proc }).child k = some { login with proc } :=
        Function.update_self ..
      cases self.symm.trans hfound
      exact .inl ((h.served k login child).done moves)
    · exact .inr hk

theorem Kept.drops {call : Begin} {old : Option ℕ} (h : Kept s) (named : Named s)
    (dead : s.pc thread = .dead call token old) :
    Kept ((s.take call.provider (some token)).2.retire thread old.toList (.wait call token)) := by
  obtain ⟨login, hlogin, ended⟩ := named.deceased thread token (by rw [dead]; rfl)
  obtain ⟨found, hfound, provider⟩ := named.begun thread call token (by rw [dead]; rfl)
  cases hlogin.symm.trans hfound
  rw [← provider]
  obtain ⟨keyed, sub, -, others⟩ := h.taken hlogin
  have kept : Kept (s.take login.provider (some token)).2 := by
    refine h.release (take_child ..) (take_pc ..) keyed sub fun k other hother flying => ?_
    by_cases hk : k = token
    · subst hk
      cases hlogin.symm.trans hother
      exact .inl (.inl ended)
    · exact .inr (others k hk flying)
  exact kept.onward rfl rfl rfl (by simp) (by rw [Pc.after_holds, take_pc, dead]; rfl)

theorem Kept.abandons {call : Begin} {transcript : String} (h : Kept s) (named : Named s)
    (giving : s.pc thread = .giving call token transcript) (answer : String) :
    Kept ((s.take call.provider (some token)).2.setPc thread
      (.stopping [token] (.answer answer))) := by
  obtain ⟨login, hlogin, provider⟩ := named.begun thread call token (by rw [giving]; rfl)
  rw [← provider]
  obtain ⟨keyed, sub, low, others⟩ := h.taken hlogin
  have drawn : (s.pc thread).drawn = some token := by rw [giving]; rfl
  refine h.turn (take_child ..) (congrArg (Function.update · thread _) (take_pc ..)) keyed sub rfl
    ?_ ?_
  · intro k hk
    rw [Pc.holds, List.mem_singleton] at hk
    subst hk
    refine ⟨⟨login, hlogin⟩, low, fun u hu unentered => hu ?_⟩
    have theirs : (s.pc u).drawn = some k := by
      cases hpc : s.pc u <;> rw [hpc] at unentered <;> simp_all [Pc.unentered, Pc.drawn,
        Pc.unborn, Pc.begun]
    exact named.apart u thread k theirs drawn
  · intro k other hother was
    rcases was with held | flying
    · rw [giving] at held
      cases held
    · by_cases hk : k = token
      · subst hk
        exact .inr (.inr List.mem_cons_self)
      · exact .inr (.inl (others k hk flying))

theorem Kept.takes {provider : String} (h : Kept s) (idle : s.pc thread = .idle)
    (found : s.inFlight.lookup provider = some token) (code : String) :
    Kept (({ s with inFlight := Entries.remove s.inFlight provider } : Logins).setPc thread
      (.handing token code)) := by
  obtain ⟨keyed, sub, low, others⟩ := h.removed found
  have flying : s.Flying token := ⟨provider, Entries.mem_of_lookup found⟩
  obtain ⟨login, hlogin, -⟩ := h.entry provider token (Entries.mem_of_lookup found)
  refine h.turn rfl rfl keyed sub rfl ?_ ?_
  · intro k hk
    rw [Pc.holds, List.mem_singleton] at hk
    subst hk
    exact ⟨⟨login, hlogin⟩, low, fun u _ unentered => (h.alone u k unentered).1 flying⟩
  · intro k other hother was
    rcases was with held | flying
    · rw [idle] at held
      cases held
    · by_cases hk : k = token
      · subst hk
        exact .inr (.inr List.mem_cons_self)
      · exact .inr (.inl (others k hk flying))

theorem Kept.hands {code : String} (h : Kept s) (handing : s.pc thread = .handing token code)
    (child : s.child token = some login)
    (sent : proc = login.proc ∨ ∃ text taken, proc = (login.proc.sendLine text taken).2) :
    Kept ((s.setChild token { login with proc }).retire thread [token] .finish) := by
  have mine := h.own thread (by rw [handing]; rfl)
    (by rw [handing]; exact List.mem_cons_self)
  have served : proc.Served ∧ (login.proc.Gone → proc.Gone) := by
    rcases sent with rfl | ⟨text, taken, rfl⟩
    · exact ⟨h.served token _ child, id⟩
    · have moves : login.proc.step (.send text taken) =
        some (login.proc.sendLine text taken).2 := rfl
      exact ⟨(h.served token login child).step moves, fun gone => gone.step moves⟩
  have kept : Kept (s.setChild token { login with proc }) :=
    h.child child served.1 served.2 fun free => absurd free mine
  have pc : (s.setChild token { login with proc }).pc thread = .handing token code := handing
  exact kept.onward rfl rfl rfl (by simp) (by rw [Pc.after_holds, pc]; rfl)

theorem Kept.sweeps (h : Kept s) (idle : s.pc thread = .idle) (gone : String × ℕ → Bool) :
    Kept (({ s with inFlight := s.inFlight.filter fun entry => !gone entry } : Logins).retire thread
      ((s.inFlight.filter gone).map (·.2)) .finish) := by
  refine h.turn rfl rfl (h.keyed.sublist (List.filter_sublist.map _))
    (fun _ hmem => List.mem_of_mem_filter hmem) (by simp) ?_ ?_
  · intro k hk
    rw [Pc.after_holds] at hk
    obtain ⟨⟨provider, k'⟩, hmem, rfl⟩ := List.mem_map.mp hk
    obtain ⟨hentry, hgone⟩ := List.mem_filter.mp hmem
    obtain ⟨login, hlogin, hprovider, -⟩ := h.entry provider k' hentry
    refine ⟨⟨login, hlogin⟩, ?_, fun u _ unentered => (h.alone u k' unentered).1 ⟨_, hentry⟩⟩
    rintro ⟨name, hstill⟩
    obtain ⟨hold, hkeep⟩ := List.mem_filter.mp hstill
    obtain ⟨login', hlogin', hname, -⟩ := h.entry name k' hold
    cases hlogin.symm.trans hlogin'
    obtain rfl : provider = name := hprovider.symm.trans hname
    simp [hgone] at hkeep
  · intro k login hlogin was
    rw [Pc.after_holds]
    rcases was with held | ⟨provider, hmem⟩
    · rw [idle] at held
      cases held
    · cases hgone : gone (provider, k) with
      | true => exact .inr (.inr (List.mem_map.mpr ⟨_, List.mem_filter.mpr ⟨hmem, hgone⟩, rfl⟩))
      | false => exact .inr (.inl ⟨provider, List.mem_filter.mpr ⟨hmem, by simp [hgone]⟩⟩)

theorem Kept.drains (h : Kept s) (draining : s.pc thread = .draining) :
    Kept (({ s with inFlight := [] } : Logins).retire thread (s.inFlight.map (·.2)) .finish) := by
  refine h.turn rfl rfl List.nodup_nil (fun _ hmem => by cases hmem) (by simp) ?_ ?_
  · intro k hk
    rw [Pc.after_holds] at hk
    obtain ⟨⟨provider, k'⟩, hmem, rfl⟩ := List.mem_map.mp hk
    obtain ⟨login, hlogin, -⟩ := h.entry provider k' hmem
    refine ⟨⟨login, hlogin⟩, ?_, fun u _ unentered => (h.alone u k' unentered).1 ⟨_, hmem⟩⟩
    rintro ⟨name, hstill⟩
    cases hstill
  · intro k login hlogin was
    rw [Pc.after_holds]
    rcases was with held | ⟨provider, hmem⟩
    · rw [draining] at held
      cases held
    · exact .inr (.inr (List.mem_map.mpr ⟨_, hmem, rfl⟩))

theorem Kept.step (h : Kept s) (named : Named s) (steps : Steps s t) : Kept t := by
  cases steps with
  | idle => exact h
  | own token login proc move child own unheard moves => exact h.moves child own moves
  | exited token login proc child moves => exact h.exited child moves
  | stops thread token tokens next login proc move stopping child its moves =>
    have mine := h.own thread (by rw [stopping]; rfl)
      (by rw [stopping]; exact List.mem_cons_self)
    exact h.child child ((h.served token login child).step moves) (fun gone => gone.step moves)
      fun free => absurd free mine
  | stopped thread token tokens next login proc stopping child moves => exact h.stopped stopping child moves
  | begins thread call idle => exact h.onward rfl rfl rfl rfl (by rw [idle]; rfl)
  | names thread call epoch reading => exact h.onward rfl rfl rfl rfl (by rw [reading]; rfl)
  | spawns thread call epoch token naming =>
    exact h.spawns (named.unborn thread token (by rw [naming]; rfl)) naming
  | fails thread call epoch token naming =>
    exact h.onward rfl rfl rfl (by simp) (by rw [Pc.after_holds, naming]; rfl)
  | enters thread call epoch token spawned current =>
    exact h.enters spawned (named.begun thread call token (by rw [spawned]; rfl))
  | rejects thread call epoch token spawned =>
    exact h.onward rfl rfl rfl (by simp) (by rw [Pc.after_holds, spawned]; rfl)
  | sees thread call token old entered alive =>
    exact h.onward rfl rfl rfl (by simp) (by rw [Pc.after_holds, entered]; rfl)
  | finds thread call token old entered dead => exact h.onward rfl rfl rfl rfl (by rw [entered]; rfl)
  | receives thread call token url waiting =>
    exact h.onward rfl rfl rfl (by simp) (by rw [Pc.after_holds, waiting]; rfl)
  | waits thread call token waiting => exact h.onward rfl rfl rfl rfl (by rw [waiting]; rfl)
  | transcribes thread call token text silent => exact h.onward rfl rfl rfl rfl (by rw [silent]; rfl)
  | raises thread idle => exact h.onward rfl rfl rfl rfl (by rw [idle]; rfl)
  | drops thread call token old dead => exact h.drops named dead
  | abandons thread call token transcript answer giving => exact h.abandons named giving answer
  | takes thread provider code token idle found => exact h.takes idle found code
  | hands thread token code login proc handing child sent => exact h.hands handing child sent
  | sweeps thread gone idle => exact h.sweeps idle gone
  | drains thread draining => exact h.drains draining

end
end SiliconOmni.Logins
