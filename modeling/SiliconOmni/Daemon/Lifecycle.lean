import SiliconOmni.Daemon.Gates

/-! One conductor per session: who is responsible for every conductor that was not joined yet. -/
namespace SiliconOmni.Daemon

/-- The conductor an operation is about to shut, or waits for. -/
def Stage.shuts : Stage → Option ℕ
  | shut live _ | join live _ => some live
  | _ => none

/-- The thread is to shut this conductor, or waits for it. -/
def Pc.Shuts (live : ℕ) : Pc → Prop
  | inside _ _ _ stage => stage.shuts = some live
  | putting todo => live ∈ todo
  | shutting l todo | joining l todo => live = l ∨ live ∈ todo
  | _ => False

/-- The conductor a thread waits for. -/
def Pc.joins : Pc → Option ℕ
  | inside _ _ _ (.join live _) | joining live _ => some live
  | _ => none

/-- The thread runs an open, a stop, a reap or a shutdown. -/
def Pc.Lifecycle : Pc → Prop
  | waiting _ _ op | inside _ _ op _ | leaving _ op | left _ op => op ≠ .send ∧ op ≠ .set
  | reaping .. | closing | putting _ | shutting .. | joining .. => True
  | idle | forgetting .. => False

/-- What an operation on `name` relies on. -/
def Stage.Fits (s : Registry) (name : ℕ) : Stage → Prop
  | configure _ live | attach _ live false | replay _ live false | ask live =>
      live < s.made ∧ (s.lives live).name = name
  | start _ live | attach _ live true | replay _ live true | abandon live =>
      live < s.made ∧ (s.lives live).name = name ∧
        (s.sessions name = some live ∨ s.sessions name = none)
  | shut live conn | join live conn =>
      live < s.made ∧ (s.lives live).name = name ∧ s.sessions name ≠ some live ∧
        (conn ≠ none → s.sessions name = none)
  | discover _ | insert _ => s.sessions name = none
  | begin | look _ | done => True

/-- The stages of a `send` or a `set`. -/
def Stage.plain : Stage → Bool
  | begin | ask _ | done => true
  | _ => false

/-- What a thread relies on where it stands. -/
def Pc.Fits (s : Registry) : Pc → Prop
  | inside name _ op stage => stage.Fits s name ∧ (op = .send ∨ op = .set → stage.plain)
  | closing => s.closing
  | putting todo =>
      s.closing ∧ (∀ name, s.sessions name = none) ∧ ∀ live ∈ todo, live < s.made
  | shutting l todo | joining l todo =>
      s.closing ∧ (∀ name, s.sessions name = none) ∧ ∀ live ∈ l :: todo, live < s.made
  | _ => True

namespace Registry
variable {s s' : Registry} {t name g live : ℕ}

/-- Every conductor that was not joined is in the map or in the hands of a thread. -/
structure Hands (s : Registry) : Prop where
  mapped : ∀ name live, s.sessions name = some live → live < s.made ∧
    (s.lives live).name = name ∧ (s.lives live).stopping = false ∧ (s.lives live).joined = false
  fits : ∀ t, (s.pc t).Fits s
  held : ∀ live < s.made, (s.lives live).joined = false →
    s.sessions (s.lives live).name = some live ∨ ∃ t, (s.pc t).Shuts live
  joiner : ∀ live < s.made, (s.lives live).joined = false → (s.lives live).stopping = true →
    ∃ t, (s.pc t).joins = some live
  single : ∀ k < s.made, ∀ l < s.made, (s.lives k).joined = false → (s.lives l).joined = false →
    (s.lives k).name = (s.lives l).name → k = l
  down : s.down = true → s.closing = true ∧ ∀ name, s.sessions name = none

theorem Hands.init : Hands {} := by
  constructor <;> simp [Pc.Fits]

theorem Stage.Fits.mono {st : Stage} (h : st.Fits s name)
    (sessions : s'.sessions name = s.sessions name ∨ s'.sessions name = none)
    (made : s.made ≤ s'.made)
    (names : ∀ live < s.made, (s'.lives live).name = (s.lives live).name) : st.Fits s' name := by
  have known {live : ℕ} (hlive : live < s.made ∧ (s.lives live).name = name) :
      live < s'.made ∧ (s'.lives live).name = name :=
    ⟨Nat.lt_of_lt_of_le hlive.1 made, (names live hlive.1).trans hlive.2⟩
  have fresh {live : ℕ} (hlive : live < s.made ∧ (s.lives live).name = name ∧
      (s.sessions name = some live ∨ s.sessions name = none)) :
      live < s'.made ∧ (s'.lives live).name = name ∧
        (s'.sessions name = some live ∨ s'.sessions name = none) := by
    obtain ⟨hlt, hname, hmap⟩ := hlive
    refine ⟨(known ⟨hlt, hname⟩).1, (known ⟨hlt, hname⟩).2, ?_⟩
    rcases sessions with heq | hnone
    · rwa [heq]
    · exact .inr hnone
  have out {live : ℕ} {conn : Option ℕ} (hlive : live < s.made ∧ (s.lives live).name = name ∧
      s.sessions name ≠ some live ∧ (conn ≠ none → s.sessions name = none)) :
      live < s'.made ∧ (s'.lives live).name = name ∧
        s'.sessions name ≠ some live ∧ (conn ≠ none → s'.sessions name = none) := by
    obtain ⟨hlt, hname, hmap, hconn⟩ := hlive
    refine ⟨(known ⟨hlt, hname⟩).1, (known ⟨hlt, hname⟩).2, ?_⟩
    rcases sessions with heq | hnone
    · rw [heq]
      exact ⟨hmap, hconn⟩
    · rw [hnone]
      exact ⟨by rintro ⟨⟩, fun _ => rfl⟩
  have vacant (hmap : s.sessions name = none) : s'.sessions name = none := by
    rcases sessions with heq | hnone
    · rwa [heq]
    · exact hnone
  cases st with
  | configure conn live => exact known h
  | ask live => exact known h
  | attach conn live isNew => cases isNew with
    | false => exact known h
    | true => exact fresh h
  | replay conn live isNew => cases isNew with
    | false => exact known h
    | true => exact fresh h
  | start conn live => exact fresh h
  | abandon live => exact fresh h
  | shut live conn => exact out h
  | join live conn => exact out h
  | discover conn => exact vacant h
  | insert conn => exact vacant h
  | begin => trivial
  | look conn => trivial
  | done => trivial

/-- Sessions may leave the map, conductors may be made, and the flag may be set. -/
theorem Pc.Fits.mono {pc : Pc} (h : pc.Fits s)
    (sessions : ∀ name, s'.sessions name = s.sessions name ∨ s'.sessions name = none)
    (made : s.made ≤ s'.made)
    (names : ∀ live < s.made, (s'.lives live).name = (s.lives live).name)
    (closing : s.closing = true → s'.closing = true) : pc.Fits s' := by
  have empty (hmap : ∀ name, s.sessions name = none) (name : ℕ) : s'.sessions name = none := by
    rcases sessions name with heq | hnone
    · rw [heq]
      exact hmap name
    · exact hnone
  cases pc with
  | inside name g op st => exact ⟨Stage.Fits.mono h.1 (sessions name) made names, h.2⟩
  | closing => exact closing h
  | putting todo =>
    exact ⟨closing h.1, empty h.2.1, fun l hl => Nat.lt_of_lt_of_le (h.2.2 l hl) made⟩
  | shutting live todo =>
    exact ⟨closing h.1, empty h.2.1, fun l hl => Nat.lt_of_lt_of_le (h.2.2 l hl) made⟩
  | joining live todo =>
    exact ⟨closing h.1, empty h.2.1, fun l hl => Nat.lt_of_lt_of_le (h.2.2 l hl) made⟩
  | idle => trivial
  | waiting => trivial
  | leaving => trivial
  | left => trivial
  | reaping => trivial
  | forgetting => trivial

/-- What some thread satisfies is still satisfied after one thread moved on. -/
theorem exists_update {P : Pc → Prop} {f : ℕ → Pc} {pc : Pc} (h : ∃ u, P (f u))
    (ht : P (f t) → P pc) : ∃ u, P (Function.update f t pc u) := by
  obtain ⟨u, hu⟩ := h
  by_cases hut : u = t
  · subst hut
    exact ⟨u, by simpa using ht hu⟩
  · exact ⟨u, by simpa [hut] using hu⟩

theorem fits_update {f : ℕ → Pc} {pc : Pc} (h : ∀ u, (f u).Fits s) (ht : pc.Fits s) (u : ℕ) :
    (Function.update f t pc u).Fits s := by
  by_cases hut : u = t
  · subst hut
    simpa using ht
  · simpa [hut] using h u

/-- Steps that neither move a session nor change who answers for a conductor. -/
theorem Hands.quiet {pc : Pc} (h : Hands s) (hpc : s'.pc = Function.update s.pc t pc)
    (sessions : s'.sessions = s.sessions) (made : s'.made = s.made)
    (lives : ∀ live, (s'.lives live).name = (s.lives live).name ∧
      (s'.lives live).stopping = (s.lives live).stopping ∧
      (s'.lives live).joined = (s.lives live).joined)
    (closing : s.closing = true → s'.closing = true)
    (down : s'.down = true → s.down = true ∨ s.closing = true ∧ ∀ name, s.sessions name = none)
    (fits : pc.Fits s')
    (shuts : ∀ live < s.made, (s.lives live).joined = false → (s.pc t).Shuts live →
      pc.Shuts live ∨ ∃ u, u ≠ t ∧ (s.pc u).Shuts live)
    (joins : ∀ live, (s.pc t).joins = some live → pc.joins = some live) : Hands s' := by
  constructor
  · intro name live hmap
    rw [sessions] at hmap
    obtain ⟨hname, hstopping, hjoined⟩ := lives live
    rw [made, hname, hstopping, hjoined]
    exact h.mapped name live hmap
  · intro u
    rw [hpc]
    refine fits_update (fun u => ?_) fits u
    exact Pc.Fits.mono (h.fits u) (fun name => .inl (congrFun sessions name))
      (Nat.le_of_eq made.symm) (fun live _ => (lives live).1) closing
  · intro live hlt hjoined
    rw [made] at hlt
    rw [(lives live).2.2] at hjoined
    rw [(lives live).1, sessions, hpc]
    refine (h.held live hlt hjoined).imp_right ?_
    rintro ⟨u, hu⟩
    by_cases hut : u = t
    · subst hut
      rcases shuts live hlt hjoined hu with hs | ⟨v, hv, hs⟩
      · exact ⟨u, by simpa using hs⟩
      · exact ⟨v, by simpa [hv] using hs⟩
    · exact ⟨u, by simpa [hut] using hu⟩
  · intro live hlt hjoined hstopping
    rw [made] at hlt
    rw [(lives live).2.2] at hjoined
    rw [(lives live).2.1] at hstopping
    rw [hpc]
    exact exists_update (P := fun pc => pc.joins = some live) (h.joiner live hlt hjoined hstopping)
      (joins live)
  · intro k hk l hl hjk hjl hname
    rw [made] at hk hl
    rw [(lives k).2.2] at hjk
    rw [(lives l).2.2] at hjl
    rw [(lives k).1, (lives l).1] at hname
    exact h.single k hk l hl hjk hjl hname
  · intro hdown
    rw [sessions]
    rcases down hdown with hdown | ⟨hclosing, hmap⟩
    · exact ⟨closing (h.down hdown).1, (h.down hdown).2⟩
    · exact ⟨closing hclosing, hmap⟩

/-- A session leaves the map, and the thread that holds its gate answers for the conductor. -/
theorem Hands.remove {op : Op} {st : Stage} {conn : Option ℕ} (h : Hands s)
    (ht : s.pc t = .inside name g op st) (plain : op = .send ∨ op = .set → False)
    (own : live < s.made ∧ (s.lives live).name = name)
    (map : s.sessions name = some live ∨ s.sessions name = none) (shuts : st.shuts = none) :
    Hands ((s.remove name).setPc t (.inside name g op (.shut live conn))) := by
  have sub (n : ℕ) : (s.remove name).sessions n = s.sessions n ∨
      (s.remove name).sessions n = none := by
    by_cases hn : n = name
    · subst hn
      exact .inr (by simp [Registry.remove])
    · exact .inl (by simp [Registry.remove, hn])
  have empty : (s.remove name).sessions name = none := by simp [Registry.remove]
  constructor
  · intro n l hmap
    change (s.remove name).sessions n = some l at hmap
    refine h.mapped n l ?_
    rcases sub n with heq | hnone
    · exact heq ▸ hmap
    · rw [hnone] at hmap
      cases hmap
  · refine fits_update (fun u => Pc.Fits.mono (h.fits u) sub (Nat.le_refl _) (fun _ _ => rfl) id) ?_
    refine ⟨⟨own.1, own.2, ?_, fun _ => empty⟩, fun hop => (plain hop).elim⟩
    show (s.remove name).sessions name ≠ some live
    rw [empty]
    rintro ⟨⟩
  · intro l hlt hjoined
    have hlt' : l < s.made := hlt
    rcases h.held l hlt' hjoined with hmap | hex
    · by_cases hn : (s.lives l).name = name
      · rw [hn] at hmap
        have hl : l = live := by
          rcases map with heq | hnone
          · exact Option.some.inj (hmap.symm.trans heq)
          · rw [hnone] at hmap
            cases hmap
        subst hl
        exact .inr ⟨t, by simp [Registry.setPc, Pc.Shuts, Stage.shuts]⟩
      · refine .inl ?_
        show (s.remove name).sessions (s.lives l).name = some l
        simp only [Registry.remove, Function.update_of_ne hn]
        exact hmap
    · refine .inr (exists_update hex fun hs => ?_)
      change (s.pc t).Shuts l at hs
      rw [ht] at hs
      rw [show st.shuts = some l from hs] at shuts
      cases shuts
  · intro l hlt hjoined hstopping
    refine exists_update (P := fun pc => pc.joins = some l) (h.joiner l hlt hjoined hstopping) ?_
    intro hj
    change (s.pc t).joins = some l at hj
    rw [ht] at hj
    cases st with
    | join k c => cases shuts
    | _ => cases hj
  · exact h.single
  · intro hdown
    obtain ⟨hclosing, hmap⟩ := h.down hdown
    refine ⟨hclosing, fun n => ?_⟩
    rcases sub n with heq | hnone
    · exact heq.trans (hmap n)
    · exact hnone

/-- Until the daemon closes, a conductor is shut only within an operation on its own session. -/
theorem Hands.shuts_inside (h : Hands s) (notClosing : s.closing = false)
    (shuts : (s.pc t).Shuts live) :
    ∃ g op st, s.pc t = .inside (s.lives live).name g op st ∧ st.shuts = some live := by
  have hfits := h.fits t
  cases hpc : s.pc t with
  | inside n g op st =>
    rw [hpc] at shuts hfits
    have hst : st.shuts = some live := shuts
    have hn : (s.lives live).name = n := by
      cases st with
      | shut k c | join k c =>
        cases hst
        exact hfits.1.2.1
      | _ => cases hst
    exact ⟨g, op, st, by rw [hn], hst⟩
  | putting todo | shutting k todo | joining k todo =>
    rw [hpc] at hfits
    cases hfits.1.symm.trans notClosing
  | _ =>
    rw [hpc] at shuts
    cases shuts

/-- While an operation on a session that is not in the map shuts nothing, every conductor of that
session was joined. -/
theorem Hands.alone {op : Op} {st : Stage} (h : Hands s) (gates : Gates s)
    (ht : s.pc t = .inside name g op st) (vacant : s.sessions name = none) (idle : st.shuts = none)
    (notClosing : s.closing = false) (made : live < s.made)
    (left_ : (s.lives live).joined = false) : (s.lives live).name ≠ name := by
  rintro rfl
  rcases h.held live made left_ with hmap | ⟨u, hu⟩
  · cases vacant.symm.trans hmap
  · obtain ⟨g', op', st', hpc, hst⟩ := h.shuts_inside notClosing hu
    obtain rfl := gates.exclusive ht hpc
    rw [ht] at hpc
    cases hpc
    cases idle.symm.trans hst

theorem Hands.create_fits {op : Op} {conn : ℕ} (h : Hands s) (gates : Gates s)
    (ht : s.pc t = .inside name g op (.insert conn)) (notClosing : s.closing = false) (u : ℕ) :
    (Function.update s.pc t (.inside name g op (.start conn s.made)) u).Fits (s.create name) := by
  by_cases hu : u = t
  · subst hu
    rw [Function.update_self]
    have hfits := h.fits u
    rw [ht] at hfits
    refine ⟨⟨Nat.lt_succ_self _, ?_, .inl (create_here s name)⟩, fun hop => ?_⟩
    · rw [create_new]
    · exact absurd (hfits.2 hop) Bool.false_ne_true
  · rw [Function.update_of_ne hu]
    have hfits := h.fits u
    cases hpc : s.pc u with
    | inside n g' op' st =>
      rw [hpc] at hfits
      have hn : n ≠ name := by
        rintro rfl
        exact hu (gates.exclusive hpc ht)
      have hst := Stage.Fits.mono hfits.1 (.inl (create_there s hn)) (Nat.le_succ s.made)
        fun l hl => congrArg Live.name (create_old s name (Nat.ne_of_lt hl))
      exact ⟨hst, hfits.2⟩
    | closing =>
      rw [hpc] at hfits
      exact hfits
    | putting todo | shutting k todo | joining k todo =>
      rw [hpc] at hfits
      cases hfits.1.symm.trans notClosing
    | _ => trivial

/-- A conductor starts only where every earlier one of its session was joined. -/
theorem Hands.create {op : Op} {conn : ℕ} (h : Hands s) (gates : Gates s)
    (ht : s.pc t = .inside name g op (.insert conn)) (notClosing : s.closing = false) :
    Hands ((s.create name).setPc t (.inside name g op (.start conn s.made))) := by
  have vacant : s.sessions name = none := by
    have hfits := h.fits t
    rw [ht] at hfits
    exact hfits.1
  have old {l : ℕ} (hl : l < s.made) : (s.create name).lives l = s.lives l :=
    create_old s name (Nat.ne_of_lt hl)
  have split {l : ℕ} (hl : l < s.made + 1) : l < s.made ∨ l = s.made := Nat.lt_succ_iff_lt_or_eq.mp hl
  have alone (l : ℕ) (hl : l < s.made) (hjoined : (s.lives l).joined = false) :
      (s.lives l).name ≠ name := h.alone gates ht vacant rfl notClosing hl hjoined
  constructor
  · intro n l hmap
    change (s.create name).sessions n = some l at hmap
    show l < s.made + 1 ∧ ((s.create name).lives l).name = n ∧
      ((s.create name).lives l).stopping = false ∧ ((s.create name).lives l).joined = false
    by_cases hn : n = name
    · subst hn
      rw [create_here] at hmap
      cases hmap
      rw [create_new]
      exact ⟨Nat.lt_succ_self _, rfl, rfl, rfl⟩
    · rw [create_there s hn] at hmap
      have hold := h.mapped n l hmap
      rw [old hold.1]
      exact ⟨Nat.lt_succ_of_lt hold.1, hold.2⟩
  · exact h.create_fits gates ht notClosing
  · intro l hlt hjoined
    change l < s.made + 1 at hlt
    change ((s.create name).lives l).joined = false at hjoined
    show (s.create name).sessions ((s.create name).lives l).name = some l ∨ _
    rcases split hlt with hl | rfl
    · rw [old hl] at hjoined ⊢
      rw [create_there s (alone l hl hjoined)]
      refine (h.held l hl hjoined).imp_right fun hex => exists_update hex fun hs => ?_
      change (s.pc t).Shuts l at hs
      rw [ht] at hs
      cases hs
    · rw [create_new]
      exact .inl (create_here s name)
  · intro l hlt hjoined hstopping
    change l < s.made + 1 at hlt
    change ((s.create name).lives l).joined = false at hjoined
    change ((s.create name).lives l).stopping = true at hstopping
    rcases split hlt with hl | rfl
    · rw [old hl] at hjoined hstopping
      refine exists_update (P := fun pc => pc.joins = some l) (h.joiner l hl hjoined hstopping) ?_
      intro hj
      change (s.pc t).joins = some l at hj
      rw [ht] at hj
      cases hj
    · rw [create_new] at hstopping
      cases hstopping
  · intro k hk l hl hjk hjl hname
    change k < s.made + 1 at hk
    change l < s.made + 1 at hl
    change ((s.create name).lives k).joined = false at hjk
    change ((s.create name).lives l).joined = false at hjl
    change ((s.create name).lives k).name = ((s.create name).lives l).name at hname
    rcases split hk with hk | rfl
    · rw [old hk] at hjk hname
      rcases split hl with hl | rfl
      · rw [old hl] at hjl hname
        exact h.single k hk l hl hjk hjl hname
      · rw [create_new] at hname
        exact absurd hname (alone k hk hjk)
    · rcases split hl with hl | rfl
      · rw [old hl] at hjl hname
        rw [create_new] at hname
        exact absurd hname.symm (alone l hl hjl)
      · rfl
  · intro hdown
    rw [(h.down hdown).1] at notClosing
    cases notClosing

theorem shuts_of_joins {pc : Pc} (h : pc.joins = some live) : pc.Shuts live := by
  cases pc with
  | inside n g op st =>
    cases st with
    | join k c => exact h
    | _ => cases h
  | joining k todo => exact .inl (Option.some.inj h).symm
  | _ => cases h

/-- A conductor outside the map is marked as stopping by the thread that will join it, or was
joined. -/
theorem Hands.mark {pc : Pc} {l : Live} (h : Hands s) (same : l.name = (s.lives live).name)
    (out : ∀ n, s.sessions n ≠ some live) (fits : pc.Fits s)
    (stop : l.joined = true ∨ l.joined = (s.lives live).joined ∧ pc.joins = some live)
    (shuts : ∀ k, k ≠ live → (s.pc t).Shuts k → pc.Shuts k)
    (joins : ∀ k, k ≠ live → (s.pc t).joins = some k → pc.joins = some k) :
    Hands ((s.setLive live l).setPc t pc) := by
  have names (k : ℕ) : ((s.setLive live l).lives k).name = (s.lives k).name := by
    by_cases hk : k = live
    · subst hk
      simpa [setLive] using same
    · simp [setLive, hk]
  have other {k : ℕ} (hk : k ≠ live) : (s.setLive live l).lives k = s.lives k := by
    simp [setLive, hk]
  have self : (s.setLive live l).lives live = l := by simp [setLive]
  have joined (k : ℕ) (hj : ((s.setLive live l).lives k).joined = false) :
      (s.lives k).joined = false ∧ (k = live → pc.joins = some live) := by
    by_cases hk : k = live
    · subst hk
      rw [self] at hj
      rcases stop with htrue | ⟨heq, hpc⟩
      · rw [htrue] at hj
        cases hj
      · exact ⟨heq ▸ hj, fun _ => hpc⟩
    · rw [other hk] at hj
      exact ⟨hj, fun e => absurd e hk⟩
  have fits' {p : Pc} (hp : p.Fits s) : p.Fits (s.setLive live l) :=
    Pc.Fits.mono hp (fun _ => .inl rfl) (Nat.le_refl _) (fun k _ => names k) id
  constructor
  · intro n k hmap
    have hk : k ≠ live := by
      rintro rfl
      exact out n hmap
    show k < s.made ∧ ((s.setLive live l).lives k).name = n ∧
      ((s.setLive live l).lives k).stopping = false ∧
      ((s.setLive live l).lives k).joined = false
    rw [other hk]
    exact h.mapped n k hmap
  · exact fits_update (fun u => fits' (h.fits u)) (fits' fits)
  · intro k hk hj
    obtain ⟨hold, hpc⟩ := joined k hj
    change s.sessions ((s.setLive live l).lives k).name = some k ∨ _
    rw [names]
    by_cases hkl : k = live
    · subst hkl
      exact .inr ⟨t, by simpa [Registry.setPc] using shuts_of_joins (hpc rfl)⟩
    · refine (h.held k hk hold).imp_right fun hex => ?_
      exact exists_update hex (shuts k hkl)
  · intro k hk hj hstopping
    obtain ⟨hold, hpc⟩ := joined k hj
    by_cases hkl : k = live
    · subst hkl
      exact ⟨t, by simpa [Registry.setPc] using hpc rfl⟩
    · change ((s.setLive live l).lives k).stopping = true at hstopping
      rw [other hkl] at hstopping
      exact exists_update (P := fun pc => pc.joins = some k) (h.joiner k hk hold hstopping)
        (joins k hkl)
  · intro k hk m hm hjk hjm hname
    change ((s.setLive live l).lives k).name = ((s.setLive live l).lives m).name at hname
    rw [names, names] at hname
    exact h.single k hk m hm (joined k hjk).1 (joined m hjm).1 hname
  · exact h.down

/-- Shutdown takes the whole map. -/
theorem Hands.take (h : Hands s) (ht : s.pc t = .closing) :
    Hands ({ s with sessions := fun _ => none }.setPc t (.putting s.opened)) := by
  have hclosing : s.closing = true := by
    have hfits := h.fits t
    rw [ht] at hfits
    exact hfits
  constructor
  · rintro _ _ ⟨⟩
  · refine fits_update (fun u => Pc.Fits.mono (h.fits u) (fun _ => .inr rfl) (Nat.le_refl _)
      (fun _ _ => rfl) id) ⟨hclosing, fun _ => rfl, fun l hl => ?_⟩
    exact List.mem_range.mp (List.mem_filter.mp hl).1
  · intro l hlt hjoined
    rcases h.held l hlt hjoined with hmap | hex
    · refine .inr ⟨t, ?_⟩
      have hmem : l ∈ s.opened :=
        List.mem_filter.mpr ⟨List.mem_range.mpr hlt, decide_eq_true hmap⟩
      simpa [Registry.setPc, Pc.Shuts] using hmem
    · refine .inr (exists_update hex fun hs => ?_)
      change (s.pc t).Shuts l at hs
      rw [ht] at hs
      cases hs
  · intro l hlt hjoined hstopping
    refine exists_update (P := fun pc => pc.joins = some l) (h.joiner l hlt hjoined hstopping) ?_
    intro hj
    change (s.pc t).joins = some l at hj
    rw [ht] at hj
    cases hj
  · exact h.single
  · exact fun _ => ⟨hclosing, fun _ => rfl⟩

/-- A thread moves on, and answers for the same conductors. -/
theorem Hands.stay {pc : Pc} (h : Hands s) (fits : pc.Fits s)
    (shuts : ∀ live, (s.pc t).Shuts live → pc.Shuts live)
    (joins : ∀ live, (s.pc t).joins = some live → pc.joins = some live) :
    Hands (s.setPc t pc) :=
  h.quiet rfl rfl rfl (fun _ => ⟨rfl, rfl, rfl⟩) id .inl
    (Pc.Fits.mono fits (fun _ => .inl rfl) (Nat.le_refl _) (fun _ _ => rfl) id)
    (fun live _ _ hs => .inl (shuts live hs)) joins

/-- An operation moves on where it answers for no conductor. -/
theorem Hands.move {op : Op} {st st' : Stage} (h : Hands s) (ht : s.pc t = .inside name g op st)
    (fits : st'.Fits s name) (plain : op = .send ∨ op = .set → st'.plain)
    (shuts : st.shuts = none) : Hands (s.setPc t (.inside name g op st')) := by
  refine h.stay ⟨fits, plain⟩ (fun live hs => ?_) fun live hj => ?_
  · rw [ht] at hs
    rw [show st.shuts = some live from hs] at shuts
    cases shuts
  · rw [ht] at hj
    have hs : st.shuts = some live := shuts_of_joins hj
    rw [hs] at shuts
    cases shuts

/-- A conductor's listeners change. -/
theorem Hands.listen {l : Live} (h : Hands s) (name : l.name = (s.lives live).name)
    (stopping : l.stopping = (s.lives live).stopping) (joined : l.joined = (s.lives live).joined) :
    Hands (s.setLive live l) := by
  refine h.quiet (t := 0) (Function.update_eq_self 0 s.pc).symm rfl rfl ?_ id .inl ?_
    (fun _ _ _ hs => .inl hs) (fun _ hj => hj)
  · intro k
    by_cases hk : k = live
    · subst hk
      simpa [setLive] using ⟨name, stopping, joined⟩
    · simp [setLive, hk]
  · refine Pc.Fits.mono (h.fits 0) (fun _ => .inl rfl) (Nat.le_refl _) (fun k _ => ?_) id
    by_cases hk : k = live
    · subst hk
      simpa [setLive] using name
    · simp [setLive, hk]

theorem attached_name (l : Live) (conn now : ℕ) (closed : Bool) :
    (l.attached conn now closed).name = l.name ∧
    (l.attached conn now closed).stopping = l.stopping ∧
    (l.attached conn now closed).joined = l.joined := by
  cases closed <;> exact ⟨rfl, rfl, rfl⟩

theorem refused_fits {fresh : Bool} (conn : ℕ) (h : Stage.Fits s name (.attach conn live fresh)) :
    (refused live fresh).Fits s name := by
  cases fresh with
  | false => trivial
  | true => exact h

theorem replay_fits {fresh : Bool} {conn : ℕ} (h : Stage.Fits s name (.attach conn live fresh)) :
    Stage.Fits s name (.replay conn live fresh) := by
  cases fresh <;> exact h

theorem after_fits {conn : Option ℕ} (h : conn ≠ none → s.sessions name = none) :
    (after conn).Fits s name := by
  cases conn with
  | none => trivial
  | some c => exact h (by rintro ⟨⟩)

/-- `stop_locked_if` takes the session out of the map, or leaves everything as it is. -/
theorem Hands.stopLockedIf {op : Op} {ok : ℕ → Bool} {st' : Stage} (h : Hands s)
    (ht : s.pc t = .inside name g op .begin) (plain : op = .send ∨ op = .set → False)
    (hstep : s.stopLockedIf name ok = some (s', st')) :
    Hands (s'.setPc t (.inside name g op st')) := by
  unfold Registry.stopLockedIf at hstep
  split_ifs at hstep
  split at hstep
  · rename_i live hmap
    split_ifs at hstep
    · cases hstep
      have hown := h.mapped name live hmap
      exact h.remove ht plain ⟨hown.1, hown.2.1⟩ (.inl hmap) rfl
    · cases hstep
      exact h.move ht trivial (fun hop => (plain hop).elim) rfl
  · cases hstep
    exact h.move ht trivial (fun hop => (plain hop).elim) rfl

theorem Hands.begin {op : Op} {ok : Bool} {st' : Stage} (h : Hands s)
    (ht : s.pc t = .inside name g op .begin) (hstep : s.body name op ok .begin = some (s', st')) :
    Hands (s'.setPc t (.inside name g op st')) := by
  simp only [Registry.body] at hstep
  split at hstep
  · cases hstep
    refine h.move ht ?_ (by rintro (hop | hop) <;> cases hop) rfl
    split_ifs <;> trivial
  · split_ifs at hstep
    split at hstep
    · rename_i live hmap
      cases hstep
      have hown := h.mapped name live hmap
      exact h.move ht ⟨hown.1, hown.2.1⟩ (fun _ => rfl) rfl
    · cases hstep
      exact h.move ht trivial (fun _ => rfl) rfl
  · split_ifs at hstep
    split at hstep
    · rename_i live hmap
      cases hstep
      have hown := h.mapped name live hmap
      exact h.move ht ⟨hown.1, hown.2.1⟩ (fun _ => rfl) rfl
    · cases hstep
      exact h.move ht trivial (fun _ => rfl) rfl
  · exact h.stopLockedIf ht (by rintro (hop | hop) <;> cases hop) hstep
  · exact h.stopLockedIf ht (by rintro (hop | hop) <;> cases hop) hstep

theorem Hands.attach {op : Op} {ok : Bool} {conn : ℕ} {fresh : Bool} {st' : Stage} (h : Hands s)
    (ht : s.pc t = .inside name g op (.attach conn live fresh)) (plain : op = .send ∨ op = .set → False)
    (hstep : s.body name op ok (.attach conn live fresh) = some (s', st')) :
    Hands (s'.setPc t (.inside name g op st')) := by
  have hfits := h.fits t
  rw [ht] at hfits
  have hfit := hfits.1
  simp only [Registry.body] at hstep
  split_ifs at hstep
  · cases hstep
    exact h.move ht (refused_fits conn hfit) (fun hop => (plain hop).elim) rfl
  · cases hstep
    have hlisten : Hands (s.setLive live { s.lives live with
        listeners := (s.lives live).without conn, attaching := some conn }) :=
      h.listen rfl rfl rfl
    refine hlisten.move ht ?_ (fun hop => (plain hop).elim) rfl
    exact Stage.Fits.mono (replay_fits hfit) (.inl rfl) (Nat.le_refl _) fun k _ => by
      by_cases hk : k = live
      · subst hk
        simp [setLive]
      · simp [setLive, hk]

theorem Hands.replay {op : Op} {ok : Bool} {conn : ℕ} {fresh : Bool} {st' : Stage} (h : Hands s)
    (ht : s.pc t = .inside name g op (.replay conn live fresh)) (plain : op = .send ∨ op = .set → False)
    (hstep : s.body name op ok (.replay conn live fresh) = some (s', st')) :
    Hands (s'.setPc t (.inside name g op st')) := by
  have hfits := h.fits t
  rw [ht] at hfits
  have hfit := hfits.1
  simp only [Registry.body] at hstep
  cases hstep
  have hsame := attached_name (s.lives live) conn s.now (s.closed conn)
  have hlisten := h.listen hsame.1 hsame.2.1 hsame.2.2
  refine hlisten.move ht ?_ (fun hop => (plain hop).elim) rfl
  split_ifs
  · refine Stage.Fits.mono (s := s) (refused_fits conn ?_) (.inl rfl) (Nat.le_refl _)
      fun k _ => ?_
    · cases fresh <;> exact hfit
    · by_cases hk : k = live
      · subst hk
        simpa [setLive] using hsame.1
      · simp [setLive, hk]
  · trivial

theorem Hands.shut {op : Op} {ok : Bool} {conn : Option ℕ} {st' : Stage} (h : Hands s)
    (ht : s.pc t = .inside name g op (.shut live conn)) (plain : op = .send ∨ op = .set → False)
    (hstep : s.body name op ok (.shut live conn) = some (s', st')) :
    Hands (s'.setPc t (.inside name g op st')) := by
  have hfits := h.fits t
  rw [ht] at hfits
  have hfit := hfits.1
  simp only [Registry.body] at hstep
  obtain ⟨hlt, hname, hout, hconn⟩ := hfit
  split_ifs at hstep with hattaching hstopping
  · cases hstep
    refine h.quiet rfl rfl rfl (fun _ => ⟨rfl, rfl, rfl⟩)
      id .inl ⟨after_fits hconn, fun hop => (plain hop).elim⟩ ?_ ?_
    · intro k hk hj hs
      rw [ht] at hs
      obtain rfl : live = k := Option.some.inj hs
      obtain ⟨u, hu⟩ := h.joiner live hk hj hstopping
      refine .inr ⟨u, ?_, shuts_of_joins hu⟩
      rintro rfl
      rw [ht] at hu
      cases hu
    · intro k hk
      rw [ht] at hk
      cases hk
  · cases hstep
    refine h.mark rfl (fun n hmap => ?_) ⟨⟨hlt, hname, hout, hconn⟩, fun hop => (plain hop).elim⟩
      (.inr ⟨rfl, rfl⟩) (fun k hk hs => ?_) (fun k hk hj => ?_)
    · rw [(h.mapped n live hmap).2.1] at hname
      exact hout (hname ▸ hmap)
    · rw [ht] at hs
      exact absurd (Option.some.inj hs).symm hk
    · rw [ht] at hj
      cases hj

theorem Hands.join {op : Op} {ok : Bool} {conn : Option ℕ} {st' : Stage} (h : Hands s)
    (ht : s.pc t = .inside name g op (.join live conn)) (plain : op = .send ∨ op = .set → False)
    (hstep : s.body name op ok (.join live conn) = some (s', st')) :
    Hands (s'.setPc t (.inside name g op st')) := by
  have hfits := h.fits t
  rw [ht] at hfits
  have hfit := hfits.1
  simp only [Registry.body] at hstep
  obtain ⟨hlt, hname, hout, hconn⟩ := hfit
  split_ifs at hstep
  cases hstep
  refine h.mark rfl (fun n hmap => ?_) ⟨after_fits hconn, fun hop => (plain hop).elim⟩
    (.inl rfl) (fun k hk hs => ?_) (fun k hk hj => ?_)
  · rw [(h.mapped n live hmap).2.1] at hname
    exact hout (hname ▸ hmap)
  · rw [ht] at hs
    exact absurd (Option.some.inj hs).symm hk
  · rw [ht] at hj
    exact absurd (Option.some.inj hj).symm hk

theorem Hands.body {op : Op} {ok : Bool} {st st' : Stage} (h : Hands s) (gates : Gates s)
    (ht : s.pc t = .inside name g op st) (hstep : s.body name op ok st = some (s', st')) :
    Hands (s'.setPc t (.inside name g op st')) := by
  have hfits := h.fits t
  rw [ht] at hfits
  obtain ⟨hfit, hplain⟩ := hfits
  -- only the opening, the stopping and the reaping go past these stages
  have other (hst : st.plain = false) (hop : op = .send ∨ op = .set) : False := by
    rw [hplain hop] at hst
    cases hst
  cases st with
  | begin => exact h.begin ht hstep
  | look conn =>
    simp only [Registry.body] at hstep
    split_ifs at hstep
    split at hstep
    · rename_i live hmap
      have hown := h.mapped name live hmap
      split_ifs at hstep
      · cases hstep
        exact h.remove ht (other rfl) ⟨hown.1, hown.2.1⟩ (.inl hmap) rfl
      · cases hstep
        exact h.move ht ⟨hown.1, hown.2.1⟩ (fun hop => (other rfl hop).elim) rfl
    · rename_i hmap
      cases hstep
      exact h.move ht hmap (fun hop => (other rfl hop).elim) rfl
  | configure conn live =>
    simp only [Registry.body] at hstep
    cases hstep
    refine h.move ht ?_ (fun hop => (other rfl hop).elim) rfl
    split_ifs
    · exact hfit
    · trivial
  | attach conn live fresh => exact h.attach ht (other rfl) hstep
  | replay conn live fresh => exact h.replay ht (other rfl) hstep
  | discover conn =>
    simp only [Registry.body] at hstep
    cases hstep
    refine h.move ht ?_ (fun hop => (other rfl hop).elim) rfl
    split_ifs
    · trivial
    · exact hfit
  | insert conn =>
    simp only [Registry.body] at hstep
    split_ifs at hstep with hlock hok
    · cases hstep
      exact h.move ht trivial (fun hop => (other rfl hop).elim) rfl
    · cases hstep
      have hclosing : s.closing = false := by
        cases hc : s.closing with
        | false => rfl
        | true => exact absurd (.inl hc) hok
      exact h.create gates ht hclosing
  | start conn live =>
    simp only [Registry.body] at hstep
    cases hstep
    refine h.move ht ?_ (fun hop => (other rfl hop).elim) rfl
    split_ifs <;> exact hfit
  | abandon live =>
    simp only [Registry.body] at hstep
    split_ifs at hstep
    cases hstep
    exact h.remove ht (other rfl) ⟨hfit.1, hfit.2.1⟩ hfit.2.2 rfl
  | shut live conn => exact h.shut ht (other rfl) hstep
  | join live conn => exact h.join ht (other rfl) hstep
  | ask live =>
    simp only [Registry.body] at hstep
    cases hstep
    exact h.move ht trivial (fun _ => rfl) rfl
  | done => cases hstep

theorem Hands.gate {op : Op} (h : Hands s) (shuts : ∀ live, ¬(s.pc t).Shuts live) :
    Hands (s.gate t name op) := by
  have joins {live : ℕ} (hj : (s.pc t).joins = some live) : False := shuts live (shuts_of_joins hj)
  unfold Registry.gate
  split
  · exact h.quiet rfl rfl rfl (fun _ => ⟨rfl, rfl, rfl⟩) id .inl trivial
      (fun live _ _ hs => (shuts live hs).elim) (fun live hj => (joins hj).elim)
  · exact h.quiet rfl rfl rfl (fun _ => ⟨rfl, rfl, rfl⟩) id .inl trivial
      (fun live _ _ hs => (shuts live hs).elim) (fun live hj => (joins hj).elim)

/-- Steps of threads that answer for no conductor, before and after. -/
theorem Hands.idle {pc : Pc} (h : Hands s) (hpc : s'.pc = Function.update s.pc t pc)
    (sessions : s'.sessions = s.sessions) (made : s'.made = s.made) (lives : s'.lives = s.lives)
    (closing : s.closing = true → s'.closing = true)
    (down : s'.down = true → s.down = true ∨ s.closing = true ∧ ∀ name, s.sessions name = none)
    (fits : pc.Fits s') (shuts : ∀ live, ¬(s.pc t).Shuts live) : Hands s' :=
  h.quiet hpc sessions made (fun live => by rw [lives]; exact ⟨rfl, rfl, rfl⟩) closing down fits
    (fun live _ _ hs => (shuts live hs).elim)
    (fun live hj => (shuts live (shuts_of_joins hj)).elim)

theorem not_shuts {pc : Pc} (ht : s.pc t = pc) (shuts : ∀ live, ¬pc.Shuts live) (live : ℕ) :
    ¬(s.pc t).Shuts live := by
  rw [ht]
  exact shuts live

theorem home_fits (op : Op) : (home op).Fits s := by
  cases op <;> trivial

/-- Shutdown takes up one of the conductors that it took out of the map. -/
theorem Hands.put {todo : List ℕ} (h : Hands s) (putting : s.pc t = .putting todo)
    (due : live ∈ todo) : Hands (s.setPc t (.shutting live (todo.erase live))) := by
  have hfits := h.fits t
  rw [putting] at hfits
  refine h.stay ⟨hfits.1, hfits.2.1, fun l hl => ?_⟩ (fun l hs => ?_) (fun l hj => ?_)
  · rcases List.mem_cons.mp hl with rfl | hl
    · exact hfits.2.2 l due
    · exact hfits.2.2 l (List.mem_of_mem_erase hl)
  · rw [putting] at hs
    by_cases hl : l = live
    · exact .inl hl
    · exact .inr ((List.mem_erase_of_ne hl).mpr hs)
  · rw [putting] at hj
    cases hj

/-- Shutdown leaves a conductor to the thread that told it to stop. -/
theorem Hands.pass {todo : List ℕ} (h : Hands s) (shutting : s.pc t = .shutting live todo)
    (stopping : (s.lives live).stopping = true) : Hands (s.setPc t (.putting todo)) := by
  have hfits := h.fits t
  rw [shutting] at hfits
  obtain ⟨hclosing, hempty, hmade⟩ := hfits
  refine h.quiet rfl rfl rfl (fun _ => ⟨rfl, rfl, rfl⟩) id .inl
    ⟨hclosing, hempty, fun l hl => hmade l (List.mem_cons_of_mem _ hl)⟩ ?_ ?_
  · intro l hl hj hs
    rw [shutting] at hs
    rcases hs with rfl | hs
    · obtain ⟨u, hu⟩ := h.joiner l hl hj stopping
      refine .inr ⟨u, ?_, shuts_of_joins hu⟩
      rintro rfl
      rw [shutting] at hu
      cases hu
    · exact .inl hs
  · intro l hj
    rw [shutting] at hj
    cases hj

theorem Hands.swap {todo : List ℕ} (h : Hands s) (shutting : s.pc t = .shutting live todo) :
    Hands ((s.setLive live { s.lives live with stopping := true }).setPc t
      (.joining live todo)) := by
  have hfits := h.fits t
  rw [shutting] at hfits
  refine h.mark rfl (fun n hmap => ?_) hfits (.inr ⟨rfl, rfl⟩) (fun k hk hs => ?_)
    (fun k hk hj => ?_)
  · rw [hfits.2.1] at hmap
    cases hmap
  · rw [shutting] at hs
    exact hs
  · rw [shutting] at hj
    cases hj

theorem Hands.joined {todo : List ℕ} (h : Hands s) (joining : s.pc t = .joining live todo) :
    Hands ((s.setLive live { s.lives live with joined := true }).setPc t (.putting todo)) := by
  have hfits := h.fits t
  rw [joining] at hfits
  obtain ⟨hclosing, hempty, hmade⟩ := hfits
  refine h.mark rfl (fun n hmap => ?_)
    ⟨hclosing, hempty, fun l hl => hmade l (List.mem_cons_of_mem _ hl)⟩ (.inl rfl)
    (fun k hk hs => ?_) (fun k hk hj => ?_)
  · rw [hempty] at hmap
    cases hmap
  · rw [joining] at hs
    exact hs.resolve_left hk
  · rw [joining] at hj
    exact absurd (Option.some.inj hj).symm hk

/-- No thread moves, nor does a conductor. -/
theorem Hands.still (h : Hands s) (pc : s'.pc = s.pc) (sessions : s'.sessions = s.sessions)
    (made : s'.made = s.made) (lives : s'.lives = s.lives) (closing : s'.closing = s.closing)
    (down : s'.down = s.down) : Hands s' := by
  have here : s'.pc = Function.update s.pc 0 (s.pc 0) := by rw [pc, Function.update_eq_self]
  refine h.quiet here sessions made (fun live => by rw [lives]; exact ⟨rfl, rfl, rfl⟩)
    (fun set_ => closing.trans set_) (fun set_ => .inl (down.symm.trans set_)) ?_
    (fun _ _ _ hs => .inl hs) fun _ hj => hj
  exact Pc.Fits.mono (h.fits 0) (fun name => .inl (congrFun sessions name)) (Nat.le_of_eq made.symm)
    (fun live _ => by rw [lives]) fun set_ => closing.trans set_

theorem Hands.step {act : Act} (h : Hands s) (gates : Gates s) (hstep : s.step act = some s') :
    Hands s' := by
  cases moves_of_step hstep with
  | call idle => exact h.gate (not_shuts idle fun _ => id)
  | reap idle | forget idle =>
    exact h.idle rfl rfl rfl rfl id .inl trivial (not_shuts idle fun _ => id)
  | next reaping => exact h.gate (not_shuts reaping fun _ => id)
  | enter waiting =>
    exact h.idle rfl rfl rfl rfl id .inl ⟨trivial, fun _ => rfl⟩ (not_shuts waiting fun _ => id)
  | go inside does => exact h.body gates inside does
  | reclaim done =>
    exact h.idle rfl rfl rfl rfl id .inl trivial (not_shuts done fun _ => (by rintro ⟨⟩))
  | unlock leaving =>
    exact h.idle rfl rfl rfl rfl id .inl trivial (not_shuts leaving fun _ => id)
  | drop gone => exact h.idle rfl rfl rfl rfl id .inl (home_fits _) (not_shuts gone fun _ => id)
  | @visit t live conn todo forgetting =>
    have hlisten : Hands (s.setLive live ((s.lives live).detach conn s.now)) :=
      h.listen rfl rfl rfl
    exact hlisten.idle rfl rfl rfl rfl id .inl trivial (not_shuts forgetting fun _ => id)
  | shutdown idle =>
    exact h.idle rfl rfl rfl rfl (fun _ => rfl) .inl rfl (not_shuts idle fun _ => id)
  | take closing => exact h.take closing
  | put putting due => exact h.put putting due
  | pass shutting settled stopping => exact h.pass shutting stopping
  | swap shutting => exact h.swap shutting
  | join joining => exact h.joined joining
  | reaped reaping =>
    exact h.idle rfl rfl rfl rfl id .inl trivial (not_shuts reaping fun _ => id)
  | forgot forgetting =>
    exact h.idle rfl rfl rfl rfl id .inl trivial (not_shuts forgetting fun _ => id)
  | @emptied t putting =>
    have hfits := h.fits t
    rw [putting] at hfits
    exact h.idle rfl rfl rfl rfl id (fun _ => .inr ⟨hfits.1, hfits.2.1⟩) trivial
      (not_shuts putting fun _ => (by rintro ⟨⟩))
  | close | tick => exact h.still rfl rfl rfl rfl rfl rfl
  | detach | stir | halt | exit => exact h.listen rfl rfl rfl

theorem reach_hands (h : machine.Reach (fun _ _ => True) s) : Hands s := by
  refine h.invariant ?_ fun _ _ _ hr hinv _ hstep => hinv.step (reach_gates hr) hstep
  rintro _ rfl
  exact Hands.init

/-- One conductor a session and one operation at a time; none is left after a shutdown, once the
operations that were under way have returned. -/
structure OneConductor (s : Registry) : Prop where
  single : ∀ k < s.made, ∀ l < s.made, (s.lives k).joined = false → (s.lives l).joined = false →
    (s.lives k).name = (s.lives l).name → k = l
  exclusive : ∀ t u name g g' op op' st st', s.pc t = .inside name g op st →
    s.pc u = .inside name g' op' st' → t = u
  gone : s.down = true → (∀ t, ¬(s.pc t).Lifecycle) →
    ∀ live < s.made, (s.lives live).joined = true

theorem lifecycle_of_shuts {pc : Pc} (fits : pc.Fits s) (h : pc.Shuts live) : pc.Lifecycle := by
  cases pc with
  | inside n g op st =>
    have hst : st.plain = false := by
      cases st with
      | shut | join => rfl
      | _ => cases h
    have hop : ¬(op = .send ∨ op = .set) := by
      intro hop
      rw [fits.2 hop] at hst
      cases hst
    exact not_or.mp hop
  | putting todo => trivial
  | shutting k todo => trivial
  | joining k todo => trivial
  | _ => cases h

/-- However calls, reaps and shutdowns interleave, a session has one conductor at most, and one
operation at a time. -/
theorem one_conductor (h : machine.Reach (fun _ _ => True) s) : s.OneConductor := by
  have hands := reach_hands h
  have gates := reach_gates h
  refine ⟨hands.single, fun t u name g g' op op' st st' => gates.exclusive, ?_⟩
  intro hdown hidle live hlt
  by_contra hjoined
  rcases hands.held live hlt (Bool.eq_false_iff.mpr hjoined) with hmap | ⟨t, ht⟩
  · rw [(hands.down hdown).2] at hmap
    cases hmap
  · exact hidle t (lifecycle_of_shuts (hands.fits t) ht)

/-- A shutdown after an open and a stop leaves nothing behind. -/
theorem one_conductor_shutdown :
    ∃ s : Registry, s.OneConductor ∧ s.down = true ∧ s.made = 1 ∧ (s.lives 0).joined = true := by
  let moves : List Act :=
    [.call 0 7 (.open 0), .enter 0, .go 0 true, .go 0 true, .go 0 true, .go 0 true, .go 0 true,
      .go 0 true, .go 0 true, .reclaim 0, .unlock 0, .drop 0, .shutdown 2, .take 2, .put 2 0,
      .swap 2, .exit 0, .join 2, .finish 2]
  have run : ∃ s, machine.exec {} moves = some s ∧ s.down = true ∧ s.made = 1 ∧
      (s.lives 0).joined = true :=
    ⟨_, Option.eq_some_of_isSome (by decide +kernel), by decide +kernel, by decide +kernel,
      by decide +kernel⟩
  obtain ⟨s, hrun, hdown, hmade, hjoined⟩ := run
  have along := Lib.Machine.along_of_forall (M := machine) (fun _ _ => trivial) {} moves
  exact ⟨s, one_conductor ((Lib.Machine.Reach.init rfl).exec along hrun), hdown, hmade, hjoined⟩

/-- The thread that takes a step. -/
def Act.thread : Act → Option ℕ
  | call t .. | reap t _ | next t _ | enter t | go t _ | reclaim t | unlock t | drop t
  | forget t _ | visit t _ | shutdown t | take t | put t _ | swap t | join t | finish t => some t
  | detach .. | close _ | tick | stir .. | halt _ | exit _ => none

/-- No other thread moves. -/
theorem step_pc {act : Act} {u : ℕ} (h : s.step act = some s') (hu : act.thread ≠ some u) :
    s'.pc u = s.pc u := by
  have other {pc : Pc} {f : ℕ → Pc} {t : ℕ} (ht : act.thread = some t) :
      Function.update f t pc u = f u := by
    refine Function.update_of_ne ?_ ..
    rintro rfl
    exact hu ht
  cases moves_of_step h with
  | @go _ _ _ _ _ _ _ r _ does =>
    have hpc : r.pc = s.pc := by rw [body_frame does]
    exact (other rfl).trans (congrFun hpc u)
  | call | next =>
    unfold Registry.gate
    split <;> exact other rfl
  | detach | close | tick | stir | halt | exit => rfl
  | _ => exact other rfl

theorem exec_pc {acts : List Act} {u : ℕ} (h : machine.exec s acts = some s')
    (hu : ∀ act ∈ acts, act.thread ≠ some u) : s'.pc u = s.pc u := by
  induction acts generalizing s with
  | nil => exact congrArg (·.pc u) (Option.some.inj h).symm
  | cons act acts ih =>
    obtain ⟨r, hr, hrest⟩ := Option.bind_eq_some_iff.mp h
    rw [ih hrest fun a ha => hu a (List.mem_cons_of_mem _ ha)]
    exact step_pc hr (hu act List.mem_cons_self)

/-- Threads that no step names are where they were. -/
theorem exec_pc_of_lt {acts : List Act} {n u : ℕ} (h : machine.exec s acts = some s')
    (hacts : ∀ act ∈ acts, ∀ t ∈ act.thread, t < n) (hu : ¬u < n) : s'.pc u = s.pc u := by
  refine exec_pc h fun act hact hthread => hu ?_
  exact hacts act hact u hthread

/-- The thread is in a call of `open`. -/
def opening : Pc → Bool
  | .waiting _ _ (.open _) | .inside _ _ (.open _) _ | .leaving _ (.open _)
  | .left _ (.open _) => true
  | _ => false

/-- A stop has taken the conductor out of the map and waits for it; a shutdown finds an empty map
and returns, and no open is pending. -/
theorem shutdown_during_stop :
    ∃ s : Registry, machine.Reach (fun _ _ => True) s ∧ s.down = true ∧
      (∀ t, opening (s.pc t) = false) ∧ 0 < s.made ∧ (s.lives 0).ended = false ∧
      (s.lives 0).joined = false := by
  let moves : List Act :=
    [.call 0 7 (.open 0), .enter 0, .go 0 true, .go 0 true, .go 0 true, .go 0 true, .go 0 true,
      .go 0 true, .go 0 true, .reclaim 0, .unlock 0, .drop 0, .call 1 7 .stop, .enter 1, .go 1 true,
      .go 1 true, .shutdown 2, .take 2, .finish 2]
  have run : ∃ s, machine.exec {} moves = some s ∧ s.down = true ∧ 0 < s.made ∧
      (s.lives 0).ended = false ∧ (s.lives 0).joined = false ∧
      ∀ t < 3, opening (s.pc t) = false :=
    ⟨_, Option.eq_some_of_isSome (by decide +kernel), by decide +kernel, by decide +kernel,
      by decide +kernel, by decide +kernel, by decide +kernel⟩
  obtain ⟨s, hrun, hdown, hmade, hended, hjoined, hpc⟩ := run
  have along := Lib.Machine.along_of_forall (M := machine) (fun _ _ => trivial) {} moves
  refine ⟨s, (Lib.Machine.Reach.init rfl).exec along hrun, hdown, fun t => ?_, hmade, hended,
    hjoined⟩
  by_cases ht : t < 3
  · exact hpc t ht
  · rw [exec_pc_of_lt hrun (by decide) ht]
    rfl

end Registry
end SiliconOmni.Daemon
