import SiliconOmni.Daemon.Lifecycle

/-! Who listens to the live sessions, and since when nobody does. -/
namespace SiliconOmni.Daemon

/-- The conductor that a stage of an open made, or attaches to. -/
def Stage.opens : Stage → Option ℕ
  | start _ live | attach _ live true | replay _ live _ | abandon live => some live
  | _ => none

/-- The stages that only an open comes to. -/
def Stage.ofOpen : Stage → Bool
  | look _ | configure .. | attach .. | replay .. | discover _ | insert _ | start .. | abandon _ =>
      true
  | shut _ conn | join _ conn => conn.isSome
  | begin | ask _ | done => false

/-- The thread's open has this conductor in its hands. -/
def Pc.Opens (live : ℕ) : Pc → Prop
  | inside _ _ (.open _) stage => stage.opens = some live
  | _ => False

/-- Only an open is at the stages of an open. -/
def Pc.Only : Pc → Prop
  | inside _ _ op stage => stage.ofOpen = true → ∃ conn, op = .open conn
  | _ => True

namespace Registry
variable {s s' : Registry} {t name g live : ℕ}

/-- What keeps the listener lists and the idle clocks in order. -/
structure Ears (s : Registry) : Prop where
  lock : ∀ t conn todo, s.pc t = .forgetting conn todo → s.lock = some t ∧ s.closed conn = true
  forgot : ∀ conn, s.forgotten conn = true → s.closed conn = true
  deaf : ∀ name live, s.sessions name = some live → ∀ conn ∈ (s.lives live).listeners,
    s.forgotten conn = false ∧ ∀ t todo, s.pc t = .forgetting conn todo → live ∈ todo
  clock : ∀ name live, s.sessions name = some live → (s.lives live).listeners = [] →
    (s.lives live).alone = none → ∃ t, (s.pc t).Opens live
  only : ∀ t, (s.pc t).Only

theorem Ears.init : Ears {} := by
  constructor <;> simp [Pc.Only]

/-- Steps after which every list and every clock is as good as before. -/
theorem Ears.quiet {pc : Pc} (h : Ears s) (hpc : s'.pc = Function.update s.pc t pc)
    (sub : ∀ name live, s'.sessions name = some live → s.sessions name = some live)
    (ears : ∀ name live, s'.sessions name = some live →
      (s'.lives live).listeners ⊆ (s.lives live).listeners)
    (clock : ∀ name live, s'.sessions name = some live → (s'.lives live).listeners = [] →
      (s'.lives live).alone = none → pc.Opens live ∨ (s.lives live).listeners = [] ∧
        (s.lives live).alone = none ∧ ((s.pc t).Opens live → pc.Opens live))
    (closed : ∀ conn, s.closed conn = true → s'.closed conn = true)
    (forgotten : s'.forgotten = s.forgotten) (lock : s'.lock = s.lock)
    (away : ∀ conn todo, pc = .forgetting conn todo → s.pc t = .forgetting conn todo)
    (only : pc.Only) : Ears s' := by
  have forgetting {u conn : ℕ} {todo : List ℕ} (hu : s'.pc u = .forgetting conn todo) :
      s.pc u = .forgetting conn todo := by
    rw [hpc] at hu
    by_cases hut : u = t
    · subst hut
      rw [Function.update_self] at hu
      exact away conn todo hu
    · rwa [Function.update_of_ne hut] at hu
  constructor
  · intro u conn todo hu
    have hold := h.lock u conn todo (forgetting hu)
    rw [lock]
    exact ⟨hold.1, closed conn hold.2⟩
  · intro conn hconn
    rw [forgotten] at hconn
    exact closed conn (h.forgot conn hconn)
  · intro name live hmap conn hconn
    have hold := h.deaf name live (sub name live hmap) conn (ears name live hmap hconn)
    rw [forgotten]
    exact ⟨hold.1, fun u todo hu => hold.2 u todo (forgetting hu)⟩
  · intro name live hmap hempty halone
    rw [hpc]
    rcases clock name live hmap hempty halone with hopens | ⟨hempty', halone', hkeep⟩
    · exact ⟨t, by simpa using hopens⟩
    · exact exists_update (h.clock name live (sub name live hmap) hempty' halone') hkeep
  · intro u
    rw [hpc]
    by_cases hut : u = t
    · subst hut
      simpa using only
    · simpa [hut] using h.only u

/-- Sessions only leave the map, and no list or clock changes. -/
theorem Ears.lose {pc : Pc} (h : Ears s) (hpc : s'.pc = Function.update s.pc t pc)
    (sub : ∀ name live, s'.sessions name = some live → s.sessions name = some live)
    (lives : s'.lives = s.lives) (closed : s'.closed = s.closed)
    (forgotten : s'.forgotten = s.forgotten) (lock : s'.lock = s.lock)
    (away : ∀ conn todo, pc ≠ .forgetting conn todo) (only : pc.Only)
    (opens : ∀ name live, s'.sessions name = some live → (s.pc t).Opens live → pc.Opens live) :
    Ears s' := by
  refine h.quiet hpc sub ?_ ?_ (fun conn hconn => closed ▸ hconn) forgotten lock
    (fun conn todo hf => absurd hf (away conn todo)) only
  · intro name live _
    rw [lives]
    exact fun _ => id
  · intro name live hmap hempty halone
    rw [lives] at hempty halone
    exact .inr ⟨hempty, halone, opens name live hmap⟩

theorem Ears.move {op : Op} {st st' : Stage} (h : Ears s) (ht : s.pc t = .inside name g op st)
    (only : st'.ofOpen = true → ∃ conn, op = .open conn)
    (opens : ∀ live, st.opens = some live → st'.opens = some live) :
    Ears (s.setPc t (.inside name g op st')) := by
  refine h.lose rfl (fun _ _ => id) rfl rfl rfl rfl (by rintro _ _ ⟨⟩) only fun _ live _ hs => ?_
  rw [ht] at hs
  cases op with
  | «open» conn => exact opens live hs
  | _ => cases hs

theorem Ears.remove {op : Op} {st st' : Stage} (h : Ears s) (ht : s.pc t = .inside name g op st)
    (only : st'.ofOpen = true → ∃ conn, op = .open conn)
    (opens : ∀ live, st.opens = some live → ∀ n, s.sessions n = some live → n = name) :
    Ears ((s.remove name).setPc t (.inside name g op st')) := by
  have sub {n l : ℕ} (hmap : (s.remove name).sessions n = some l) :
      n ≠ name ∧ s.sessions n = some l := by
    by_cases hn : n = name
    · subst hn
      simp [Registry.remove] at hmap
    · exact ⟨hn, by simpa [Registry.remove, hn] using hmap⟩
  refine h.lose rfl (fun n l hmap => (sub hmap).2) rfl rfl rfl rfl
    (by rintro _ _ ⟨⟩) only fun n live hmap hs => ?_
  change (s.pc t).Opens live at hs
  rw [ht] at hs
  cases op with
  | «open» conn => exact absurd (opens live hs n (sub hmap).2) (sub hmap).1
  | _ => cases hs

/-- One list changes: nobody new listens, and the clock runs if nobody does. -/
theorem Ears.hush {pc : Pc} {l : Live} (h : Ears s) (sub : l.listeners ⊆ (s.lives live).listeners)
    (clock : l.listeners = [] → l.alone = none → pc.Opens live ∨ (s.lives live).listeners = [] ∧
      (s.lives live).alone = none ∧ ((s.pc t).Opens live → pc.Opens live))
    (other : ∀ k, k ≠ live → (s.pc t).Opens k → pc.Opens k)
    (away : ∀ conn todo, pc = .forgetting conn todo → s.pc t = .forgetting conn todo)
    (only : pc.Only) : Ears ((s.setLive live l).setPc t pc) := by
  refine h.quiet rfl (fun _ _ => id) ?_ ?_ (fun _ => id) rfl
    rfl away only
  · intro name k _
    show (Function.update s.lives live l k).listeners ⊆ _
    by_cases hk : k = live
    · subst hk
      simpa using sub
    · rw [Function.update_of_ne hk]
      exact fun _ => id
  · intro name k _ hempty halone
    change (Function.update s.lives live l k).listeners = [] at hempty
    change (Function.update s.lives live l k).alone = none at halone
    by_cases hk : k = live
    · subst hk
      rw [Function.update_self] at hempty halone
      exact clock hempty halone
    · rw [Function.update_of_ne hk] at hempty halone
      exact .inr ⟨hempty, halone, other k hk⟩

theorem without_subset (l : Live) (conn : ℕ) : l.without conn ⊆ l.listeners :=
  List.filter_sublist.subset

/-- A detached connection is gone, and the clock runs if it was the last. -/
theorem detach_clock {l : Live} {conn now : ℕ} (hempty : (l.detach conn now).listeners = [])
    (halone : (l.detach conn now).alone = none) : False := by
  have hwithout : l.without conn = [] := hempty
  simp [Live.detach, hwithout] at halone

theorem attached_closed {l : Live} {conn now : ℕ} :
    (l.attached conn now true).listeners = l.without conn ∧
      (l.attached conn now true).alone = (l.detach conn now).alone :=
  ⟨rfl, rfl⟩

/-- A connection that is open begins to listen. -/
theorem Ears.subscribe {op : Op} {st : Stage} {conn : ℕ} (h : Ears s)
    (ht : s.pc t = .inside name g op st) (own : ∀ k, st.opens = some k → k = live)
    (hopen : s.closed conn = false) :
    Ears ((s.setLive live ((s.lives live).attached conn s.now false)).setPc t
      (.inside name g op .done)) := by
  have lives {k : ℕ} (hk : k ≠ live) : Function.update s.lives live
      ((s.lives live).attached conn s.now false) k = s.lives k := Function.update_of_ne hk ..
  have forgetting {u c : ℕ} {todo : List ℕ}
      (hu : Function.update s.pc t (.inside name g op .done) u = .forgetting c todo) :
      s.pc u = .forgetting c todo := by
    by_cases hut : u = t
    · subst hut
      rw [Function.update_self] at hu
      cases hu
    · rwa [Function.update_of_ne hut] at hu
  constructor
  · intro u c todo hu
    exact h.lock u c todo (forgetting hu)
  · exact h.forgot
  · intro n k hmap c hc
    change c ∈ (Function.update s.lives live _ k).listeners at hc
    have old (hold : c ∈ (s.lives k).listeners) : s.forgotten c = false ∧
        ∀ u todo, Function.update s.pc t (.inside name g op .done) u = .forgetting c todo →
          k ∈ todo := by
      have hdeaf := h.deaf n k hmap c hold
      exact ⟨hdeaf.1, fun u todo hu => hdeaf.2 u todo (forgetting hu)⟩
    by_cases hk : k = live
    · subst hk
      rw [Function.update_self] at hc
      rcases List.mem_append.mp hc with hc | hc
      · exact old hc
      · obtain rfl := List.mem_singleton.mp hc
        refine ⟨?_, fun u todo hu => ?_⟩
        · cases hforgot : s.forgotten c with
          | false => exact hforgot
          | true =>
            rw [h.forgot c hforgot] at hopen
            cases hopen
        · rw [(h.lock u c todo (forgetting hu)).2] at hopen
          cases hopen
    · rw [lives hk] at hc
      exact old hc
  · intro n k hmap hempty halone
    change (Function.update s.lives live _ k).listeners = [] at hempty
    change (Function.update s.lives live _ k).alone = none at halone
    by_cases hk : k = live
    · subst hk
      rw [Function.update_self] at hempty
      exact absurd hempty (by simp [Live.attached])
    · rw [lives hk] at hempty halone
      refine exists_update (h.clock n k hmap hempty halone) fun hs => ?_
      change (s.pc t).Opens k at hs
      rw [ht] at hs
      cases op with
      | «open» c => exact absurd (own k hs) hk
      | _ => cases hs
  · intro u
    show Pc.Only (Function.update s.pc t _ u)
    by_cases hut : u = t
    · subst hut
      rw [Function.update_self]
      rintro ⟨⟩
    · rw [Function.update_of_ne hut]
      exact h.only u

theorem Ears.create {conn c : ℕ} (h : Ears s) (hands : Hands s)
    (ht : s.pc t = .inside name g (.open c) (.insert conn)) (unlocked : s.lock = none) :
    Ears ((s.create name).setPc t (.inside name g (.open c) (.start conn s.made))) := by
  have nobody (u k : ℕ) (todo : List ℕ) (hu : s.pc u = .forgetting k todo) : False := by
    have hlock := (h.lock u k todo hu).1
    rw [unlocked] at hlock
    cases hlock
  have forgetting {u k : ℕ} {todo : List ℕ}
      (hu : Function.update s.pc t (.inside name g (.open c) (.start conn s.made)) u =
        .forgetting k todo) : False := by
    by_cases hut : u = t
    · subst hut
      rw [Function.update_self] at hu
      cases hu
    · rw [Function.update_of_ne hut] at hu
      exact nobody u k todo hu
  have cases {n k : ℕ} (hmap : (s.create name).sessions n = some k) :
      k = s.made ∨ k ≠ s.made ∧ s.sessions n = some k := by
    by_cases hn : n = name
    · subst hn
      rw [create_here] at hmap
      exact .inl (Option.some.inj hmap).symm
    · have hold : s.sessions n = some k := create_there s hn ▸ hmap
      exact .inr ⟨Nat.ne_of_lt (hands.mapped n k hold).1, hold⟩
  constructor
  · exact fun u k todo hu => (forgetting hu).elim
  · exact h.forgot
  · intro n k hmap b hb
    change b ∈ ((s.create name).lives k).listeners at hb
    rcases cases hmap with rfl | ⟨hk, hold⟩
    · rw [create_new] at hb
      cases hb
    · rw [create_old s name hk] at hb
      exact ⟨(h.deaf n k hold b hb).1, fun u todo hu => (forgetting hu).elim⟩
  · intro n k hmap hempty halone
    change ((s.create name).lives k).listeners = [] at hempty
    change ((s.create name).lives k).alone = none at halone
    rcases cases hmap with rfl | ⟨hk, hold⟩
    · exact ⟨t, by simp [Registry.setPc, Pc.Opens, Stage.opens]⟩
    · rw [create_old s name hk] at hempty halone
      refine exists_update (h.clock n k hold hempty halone) fun hs => ?_
      change (s.pc t).Opens k at hs
      rw [ht] at hs
      cases hs
  · intro u
    show Pc.Only (Function.update s.pc t _ u)
    by_cases hut : u = t
    · subst hut
      rw [Function.update_self]
      exact fun _ => ⟨c, rfl⟩
    · rw [Function.update_of_ne hut]
      exact h.only u

theorem Ears.stopLockedIf {op : Op} {ok : ℕ → Bool} {st' : Stage} (h : Ears s)
    (ht : s.pc t = .inside name g op .begin) (hstep : s.stopLockedIf name ok = some (s', st')) :
    Ears (s'.setPc t (.inside name g op st')) := by
  unfold Registry.stopLockedIf at hstep
  split_ifs at hstep
  split at hstep
  · split_ifs at hstep
    · cases hstep
      exact h.remove ht (by rintro ⟨⟩) (by rintro _ ⟨⟩)
    · cases hstep
      exact h.move ht (by rintro ⟨⟩) (by rintro _ ⟨⟩)
  · cases hstep
    exact h.move ht (by rintro ⟨⟩) (by rintro _ ⟨⟩)

theorem after_ofOpen (conn : Option ℕ) : (after conn).ofOpen = conn.isSome := by
  cases conn <;> rfl

theorem Ears.body {op : Op} {ok : Bool} {st st' : Stage} (h : Ears s) (hands : Hands s)
    (ht : s.pc t = .inside name g op st) (hstep : s.body name op ok st = some (s', st')) :
    Ears (s'.setPc t (.inside name g op st')) := by
  have honly := h.only t
  rw [ht] at honly
  have hfits := hands.fits t
  rw [ht] at hfits
  cases st with
  | begin =>
    simp only [Registry.body] at hstep
    split at hstep
    · rename_i conn
      cases hstep
      refine h.move ht (fun _ => ⟨conn, rfl⟩) (by rintro _ ⟨⟩)
    · split_ifs at hstep
      split at hstep
      · cases hstep
        exact h.move ht (by rintro ⟨⟩) (by rintro _ ⟨⟩)
      · cases hstep
        exact h.move ht (by rintro ⟨⟩) (by rintro _ ⟨⟩)
    · split_ifs at hstep
      split at hstep
      · cases hstep
        exact h.move ht (by rintro ⟨⟩) (by rintro _ ⟨⟩)
      · cases hstep
        exact h.move ht (by rintro ⟨⟩) (by rintro _ ⟨⟩)
    · exact h.stopLockedIf ht hstep
    · exact h.stopLockedIf ht hstep
  | look conn =>
    simp only [Registry.body] at hstep
    split_ifs at hstep
    split at hstep
    · split_ifs at hstep
      · cases hstep
        exact h.remove ht (fun _ => honly rfl) (by rintro _ ⟨⟩)
      · cases hstep
        exact h.move ht (fun _ => honly rfl) (by rintro _ ⟨⟩)
    · cases hstep
      exact h.move ht (fun _ => honly rfl) (by rintro _ ⟨⟩)
  | configure conn live =>
    simp only [Registry.body] at hstep
    cases hstep
    exact h.move ht (fun _ => honly rfl) (by rintro _ ⟨⟩)
  | attach conn live fresh =>
    simp only [Registry.body] at hstep
    split_ifs at hstep
    · cases hstep
      refine h.move ht (fun _ => honly rfl) fun k hk => ?_
      cases fresh with
      | false => cases hk
      | true => exact hk
    · cases hstep
      obtain ⟨c, rfl⟩ := honly rfl
      refine h.hush (without_subset _ conn) (fun _ _ => .inl rfl) (fun k hk hs => ?_) (by rintro _ _ ⟨⟩)
        fun _ => ⟨c, rfl⟩
      rw [ht] at hs
      cases fresh with
      | false => cases hs
      | true => exact absurd (Option.some.inj hs).symm hk
  | replay conn live fresh =>
    simp only [Registry.body] at hstep
    cases hstep
    obtain ⟨c, rfl⟩ := honly rfl
    cases hclosed : s.closed conn with
    | false =>
      exact h.subscribe ht (fun k hk => (Option.some.inj hk).symm) hclosed
    | true =>
      refine h.hush (attached_closed.1 ▸ without_subset _ conn) (fun hempty halone => ?_)
        (fun k hk hs => ?_) (by rintro _ _ ⟨⟩) fun _ => ⟨c, rfl⟩
      · exact (detach_clock hempty halone).elim
      · rw [ht] at hs
        exact absurd (Option.some.inj hs).symm hk
  | discover conn =>
    simp only [Registry.body] at hstep
    cases hstep
    exact h.move ht (fun _ => honly rfl) (by rintro _ ⟨⟩)
  | insert conn =>
    simp only [Registry.body] at hstep
    obtain ⟨c, rfl⟩ := honly rfl
    split_ifs at hstep with hlock
    · cases hstep
      exact h.move ht (fun _ => ⟨c, rfl⟩) (by rintro _ ⟨⟩)
    · cases hstep
      exact h.create hands ht (not_not.mp hlock)
  | start conn live =>
    simp only [Registry.body] at hstep
    cases hstep
    refine h.move ht (fun _ => honly rfl) fun k hk => ?_
    split_ifs <;> exact hk
  | abandon live =>
    simp only [Registry.body] at hstep
    split_ifs at hstep
    cases hstep
    refine h.remove ht (fun _ => honly rfl) fun k hk n hmap => ?_
    obtain rfl : live = k := Option.some.inj hk
    exact (hands.mapped n live hmap).2.1.symm.trans hfits.1.2.1
  | shut live conn =>
    simp only [Registry.body] at hstep
    have only : (after conn).ofOpen = true → ∃ c, op = .open c := fun hof => by
      rw [after_ofOpen] at hof
      exact honly hof
    split_ifs at hstep
    · cases hstep
      exact h.move ht only (by rintro _ ⟨⟩)
    · cases hstep
      refine h.hush (fun _ => id) (fun hempty halone => ?_) (fun k _ hs => ?_) (by rintro _ _ ⟨⟩) honly
      · refine .inr ⟨hempty, halone, fun hs => ?_⟩
        rw [ht] at hs
        cases op <;> cases hs
      · rw [ht] at hs
        cases op <;> cases hs
  | join live conn =>
    simp only [Registry.body] at hstep
    have only : (after conn).ofOpen = true → ∃ c, op = .open c := fun hof => by
      rw [after_ofOpen] at hof
      exact honly hof
    split_ifs at hstep
    cases hstep
    refine h.hush (fun _ => id) (fun hempty halone => ?_) (fun k _ hs => ?_) (by rintro _ _ ⟨⟩) only
    · refine .inr ⟨hempty, halone, fun hs => ?_⟩
      rw [ht] at hs
      cases op <;> cases hs
    · rw [ht] at hs
      cases op <;> cases hs
  | ask live =>
    simp only [Registry.body] at hstep
    cases hstep
    exact h.move ht (by rintro ⟨⟩) (by rintro _ ⟨⟩)
  | done => cases hstep

/-- Steps of threads that work on no session. -/
theorem Ears.idle {pc : Pc} (h : Ears s) (hpc : s'.pc = Function.update s.pc t pc)
    (sub : ∀ name live, s'.sessions name = some live → s.sessions name = some live)
    (lives : s'.lives = s.lives) (closed : s'.closed = s.closed)
    (forgotten : s'.forgotten = s.forgotten) (lock : s'.lock = s.lock)
    (away : ∀ conn todo, pc ≠ .forgetting conn todo) (only : pc.Only)
    (opens : ∀ live, ¬(s.pc t).Opens live) : Ears s' :=
  h.lose hpc sub lives closed forgotten lock away only
    fun _ live _ hs => (opens live hs).elim

theorem not_opens {pc : Pc} (ht : s.pc t = pc) (opens : ∀ live, ¬pc.Opens live) (live : ℕ) :
    ¬(s.pc t).Opens live := by
  rw [ht]
  exact opens live

theorem Ears.gate {op : Op} (h : Ears s) (opens : ∀ live, ¬(s.pc t).Opens live) :
    Ears (s.gate t name op) := by
  unfold Registry.gate
  split
  · exact h.idle rfl (fun _ _ => id) rfl rfl rfl rfl (by rintro _ _ ⟨⟩) trivial opens
  · exact h.idle rfl (fun _ _ => id) rfl rfl rfl rfl (by rintro _ _ ⟨⟩) trivial opens

/-- A pass begins with every live session still to be visited. -/
theorem Ears.forget {conn : ℕ} (h : Ears s) (hands : Hands s) (ht : s.pc t = .idle)
    (closed : s.closed conn = true) (unlocked : s.lock = none) :
    Ears ({ s with lock := some t }.setPc t (.forgetting conn s.opened)) := by
  have nobody {u c : ℕ} {todo : List ℕ} (hu : s.pc u = .forgetting c todo) : False := by
    have hlock := (h.lock u c todo hu).1
    rw [unlocked] at hlock
    cases hlock
  have only {u c : ℕ} {todo : List ℕ}
      (hu : Function.update s.pc t (.forgetting conn s.opened) u = .forgetting c todo) :
      u = t ∧ c = conn ∧ todo = s.opened := by
    by_cases hut : u = t
    · subst hut
      rw [Function.update_self] at hu
      cases hu
      exact ⟨rfl, rfl, rfl⟩
    · rw [Function.update_of_ne hut] at hu
      exact (nobody hu).elim
  constructor
  · intro u c todo hu
    obtain ⟨rfl, rfl, -⟩ := only hu
    exact ⟨rfl, closed⟩
  · exact h.forgot
  · intro n k hmap c hc
    refine ⟨(h.deaf n k hmap c hc).1, fun u todo hu => ?_⟩
    obtain ⟨-, -, rfl⟩ := only hu
    obtain ⟨hlt, hname, -⟩ := hands.mapped n k hmap
    exact List.mem_filter.mpr ⟨List.mem_range.mpr hlt, decide_eq_true (hname ▸ hmap)⟩
  · intro n k hmap hempty halone
    refine exists_update (h.clock n k hmap hempty halone) fun hs => ?_
    change (s.pc t).Opens k at hs
    rw [ht] at hs
    cases hs
  · intro u
    show Pc.Only (Function.update s.pc t _ u)
    by_cases hut : u = t
    · subst hut
      rw [Function.update_self]
      trivial
    · rw [Function.update_of_ne hut]
      exact h.only u

theorem Ears.visit {conn : ℕ} {todo : List ℕ} (h : Ears s)
    (ht : s.pc t = .forgetting conn todo) :
    Ears ((s.setLive live ((s.lives live).detach conn s.now)).setPc t
      (.forgetting conn (todo.erase live))) := by
  have hlock := h.lock t conn todo ht
  have only {u c : ℕ} {left : List ℕ}
      (hu : Function.update s.pc t (.forgetting conn (todo.erase live)) u = .forgetting c left) :
      u = t ∧ c = conn ∧ left = todo.erase live := by
    by_cases hut : u = t
    · subst hut
      rw [Function.update_self] at hu
      cases hu
      exact ⟨rfl, rfl, rfl⟩
    · rw [Function.update_of_ne hut] at hu
      exact absurd (Option.some.inj ((h.lock u c left hu).1.symm.trans hlock.1)) hut
  have other {k : ℕ} (hk : k ≠ live) : Function.update s.lives live
      ((s.lives live).detach conn s.now) k = s.lives k := Function.update_of_ne hk ..
  constructor
  · intro u c left hu
    obtain ⟨rfl, rfl, -⟩ := only hu
    exact hlock
  · exact h.forgot
  · intro n k hmap c hc
    change c ∈ (Function.update s.lives live _ k).listeners at hc
    by_cases hk : k = live
    · subst hk
      rw [Function.update_self] at hc
      have hmem := (without_subset _ conn) hc
      have hne : c ≠ conn := by simpa using (List.mem_filter.mp hc).2
      refine ⟨(h.deaf n k hmap c hmem).1, fun u left hu => ?_⟩
      obtain ⟨-, rfl, -⟩ := only hu
      exact absurd rfl hne
    · rw [other hk] at hc
      have hdeaf := h.deaf n k hmap c hc
      refine ⟨hdeaf.1, fun u left hu => ?_⟩
      obtain ⟨-, rfl, rfl⟩ := only hu
      exact (List.mem_erase_of_ne hk).mpr (hdeaf.2 t todo ht)
  · intro n k hmap hempty halone
    change (Function.update s.lives live _ k).listeners = [] at hempty
    change (Function.update s.lives live _ k).alone = none at halone
    by_cases hk : k = live
    · subst hk
      rw [Function.update_self] at hempty halone
      exact (detach_clock hempty halone).elim
    · rw [other hk] at hempty halone
      refine exists_update (h.clock n k hmap hempty halone) fun hs => ?_
      change (s.pc t).Opens k at hs
      rw [ht] at hs
      cases hs
  · intro u
    show Pc.Only (Function.update s.pc t _ u)
    by_cases hut : u = t
    · subst hut
      rw [Function.update_self]
      trivial
    · rw [Function.update_of_ne hut]
      exact h.only u

/-- A pass that has visited every live session is complete. -/
theorem Ears.forgotten {conn : ℕ} (h : Ears s) (ht : s.pc t = .forgetting conn []) :
    Ears ({ s with
      lock := none, forgotten := Function.update s.forgotten conn true }.setPc t .idle) := by
  have hlock := h.lock t conn [] ht
  have nobody {u c : ℕ} {left : List ℕ}
      (hu : Function.update s.pc t .idle u = .forgetting c left) : False := by
    by_cases hut : u = t
    · subst hut
      rw [Function.update_self] at hu
      cases hu
    · rw [Function.update_of_ne hut] at hu
      exact absurd (Option.some.inj ((h.lock u c left hu).1.symm.trans hlock.1)) hut
  constructor
  · exact fun u c left hu => (nobody hu).elim
  · intro c hc
    change Function.update s.forgotten conn true c = true at hc
    by_cases hcc : c = conn
    · subst hcc
      exact hlock.2
    · rw [Function.update_of_ne hcc] at hc
      exact h.forgot c hc
  · intro n k hmap c hc
    have hdeaf := h.deaf n k hmap c hc
    refine ⟨?_, fun u left hu => (nobody hu).elim⟩
    show Function.update s.forgotten conn true c = false
    have hcc : c ≠ conn := by
      rintro rfl
      exact List.not_mem_nil (hdeaf.2 t [] ht)
    rw [Function.update_of_ne hcc]
    exact hdeaf.1
  · intro n k hmap hempty halone
    refine exists_update (h.clock n k hmap hempty halone) fun hs => ?_
    change (s.pc t).Opens k at hs
    rw [ht] at hs
    cases hs
  · intro u
    show Pc.Only (Function.update s.pc t _ u)
    by_cases hut : u = t
    · subst hut
      rw [Function.update_self]
      trivial
    · rw [Function.update_of_ne hut]
      exact h.only u

theorem setPc_self (s : Registry) (t : ℕ) : s.setPc t (s.pc t) = s := by
  unfold Registry.setPc
  rw [Function.update_eq_self]

/-- A conductor changes, and its list and clock are kept. -/
theorem Ears.stir {l : Live} (h : Ears s) (listeners : l.listeners = (s.lives live).listeners)
    (alone : l.alone = (s.lives live).alone) : Ears (s.setLive live l) := by
  have hush : Ears ((s.setLive live l).setPc 0 (s.pc 0)) :=
    h.hush (by rw [listeners]; exact fun _ => id)
      (fun hempty halone => .inr ⟨listeners ▸ hempty, alone ▸ halone, id⟩) (fun _ _ => id)
      (fun _ _ => id) (h.only 0)
  exact setPc_self (s.setLive live l) 0 ▸ hush

theorem home_only (op : Op) : (home op).Only := by
  cases op <;> trivial

theorem home_away (op : Op) (conn : ℕ) (todo : List ℕ) : home op ≠ .forgetting conn todo := by
  cases op <;> rintro ⟨⟩

/-- No thread moves, nor does a conductor; a connection may be closed. -/
theorem Ears.still (h : Ears s) (pc : s'.pc = s.pc) (sessions : s'.sessions = s.sessions)
    (lives : s'.lives = s.lives) (closed : ∀ conn, s.closed conn = true → s'.closed conn = true)
    (forgotten : s'.forgotten = s.forgotten) (lock : s'.lock = s.lock) : Ears s' := by
  have here : s'.pc = Function.update s.pc 0 (s.pc 0) := by rw [pc, Function.update_eq_self]
  refine h.quiet here (fun name live hmap => by rwa [← sessions])
    (fun name live _ conn hc => by rwa [← lives])
    (fun name live _ hempty halone => ?_) closed forgotten lock (fun _ _ => id) (h.only 0)
  rw [lives] at hempty halone
  exact .inr ⟨hempty, halone, id⟩

theorem Ears.detach {conn : ℕ} (h : Ears s) :
    Ears (s.setLive live ((s.lives live).detach conn s.now)) := by
  have hush : Ears ((s.setLive live ((s.lives live).detach conn s.now)).setPc 0 (s.pc 0)) :=
    h.hush (without_subset _ conn)
      (fun hempty halone => (detach_clock hempty halone).elim) (fun _ _ => id) (fun _ _ => id)
      (h.only 0)
  exact setPc_self (s.setLive live _) 0 ▸ hush

/-- A thread that opens nothing moves on, to where it forgets nobody. -/
theorem Ears.pass {pc pc' : Pc} (h : Ears s) (ht : s.pc t = pc) (opens : ∀ live, ¬pc.Opens live)
    (away : ∀ conn todo, pc' ≠ .forgetting conn todo) (only : pc'.Only) :
    Ears (s.setPc t pc') :=
  h.idle rfl (fun _ _ => id) rfl rfl rfl rfl away only (not_opens ht opens)

theorem Ears.step {act : Act} (h : Ears s) (hands : Hands s) (hstep : s.step act = some s') :
    Ears s' := by
  cases moves_of_step hstep with
  | call idle => exact h.gate (not_opens idle fun _ => id)
  | reap idle => exact h.pass idle (fun _ => id) (by rintro _ _ ⟨⟩) trivial
  | next reaping => exact h.gate (not_opens reaping fun _ => id)
  | enter waiting =>
    exact h.idle rfl (fun _ _ => id) rfl rfl rfl rfl (by rintro _ _ ⟨⟩) (by rintro ⟨⟩)
      (not_opens waiting fun _ => id)
  | go inside does => exact h.body hands inside does
  | @reclaim t name g op done =>
    refine h.idle rfl (fun _ _ => id) rfl rfl rfl rfl (by rintro _ _ ⟨⟩) trivial
      (not_opens done fun _ => ?_)
    cases op <;> rintro ⟨⟩
  | unlock leaving =>
    exact h.idle rfl (fun _ _ => id) rfl rfl rfl rfl (by rintro _ _ ⟨⟩) trivial
      (not_opens leaving fun _ => id)
  | @drop t g op gone =>
    exact h.idle rfl (fun _ _ => id) rfl rfl rfl rfl (home_away op) (home_only op)
      (not_opens gone fun _ => id)
  | forget idle closed unlocked => exact h.forget hands idle closed unlocked
  | visit forgetting => exact h.visit forgetting
  | detach => exact h.detach
  | shutdown idle =>
    exact h.idle rfl (fun _ _ => id) rfl rfl rfl rfl (by rintro _ _ ⟨⟩) trivial
      (not_opens idle fun _ => id)
  | take closing =>
    exact h.idle rfl (by rintro _ _ ⟨⟩) rfl rfl rfl rfl (by rintro _ _ ⟨⟩) trivial
      (not_opens closing fun _ => id)
  | put putting => exact h.pass putting (fun _ => id) (by rintro _ _ ⟨⟩) trivial
  | pass shutting => exact h.pass shutting (fun _ => id) (by rintro _ _ ⟨⟩) trivial
  | @swap t live todo shutting =>
    have hstir : Ears (s.setLive live { s.lives live with stopping := true }) := h.stir rfl rfl
    exact hstir.pass shutting (fun _ => id) (by rintro _ _ ⟨⟩) trivial
  | @join t live todo joining =>
    have hstir : Ears (s.setLive live { s.lives live with joined := true }) := h.stir rfl rfl
    exact hstir.pass joining (fun _ => id) (by rintro _ _ ⟨⟩) trivial
  | reaped reaping => exact h.pass reaping (fun _ => id) (by rintro _ _ ⟨⟩) trivial
  | forgot forgetting => exact h.forgotten forgetting
  | emptied putting =>
    exact h.idle rfl (fun _ _ => id) rfl rfl rfl rfl (by rintro _ _ ⟨⟩) trivial
      (not_opens putting fun _ => id)
  | @close conn =>
    refine h.still rfl rfl rfl (fun c hc => ?_) rfl rfl
    show Function.update s.closed conn true c = true
    by_cases hcc : c = conn
    · subst hcc
      exact Function.update_self ..
    · rwa [Function.update_of_ne hcc]
  | tick => exact h.still rfl rfl rfl (fun _ => id) rfl rfl
  | stir | halt | exit => exact h.stir rfl rfl

theorem reach_ears (h : machine.Reach (fun _ _ => True) s) : Ears s := by
  refine h.invariant ?_ fun _ _ _ hr hinv _ hstep => hinv.step (reach_hands hr) hstep
  rintro _ rfl
  exact Ears.init

/-- A forgotten connection listens to no live session, and a session that nobody listens to has
its idle clock running: it is cold once the grace is over, unless it is busy. -/
structure Tended (s : Registry) : Prop where
  forgotten : ∀ conn, s.forgotten conn = true → ∀ name live, s.sessions name = some live →
    conn ∉ (s.lives live).listeners
  alone : ∀ name live, s.sessions name = some live → (s.lives live).listeners = [] →
    ∃ since, (s.lives live).alone = some since ∧ ∀ now grace, since + grace < now →
      (s.lives live).busy = false → (s.lives live).cold now grace = true

theorem opening_of_opens {pc : Pc} (h : pc.Opens live) : opening pc = true := by
  cases pc with
  | inside n g op st =>
    cases op with
    | «open» conn => rfl
    | _ => cases h
  | _ => cases h

/-- Whenever no open is under way, every session is tended, whatever the threads did before. -/
theorem sessions_tended (h : machine.Reach (fun _ _ => True) s)
    (quiet : ∀ t, opening (s.pc t) = false) : s.Tended := by
  have ears := reach_ears h
  refine ⟨fun conn hconn name live hmap hmem => ?_, fun name live hmap hempty => ?_⟩
  · rw [(ears.deaf name live hmap conn hmem).1] at hconn
    cases hconn
  · cases halone : (s.lives live).alone with
    | none =>
      obtain ⟨t, ht⟩ := ears.clock name live hmap hempty halone
      have hbusy := opening_of_opens ht
      rw [quiet t] at hbusy
      cases hbusy
    | some since =>
      refine ⟨since, rfl, fun now grace hlate hidle => ?_⟩
      simp [Live.cold, halone, hidle, hlate]

/-- A connection is forgotten while the open of another one is still under way. -/
theorem sessions_tended_slow_open :
    ∃ s : Registry, s.Tended ∧ s.forgotten 0 = true ∧ s.sessions 7 = some 0 ∧
      (s.lives 0).listeners = [1] := by
  let moves : List Act :=
    [.call 0 7 (.open 0), .enter 0, .go 0 true, .go 0 true, .go 0 true, .go 0 true, .go 0 true,
      .go 0 true, .go 0 true, .reclaim 0, .unlock 0, .drop 0, .call 1 7 (.open 1), .enter 1,
      .go 1 true, .go 1 true, .go 1 true, .close 0, .forget 2 0, .visit 2 0, .finish 2, .go 1 true,
      .go 1 true, .reclaim 1, .unlock 1, .drop 1]
  have run : ∃ s, machine.exec {} moves = some s ∧ s.forgotten 0 = true ∧ s.sessions 7 = some 0 ∧
      (s.lives 0).listeners = [1] ∧ ∀ t < 3, opening (s.pc t) = false :=
    ⟨_, Option.eq_some_of_isSome (by decide +kernel), by decide +kernel, by decide +kernel,
      by decide +kernel, by decide +kernel⟩
  obtain ⟨s, hrun, hforgotten, hmap, hlisteners, hpc⟩ := run
  have along := Lib.Machine.along_of_forall (M := machine) (fun _ _ => trivial) {} moves
  refine ⟨s, sessions_tended ((Lib.Machine.Reach.init rfl).exec along hrun) fun t => ?_, hforgotten,
    hmap, hlisteners⟩
  by_cases ht : t < 3
  · exact hpc t ht
  · rw [exec_pc_of_lt hrun (by decide) ht]
    rfl

end Registry
end SiliconOmni.Daemon
