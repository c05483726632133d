import SiliconOmni.Chat.Books

/-! Opening a session from sound files gives a conductor that knows exactly what they say. -/
namespace SiliconOmni
open Lib

/-- What is pending once the openings in the log are counted as delivered. -/
def Books.undelivered (b : Books) : List PendingMessage :=
  b.pending.filter fun message => !b.delivered.contains message.id

/-- The counts that `t` keeps are those of the log, which is as `past` left it. -/
structure Counted (past t : Conf) : Prop where
  log : t.chat.store.events = past.chat.store.events
  seq : t.chat.state.seq = t.chat.store.seq
  turn : t.chat.turn = t.chat.store.turn
  epochs : t.chat.epochTurns = fun _ => none

/-- What `t` has read in the files that `past` left. -/
structure ReadBack (past t : Conf) : Prop where
  books : t.books = { past.books with pending := past.books.undelivered }
  desk : t.chat.desk = {
    outbox := t.books.pending, awaiting := [], unanswered := [], nextTurns := 0
    turn := t.chat.store.turn, turnRecorded := false, inTurn := false, turnFailed := none
    recovery := t.books.recovery, historyStart := t.books.historyStart
    compactionDeadline := false, stopping := false }
  runner : t.chat.runner = none
  parked : t.chat.parked = []
  current : t.chat.current = none
  benched : t.chat.benched = []
  launched : t.chat.launchedOnce = false
  natives : t.chat.meta_.data.providers = past.chat.meta_.data.providers
  built : t.built = past.built
  queued : t.chat.state.queued = t.chat.outbox.length + t.chat.awaiting.length

/-- `t` is the conductor of a session just opened from what `past` left. -/
structure Opened [Host] (past t : Conf) : Prop extends ReadBack past t where
  counted : Counted past t
  reopened : ∃ providers cwd env,
    System.opening past.chat.sessionId past.chat.disk past providers cwd env = { conf := t }

/-- What a failed opening, or one the process died in, may have made of the files. -/
structure Unread (past t : Conf) : Prop where
  books : ∃ pending, (pending = past.books.pending ∨ pending = past.books.undelivered) ∧
    ({ past.books with pending } : Books).Grows Obs.isPlain t.books
  natives : t.chat.meta_.data.providers = past.chat.meta_.data.providers
  built : t.built = past.built
  trace : ∃ stops, t.trace = stops ++ past.trace ∧ ∀ o ∈ stops, o.isStop

/-- What is left when opening the session failed, or the process died while at it. -/
structure OpenFailed [Host] (past t : Conf) : Prop extends Unread past t where
  counted : Counted past t
  reopened : ∃ providers cwd env,
    System.opening past.chat.sessionId past.chat.disk past providers cwd env =
      { conf := t, ended := true }

theorem rejectPending_of_nodup {ids : List String} {pending : List PendingMessage} (index : ℕ)
    (named : ∀ m ∈ pending, m.id ≠ "") (once : (pending.map (·.id)).Nodup)
    (apart : ∀ m ∈ pending, m.id ∉ ids) : MetaData.rejectPending ids pending index = none := by
  induction pending generalizing ids index with
  | nil => rfl
  | cons m rest ih =>
    have hm := named m (List.mem_cons_self ..)
    have hnot : ids.contains m.id = false := by simpa using apart m (List.mem_cons_self ..)
    rw [List.map_cons, List.nodup_cons] at once
    simp only [MetaData.rejectPending, hm, hnot, ↓reduceIte, Bool.false_eq_true]
    refine ih _ (fun m' hm' => named m' (List.mem_cons_of_mem _ hm')) once.2 ?_
    intro m' hm' hmem
    rcases List.mem_cons.mp hmem with heq | hmem
    · exact once.1 (heq ▸ List.mem_map_of_mem hm')
    · exact apart m' (List.mem_cons_of_mem _ hm') hmem

section
variable {s : Conf} {Q : Unit → Conf → Prop} {H : Halt → Conf → Prop} {what : String}
  {edit : MetaData → MetaData}

theorem wp_openCommit_clean (clean : s.chat.startupError = none)
    (loaded : s.chat.meta_.loadError = none) (hok : ∀ calls, Q () (s.edited calls edit))
    (herror : ∀ calls error, (∃ n, s.env.commit n ≠ .done) →
      Q () { s with calls, chat := { s.chat with startupError := some error } })
    (hcut : ∀ calls, (∃ n, s.env.commit n ≠ .done) → H .cut (s.edited calls edit)) :
    wp (openCommit what edit) Q H s := by
  unfold openCommit tryCommit
  simp only [wp_bind, wp_self, clean, loaded, Option.isNone_none, ↓reduceIte]
  by_cases hsame : edit s.chat.meta_.data = s.chat.meta_.data
  · rw [if_pos hsame, wp_pure]
    have h := hok s.calls
    rwa [show s.edited s.calls edit = s by unfold Conf.edited; rw [hsame]] at h
  · rw [if_neg hsame]
    simp only [wp_bind, wp_asks]
    cases hw : s.env.commit s.calls with
    | done => exact hok _
    | refused why =>
      simp only [wp_pure, wp_change, Chat.orError, clean, Option.none_or]
      exact herror _ _ ⟨s.calls, by rw [hw]; simp⟩
    | cut => exact hcut _ ⟨s.calls, by rw [hw]; simp⟩

theorem wp_openCommit_failed {error : String} (failed : s.chat.startupError = some error)
    (h : Q () s) : wp (openCommit what edit) Q H s := by
  unfold openCommit
  simp only [wp_bind, wp_self, failed, Option.isNone_some, Bool.false_eq_true, ↓reduceIte]
  exact h

end

section
variable [Host]

/-- The chat less its settings. -/
def Chat.unset (c : Chat) : Chat :=
  { c with
    providers := [], ask := .default, config := Config.default, contextRecovery := {}
    autoremove := true, state := default, startupError := none, meta_.data.settings := [] }

/-- Reading the settings back changes only settings. -/
theorem Chat.restoreSettings_keeps (c : Chat) (providers : List String) (cwd : Option String) :
    (c.restoreSettings providers cwd).unset = c.unset ∧
      (c.restoreSettings providers cwd).startupError = c.startupError ∧
      (c.restoreSettings providers cwd).meta_ = c.meta_ := ⟨rfl, rfl, rfl⟩

/-- A chat loaded from sound files. -/
def Conf.reloaded (past : Conf) : Chat :=
  { Chat.loaded past.chat.sessionId past.chat.disk with
    store := { events := past.chat.store.events }
    meta_ := { data := past.chat.meta_.data }
    startupError := none }

variable {past : Conf} (sound : past.books.Sound)
include sound

theorem loaded_store : (Chat.loaded past.chat.sessionId past.chat.disk).store =
    { events := past.chat.store.events } :=
  Store.open_of_follows sound.readable

theorem loaded_meta : (Chat.loaded past.chat.sessionId past.chat.disk).meta_ =
    { data := past.chat.meta_.data } := by
  show Meta.open_ past.chat.meta_.data = _
  have hnone : MetaData.rejectPending [] past.chat.meta_.data.pending 0 = none :=
    rejectPending_of_nodup 0 (fun m hm => (sound.pendingDrawn m hm).ne_empty) sound.pendingOnce
      (by simp)
  unfold Meta.open_
  rw [hnone]

theorem loaded_eq : Chat.loaded past.chat.sessionId past.chat.disk = past.reloaded := by
  have hs := loaded_store sound
  have hm := loaded_meta sound
  unfold Conf.reloaded
  unfold Chat.loaded at hs hm ⊢
  dsimp only at hs hm ⊢
  rw [hs, hm]

theorem restoreState_sound {c : Chat} (data : c.meta_.data = past.chat.meta_.data)
    (recovery : c.recovery = none) :
    c.restoreState = { c with recovery := past.books.recovery } := by
  have hget : c.meta_.data.get MetaData.RECOVERY = past.books.recovery.map Recovery.toValue := by
    rw [data]
    exact sound.recovery
  unfold Chat.restoreState
  rw [hget]
  cases hr : past.books.recovery with
  | none =>
    simp only [Option.map_none]
    rw [← recovery]
  | some r =>
    have hnamed : ¬(r.stage ≠ .compacting ∧ r.messageId = "") := fun h =>
      (sound.identified r hr h.1).ne_empty h.2
    simp only [Option.map_some, Recovery.ofValue_toValue, if_neg hnamed]

theorem restoreHistory_sound {c : Chat} (data : c.meta_.data = past.chat.meta_.data)
    (log : c.store.events = past.chat.store.events) (historyStart : c.historyStart = 0) :
    c.restoreHistory = { c with historyStart := past.books.historyStart } := by
  have hrange : 0 ≤ past.books.historyStart ∧ past.books.historyStart ≤ c.store.seq + 1 := by
    rw [Store.seq_succ, log]
    exact sound.range
  unfold Chat.restoreHistory
  rw [data, MetaData.get_eq]
  cases hv : topGet past.chat.meta_.data.top MetaData.HISTORY_START with
  | none =>
    have hzero : past.books.historyStart = 0 := by
      show ((topGet past.chat.meta_.data.top MetaData.HISTORY_START).bind _).getD 0 = 0
      rw [hv]
      rfl
    rw [hzero, ← historyStart]
  | some v =>
    rw [sound.history v hv]
    simp only [Value.asInt, Option.filter_some, hrange, and_self, decide_true, ↓reduceIte]

/-- Both keys of a sound metadata file are read back. -/
theorem restoreRecovery_sound {c : Chat} (data : c.meta_.data = past.chat.meta_.data)
    (log : c.store.events = past.chat.store.events) (recovery : c.recovery = none)
    (historyStart : c.historyStart = 0) :
    c.restoreRecovery =
      { c with recovery := past.books.recovery, historyStart := past.books.historyStart } := by
  unfold Chat.restoreRecovery
  rw [restoreState_sound sound data recovery]
  exact restoreHistory_sound sound data log historyStart

omit sound in
/-- What pinning the settings leaves, and what it may leave when it fails. -/
theorem wp_openSettings {s : Conf} {Q : Unit → Conf → Prop} {H : Halt → Conf → Prop}
    {providers : List String} {cwd : Option String} (clean : s.chat.startupError = none)
    (loaded : s.chat.meta_.loadError = none)
    (hok : ∀ t, t.chat.unset = { s.chat.unset with outbox := s.chat.meta_.data.pending } →
      t.chat.startupError = none → t.books = s.books → t.built = s.built → Q () t)
    (herror : ∀ t error, t.chat.startupError = some error → t.chat.unset =
        { s.chat.unset with outbox := s.chat.meta_.data.pending } →
      t.books = s.books → t.built = s.built → (∃ n, s.env.commit n ≠ .done) → Q () t)
    (hcut : ∀ t, t.chat.unset = s.chat.unset → t.books = s.books → t.built = s.built →
      (∃ n, s.env.commit n ≠ .done) → H .cut t) :
    wp (openSettings providers cwd) Q H s := by
  obtain ⟨hunset, hclean, hmeta⟩ := s.chat.restoreSettings_keeps providers cwd
  unfold openSettings
  simp only [wp_bind, wp_self, wp_change]
  generalize s.chat.restoreSettings providers cwd = c at hunset hclean hmeta ⊢
  generalize c.settings = settings
  rw [← hunset, ← hmeta] at hok herror
  rw [← hunset] at hcut
  have hbooks : ({ s with chat := c } : Conf).books = s.books := by
    have hsession : c.sessionId = s.chat.sessionId := congrArg (·.sessionId) hunset
    have hstore : c.store = s.chat.store := congrArg (·.store) hunset
    unfold Conf.books
    rw [hsession, hstore, hmeta]
  rw [← hbooks] at hok herror hcut
  apply wp_openCommit_clean (s := { s with chat := c }) (hclean.trans clean)
    ((congrArg Meta.loadError hmeta).trans loaded)
  · intro calls
    rw [wp_change]
    exact hok _ rfl (hclean.trans clean) rfl rfl
  · intro calls error herr
    rw [wp_change]
    exact herror _ error rfl rfl rfl rfl herr
  · intro calls herr
    exact hcut _ rfl rfl rfl herr

theorem wp_openFiles {env : Env} {Q : Unit → Conf → Prop} {H : Halt → Conf → Prop}
    (hok : ∀ t, t.env = env → t.chat.startupError = none → t.chat.meta_.loadError = none →
      t.chat.unset = { past.reloaded.unset with
        recovery := past.books.recovery, historyStart := past.books.historyStart
        meta_.data.pending := past.books.undelivered } →
      t.books = { past.books with pending := past.books.undelivered } → t.built = past.built →
      Q () t)
    (herror : ∀ t error, t.chat.startupError = some error →
      t.books = past.books → t.chat.meta_.data.providers = past.chat.meta_.data.providers →
      t.built = past.built → (∃ n, env.commit n ≠ .done) → Q () t)
    (hcut : ∀ t, t.books = { past.books with pending := past.books.undelivered } →
      t.chat.meta_.data.providers = past.chat.meta_.data.providers →
      t.built = past.built → (∃ n, env.commit n ≠ .done) → H .cut t) :
    wp openFiles Q H { past with env, calls := 0, chat := past.reloaded } := by
  unfold openFiles
  simp only [wp_bind, wp_self, wp_change]
  rw [restoreRecovery_sound sound (c := past.reloaded) rfl rfl rfl rfl]
  apply wp_openCommit_clean (s := { past with
    env, calls := 0
    chat := { past.reloaded with
      recovery := past.books.recovery, historyStart := past.books.historyStart } }) rfl rfl
  · intro calls
    exact hok _ rfl rfl rfl rfl rfl rfl
  · intro calls error herr
    exact herror _ error rfl rfl rfl rfl herr
  · intro calls herr
    exact hcut _ rfl rfl rfl herr

/-- What is left of a chat that knew what its files say is what its files say. -/
theorem opened_of_unset {t : Conf}
    (unset : t.chat.unset = { past.reloaded.unset with
      recovery := past.books.recovery, historyStart := past.books.historyStart
      meta_.data.pending := past.books.undelivered, outbox := past.books.undelivered })
    (books : t.books = { past.books with pending := past.books.undelivered })
    (built : t.built = past.built)
    (queued : t.chat.state.queued = t.chat.outbox.length + t.chat.awaiting.length) :
    ReadBack past t := by
  have recovery : t.books.recovery = past.books.recovery := by rw [books]; rfl
  have historyStart : t.books.historyStart = past.books.historyStart := by rw [books]; rfl
  have pending : t.books.pending = past.books.undelivered := by rw [books]
  have store : t.chat.store = { events := past.chat.store.events } := congrArg (·.store) unset
  have turn : (Chat.loaded past.chat.sessionId past.chat.disk).turn = t.chat.store.turn := by
    rw [store, ← loaded_store sound]
    rfl
  refine ⟨books, ?_, congrArg (·.runner) unset, congrArg (·.parked) unset,
    congrArg (·.current) unset, congrArg (·.benched) unset, congrArg (·.launchedOnce) unset,
    congrArg (·.meta_.data.providers) unset, built, queued⟩
  rw [recovery, historyStart, pending, ← turn]
  exact congrArg Chat.desk unset

omit sound in
theorem wp_openSettings_failed {s : Conf} {Q : Unit → Conf → Prop} {H : Halt → Conf → Prop}
    {providers : List String} {cwd : Option String} {error : String}
    (failed : s.chat.startupError = some error)
    (h : ∀ t, t.chat.startupError = some error → t.books = s.books →
      t.chat.meta_ = s.chat.meta_ → t.built = s.built → Q () t) :
    wp (openSettings providers cwd) Q H s := by
  obtain ⟨hunset, hfailed, hmeta⟩ := s.chat.restoreSettings_keeps providers cwd
  unfold openSettings
  simp only [wp_bind, wp_self, wp_change]
  generalize s.chat.restoreSettings providers cwd = c at hunset hfailed hmeta ⊢
  have hsession : c.sessionId = s.chat.sessionId := congrArg (·.sessionId) hunset
  have hstore : c.store = s.chat.store := congrArg (·.store) hunset
  apply wp_openCommit_failed (hfailed.trans failed)
  rw [wp_change]
  refine h _ (hfailed.trans failed) ?_ hmeta rfl
  show ({ s with chat := c.opened } : Conf).books = s.books
  unfold Conf.books Chat.opened
  rw [hsession, hstore, hmeta]

omit [Host] sound in
/-- A chat that could not be opened ends at once, with its files as they are. -/
theorem begin_failed {s : Conf} {error : String} {pending : List PendingMessage}
    {Q : Unit → Conf → Prop} {H : Halt → Conf → Prop}
    (failed : s.chat.startupError = some error)
    (which : pending = past.books.pending ∨ pending = past.books.undelivered)
    (books : s.books = { past.books with pending })
    (natives : s.chat.meta_.data.providers = past.chat.meta_.data.providers)
    (built : s.built = past.built) (h : ∀ e t, Unread past t → H e t) :
    wp begin_ Q H s := by
  unfold begin_
  simp only [wp_bind, wp_self, failed, wp_persistenceFailed]
  have hr := Conf.abandoned_remains s s.calls "opening durable session state" error
  have trace : s.trace = past.trace := congrArg Books.trace books
  refine h _ _ ⟨⟨pending, which, ?_⟩, natives, hr.built.trans built, trace ▸ hr.trace⟩
  rw [← books]
  exact hr.leaves.ends.grows

/-- What the files say is read back, or the files could not be brought up to date. -/
theorem wp_openFrom (providers : List String) (cwd : Option String) (env : Env)
    {Q : Unit → Conf → Prop} {H : Halt → Conf → Prop} (hread : ∀ t, ReadBack past t → Q () t)
    (hfailed : ∀ e t, Unread past t → (∃ n, env.commit n ≠ .done) → H e t) :
    wp (do openAt providers cwd; begin_) Q H { past with
      env, calls := 0, chat := Chat.loaded past.chat.sessionId past.chat.disk } := by
  rw [loaded_eq sound]
  unfold openAt
  simp only [wp_bind]
  refine wp_openFiles sound ?_ ?_ ?_
  · intro s henv clean loaded unset books built
    subst henv
    have hpending : s.chat.meta_.data.pending = past.books.undelivered :=
      congrArg Books.pending books
    have natives {t : Conf} (h : t.chat.unset = { s.chat.unset with
        outbox := s.chat.meta_.data.pending }) :
        t.chat.meta_.data.providers = past.chat.meta_.data.providers :=
      (congrArg (·.meta_.data.providers) h).trans (congrArg (·.meta_.data.providers) unset)
    refine wp_openSettings clean loaded ?_ ?_ ?_
    · intro t hunset hclean hbooks hbuilt
      unfold begin_
      simp only [wp_bind, wp_self, hclean, wp_become]
      refine hread _ (opened_of_unset sound ?_ (hbooks.trans books) (hbuilt.trans built) rfl)
      rw [unset, hpending] at hunset
      exact hunset
    · intro t error failed hunset hbooks hbuilt herr
      exact begin_failed failed (.inr rfl) (hbooks.trans books) (natives hunset)
        (hbuilt.trans built) fun _ t ht => hfailed _ t ht herr
    · intro t hunset hbooks hbuilt herr
      have trace : t.trace = past.trace := congrArg Books.trace (hbooks.trans books)
      refine hfailed _ t
        ⟨⟨_, .inr rfl, ?_⟩, ?_, hbuilt.trans built, [], trace, by simp⟩ herr
      · rw [← books, ← hbooks]
        exact .refl _ _
      · exact (congrArg (·.meta_.data.providers) hunset).trans
          (congrArg (·.meta_.data.providers) unset)
  · intro s error failed books natives built herr
    refine wp_openSettings_failed failed fun t hfailed' hbooks hmeta hbuilt => ?_
    refine begin_failed hfailed' (.inl rfl) (hbooks.trans books) ?_ (hbuilt.trans built)
      fun _ t ht => hfailed _ t ht herr
    rw [hmeta]
    exact natives
  · intro t books natives built herr
    have trace : t.trace = past.trace := congrArg Books.trace books
    refine hfailed _ t ⟨⟨_, .inr rfl, ?_⟩, natives, built, [], trace, by simp⟩ herr
    rw [← books]
    exact .refl _ _

/-- The part of a chat that keeps count of the log. -/
def Chat.counts (c : Chat) : Store × ℤ × (ℕ → Option ℤ) × ℤ :=
  (c.store, c.turn, c.epochTurns, c.state.seq)

omit [Host] sound in
theorem Chat.restoreRecovery_counts (c : Chat) : c.restoreRecovery.counts = c.counts := by
  have state (c : Chat) : c.restoreState.counts = c.counts := by
    unfold restoreState
    split
    · rfl
    · split
      · dsimp only
        split <;> rfl
      · rfl
  have history (c : Chat) : c.restoreHistory.counts = c.counts := by
    unfold restoreHistory
    split
    · rfl
    · split <;> rfl
  exact (history _).trans (state c)

omit [Host] sound in
theorem Counted.same {s t : Conf} (h : Counted past s) (counts : t.chat.counts = s.chat.counts) :
    Counted past t := by
  simp only [Chat.counts, Prod.mk.injEq] at counts
  obtain ⟨store, turn, epochs, seq⟩ := counts
  exact ⟨store ▸ h.log, by rw [seq, store]; exact h.seq, by rw [turn, store]; exact h.turn,
    epochs.trans h.epochs⟩

/-- Steps that leave the log alone, and what is counted of it. -/
def counting (past : Conf) : Frame Conf where
  live s t := Counted past s → Counted past t
  halted s t := Counted past s → Counted past t
  refl _ := id
  trans h h' hs := h' (h hs)
  trans_halted h h' hs := h' (h hs)

omit sound in
theorem wp_openFrom_counted (providers : List String) (cwd : Option String) {s : Conf}
    (h : Counted past s) :
    wp (do openAt providers cwd; begin_) (fun _ t => Counted past t)
      (fun _ t => Counted past t) s := by
  have self_ : (counting past).Holds self := (counting past).refl
  have change_ {f : Chat → Chat} (counts : ∀ c, (f c).counts = c.counts) :
      (counting past).Holds (change f) := fun s hs => hs.same (counts s.chat)
  have commit_ (what : String) (edit : MetaData → MetaData) :
      (counting past).Holds (openCommit what edit) := by
    unfold openCommit tryCommit
    refine Frame.holds_bind self_ fun c => Frame.holds_ite ?_ (Frame.holds_pure _)
    refine Frame.holds_bind (Frame.holds_bind self_ fun d => ?_) fun answer => ?_
    · split
      · exact Frame.holds_pure _
      · refine Frame.holds_ite (Frame.holds_pure _) ?_
        refine Frame.holds_bind (fun s hs => hs.same rfl) fun write => ?_
        split
        · exact Frame.holds_bind (change_ fun _ => rfl) fun _ => Frame.holds_pure _
        · exact Frame.holds_pure _
        · exact Frame.holds_bind (change_ fun _ => rfl) fun _ _ => id
    · split
      · exact Frame.holds_pure _
      · exact change_ fun _ => rfl
  have opened : (counting past).Holds (change Chat.opened) :=
    fun s hs => ⟨hs.log, rfl, hs.turn, hs.epochs⟩
  have files : (counting past).Holds openFiles := by
    unfold openFiles
    refine Frame.holds_bind (change_ Chat.restoreRecovery_counts) fun _ => ?_
    exact Frame.holds_bind self_ fun c => commit_ _ _
  have settings : (counting past).Holds (openSettings providers cwd) := by
    unfold openSettings
    refine Frame.holds_bind (change_ fun _ => rfl) fun _ => Frame.holds_bind self_ fun c => ?_
    exact Frame.holds_bind (commit_ _ _) fun _ => opened
  have begun : (counting past).Holds begin_ := by
    unfold begin_
    refine Frame.holds_bind self_ fun c => ?_
    split
    · exact fun s hs => hs.same rfl
    · exact fun s hs => hs.same rfl
  have all : (counting past).Holds (do openAt providers cwd; begin_) :=
    Frame.holds_bind (Frame.holds_bind files fun _ => settings) fun _ => begun
  exact all.wp (fun _ _ ht => ht h) fun _ _ ht => ht h

/-- The session is opened, or opening it could not write what it had to. -/
theorem opening_cases (providers : List String) (cwd : Option String) (env : Env)
    {P : System → Prop} (hopened : ∀ t, Opened past t → P { conf := t })
    (hfailed : ∀ t, OpenFailed past t → (∃ n, env.commit n ≠ .done) →
      P { conf := t, ended := true }) :
    P (System.opening past.chat.sessionId past.chat.disk past providers cwd env) := by
  have counted : Counted past { past with
      env, calls := 0, chat := Chat.loaded past.chat.sessionId past.chat.disk } := by
    rw [loaded_eq sound]
    have store := loaded_store sound
    refine ⟨rfl, ?_, ?_, rfl⟩
    · exact congrArg Store.seq store
    · exact congrArg Store.turn store
  have hread := wp_openFrom sound providers cwd env (Q := fun _ t => ReadBack past t)
    (H := fun _ t => Unread past t ∧ ∃ n, env.commit n ≠ .done) (fun _ => id) fun _ _ ht herr =>
      ⟨ht, herr⟩
  have hwp := wp_and hread (wp_openFrom_counted providers cwd counted)
  unfold wp at hwp
  split at hwp
  next t hm =>
    have reopened : System.opening past.chat.sessionId past.chat.disk past providers cwd env =
        { conf := t } := by
      unfold System.opening
      dsimp only
      rw [hm]
    rw [reopened]
    exact hopened _ ⟨hwp.1, hwp.2, _, _, _, reopened⟩
  next t hm =>
    have reopened : System.opening past.chat.sessionId past.chat.disk past providers cwd env =
        { conf := t, ended := true } := by
      unfold System.opening
      dsimp only
      rw [hm]
    rw [reopened]
    exact hfailed _ ⟨hwp.1.1, hwp.2, _, _, _, reopened⟩ hwp.1.2

end
end SiliconOmni
