import SiliconOmni.Chat.Aboard

/-! Calls that leave the runners where they are, and what the others do with them. -/
namespace SiliconOmni
open Lib Frame

/-- Who is attached and who is parked, what the attached one runs on, and what is wanted. -/
def Chat.post (c : Chat) : Option Handle × Entries Parked × Option Signature × Config :=
  (c.runner, c.parked, c.current, c.config)

/-- `t` comes after `s` with every runner where it was, and nothing asked of any but the attached
one. -/
structure Unmoved (s t : Conf) : Prop where
  post : t.chat.post = s.chat.post
  built : t.built = s.built
  env : t.env = s.env
  trace : ∃ os, t.trace = os ++ s.trace ∧
    ∀ o ∈ os, o.isMinor = true ∧ ∀ runner, o.about = some runner → s.chat.runner = some runner

namespace Unmoved
variable {s t u : Conf}

theorem of_same (post : t.chat.post = s.chat.post) (built : t.built = s.built) (env : t.env = s.env)
    (trace : t.trace = s.trace) : Unmoved s t := ⟨post, built, env, [], trace, by simp⟩

theorem refl (s : Conf) : Unmoved s s := of_same rfl rfl rfl rfl

theorem runner (h : Unmoved s t) : t.chat.runner = s.chat.runner := congrArg (·.1) h.post

theorem parked (h : Unmoved s t) : t.chat.parked = s.chat.parked := congrArg (·.2.1) h.post

theorem current (h : Unmoved s t) : t.chat.current = s.chat.current := congrArg (·.2.2.1) h.post

theorem config (h : Unmoved s t) : t.chat.config = s.chat.config := congrArg (·.2.2.2) h.post

theorem trans (h : Unmoved s t) (h' : Unmoved t u) : Unmoved s u where
  post := h'.post.trans h.post
  built := h'.built.trans h.built
  env := h'.env.trans h.env
  trace := by
    obtain ⟨os, ho, hos⟩ := h.trace
    obtain ⟨ps, hp, hps⟩ := h'.trace
    refine ⟨ps ++ os, by rw [hp, ho, List.append_assoc], fun o member => ?_⟩
    rcases List.mem_append.mp member with member | member
    · obtain ⟨minor, about⟩ := hps o member
      exact ⟨minor, fun runner heq => h.runner ▸ about runner heq⟩
    · exact hos o member

/-- Where no runner moves, those on board stay there. -/
theorem aboard {stays : Handle → Prop} {hand : List Handle} (h : Unmoved s t) (on : Aboard stays hand s) :
    Aboard stays hand t := by
  obtain ⟨os, ho, hos⟩ := h.trace
  have noted (ps : List Obs) (hps : ∀ o ∈ ps, o.isMinor = true ∧
      ∀ runner, o.about = some runner → s.chat.runner = some runner) :
      Aboard stays hand { s with trace := ps ++ s.trace } := by
    induction ps with
    | nil => exact on
    | cons o ps ih =>
      have rest := ih fun o member => hps o (List.mem_cons_of_mem _ member)
      obtain ⟨minor, about⟩ := hps o List.mem_cons_self
      exact rest.noted minor fun runner heq => Aboard.attached_board (about runner heq)
  have board : t.board hand = s.board hand := by
    simp [Conf.board, Chat.running, h.runner, h.parked]
  have all := noted os hos
  refine all.regroup ho h.built ?_ (h.parked ▸ all.keyed) ?_ (h.parked ▸ all.lot)
  · rw [board]
    exact .refl _
  · intro runner attached
    rw [h.runner] at attached
    rw [h.current]
    exact all.seat runner attached

end Unmoved

/-- Every runner is where it belongs, and the world outside keeps to what it promised. -/
structure Crewed (stays : Handle → Prop) (s : Conf) : Prop where
  aboard : Aboard stays [] s
  loyal : Loyal stays s.env

/-- Steps that leave the runners where they are. -/
def unmoving (stays : Handle → Prop) : Frame Conf where
  live := Unmoved
  halted s t := Crewed stays s → Ashore stays t
  refl := Unmoved.refl
  trans := Unmoved.trans
  trans_halted h h' crewed := h' ⟨h.aboard crewed.aboard, h.env ▸ crewed.loyal⟩

/-- Steps after which every runner is where it belongs. -/
def crewing (stays : Handle → Prop) : Frame Conf where
  live s t := Crewed stays s → Crewed stays t
  halted s t := Crewed stays s → Ashore stays t
  refl _ := id
  trans h h' := h' ∘ h
  trans_halted h h' := h' ∘ h

section calm
variable {α : Type} {stays : Handle → Prop} {s t : Conf}

theorem Unmoved.crewed (h : Unmoved s t) (crewed : Crewed stays s) : Crewed stays t :=
  ⟨h.aboard crewed.aboard, h.env ▸ crewed.loyal⟩

theorem crews_of_unmoved {m : Conductor α} (h : (unmoving stays).Holds m) : (crewing stays).Holds m :=
  fun s => wp_mono (h s) (fun _ _ calm => calm.crewed) fun _ _ => id

theorem change_unmoved {f : Chat → Chat} (same : ∀ c, (f c).post = c.post) :
    (unmoving stays).Holds (change f) := fun s => .of_same (same s.chat) rfl rfl rfl

theorem notes_unmoved {os : List Obs} (minor : ∀ o ∈ os, o.isMinor = true ∧ o.about = none) :
    (unmoving stays).Holds (notes os) := by
  refine fun s => ⟨rfl, rfl, rfl, os, rfl, fun o member => ⟨(minor o member).1, ?_⟩⟩
  intro runner about
  cases (minor o member).2.symm.trans about

theorem note_unmoved {o : Obs} (minor : o.isMinor = true) (about : o.about = none) :
    (unmoving stays).Holds (note o) := by
  have one : (unmoving stays).Holds (notes [o]) := notes_unmoved (by simp [minor, about])
  exact one

theorem asks_unmoved (question : Env → ℕ → α) : (unmoving stays).Holds (asks question) :=
  fun _ => .of_same rfl rfl rfl rfl

theorem settle_unmoved (f : Snapshot → Snapshot) : (unmoving stays).Holds (settle f) :=
  fun _ => .of_same rfl rfl rfl rfl

theorem become_unmoved (status : Status) : (unmoving stays).Holds (become status) := settle_unmoved _

theorem busy_unmoved (calls : List Call) : (unmoving stays).Holds (do become .busy; return calls) :=
  holds_bind (become_unmoved _) fun _ => holds_pure _

theorem refresh_unmoved : (unmoving stays).Holds refresh := fun _ => .of_same rfl rfl rfl rfl

/-- One calm step after another, where what comes later depends on where the first one led. -/
theorem bind_unmoved {β : Type} {m : Conductor α} {f : α → Conductor β}
    (hm : wp m (fun _ t => Unmoved s t) (fun _ t => (unmoving stays).halted s t) s)
    (hf : ∀ a t, Unmoved s t → wp (f a) (fun _ u => Unmoved t u) (fun _ u => (unmoving stays).halted t u) t) :
    wp (m >>= f) (fun _ u => Unmoved s u) (fun _ u => (unmoving stays).halted s u) s := by
  rw [wp_bind]
  refine wp_mono hm (fun a t calm => ?_) fun _ _ => id
  exact wp_mono (hf a t calm) (fun _ _ => calm.trans) fun _ _ => (unmoving stays).trans_halted calm

/-- Something is asked of the attached runner, or heard of it. -/
theorem notes_attached {os : List Obs} (minor : ∀ o ∈ os, o.isMinor = true ∧
    ∀ runner, o.about = some runner → s.chat.runner = some runner) :
    wp (notes os) (fun _ t => Unmoved s t) (fun _ t => (unmoving stays).halted s t) s :=
  ⟨rfl, rfl, rfl, os, rfl, minor⟩

theorem note_attached {o : Obs} {runner : Handle} (minor : o.isMinor = true)
    (about : o.about = some runner) (attached : s.chat.runner = some runner) :
    wp (note o) (fun _ t => Unmoved s t) (fun _ t => (unmoving stays).halted s t) s :=
  ⟨rfl, rfl, rfl, [o], rfl, by simp [minor, about, attached]⟩

/-- A conductor that ends on its own puts down every runner that it keeps. -/
theorem Aboard.abandoned (h : Aboard stays [] s) (calls : ℕ) (action error : String) :
    Ashore stays (s.abandoned calls action error) := by
  have calm : Unmoved s { s with trace :=
      (if s.chat.inTurn then s.chat.runner.toList.map Obs.interrupted else []) ++ s.trace } := by
    refine ⟨rfl, rfl, rfl, _, rfl, fun o member => ?_⟩
    split at member
    · obtain ⟨runner, attached, rfl⟩ := List.mem_map.mp member
      refine ⟨rfl, fun other heq => ?_⟩
      rw [← Option.some.inj heq]
      exact Option.mem_toList.mp attached
    · cases member
  have stripped := (calm.aboard h).strip (c := s.chat.abandoned action error) rfl rfl
  exact (stripped.stopAll.ashore rfl).same rfl rfl

theorem persistenceFailed_unmoved (action error : String) :
    (unmoving stays).Holds (persistenceFailed action error : Conductor α) := by
  intro s
  rw [wp_persistenceFailed]
  exact fun crewed => crewed.aboard.abandoned _ _ _

/-- A process that dies leaves none that was to stay. -/
theorem Crewed.cut (h : Crewed stays s) (died : (∃ n, s.env.commit n = .cut) ∨ ∃ n, s.env.append n = .cut)
    (trace : t.trace = s.trace) (built : t.built = s.built) : Ashore stays t := by
  refine (h.aboard.cut fun runner stay => ?_).same trace built
  obtain ⟨-, commits, appends⟩ := h.loyal runner stay
  rcases died with ⟨n, cut⟩ | ⟨n, cut⟩
  · exact commits n cut
  · exact appends n cut

theorem tryCommit_unmoved (edit : MetaData → MetaData) : (unmoving stays).Holds (tryCommit edit) := by
  intro s
  unfold tryCommit
  simp only [wp_bind, wp_self]
  split
  · exact .refl s
  · split
    · exact .refl s
    · simp only [wp_bind, wp_asks]
      split
      · exact .of_same rfl rfl rfl rfl
      · exact .of_same rfl rfl rfl rfl
      next died => exact fun crewed => crewed.cut (.inl ⟨_, died⟩) rfl rfl

theorem commit_unmoved (action : String) (edit : MetaData → MetaData) :
    (unmoving stays).Holds (commit action edit) := by
  unfold commit
  refine holds_bind (tryCommit_unmoved edit) fun answer => ?_
  split
  · exact holds_pure _
  · exact persistenceFailed_unmoved _ _

theorem record_unmoved (event : Event) : (unmoving stays).Holds (record event) := by
  intro s
  have fails {t : Conf} (calm : Unmoved s t) (action error : String) :
      (unmoving stays).halted s (t.abandoned t.calls action error) :=
    fun crewed => (calm.aboard crewed.aboard).abandoned _ _ _
  unfold record
  simp only [wp_bind, wp_self]
  split
  · exact fails (.refl s) _ _
  · simp only [wp_bind, wp_asks]
    split
    · exact .of_same rfl rfl rfl rfl
    · simp only [wp_bind, wp_persistenceFailed]
      refine fails ?_ _ _
      exact .of_same rfl rfl rfl rfl
    · simp only [wp_bind, wp_change, wp_persistenceFailed]
      refine fails ?_ _ _
      exact .of_same rfl rfl rfl rfl
    next died =>
      simp only [wp_bind, wp_change, wp_throw]
      exact fun crewed => crewed.cut (.inr ⟨_, died⟩) rfl rfl

theorem blocked_unmoved (why : String) : (unmoving stays).Holds (blocked why) := by
  unfold blocked
  exact holds_bind (record_unmoved _) fun _ => become_unmoved _

theorem runnerAlive_unmoved : (unmoving stays).Holds runnerAlive := by
  unfold runnerAlive
  refine holds_bind Admits.holds_self fun c => ?_
  split
  · exact asks_unmoved _
  · exact holds_pure _

theorem markTold_unmoved : (unmoving stays).Holds markTold := by
  unfold markTold
  refine holds_bind Admits.holds_self fun c => ?_
  split
  · exact commit_unmoved _ _
  · exact holds_pure _

theorem saveRecovery_unmoved (next : Option Recovery) (since : Option ℤ)
    (message : Option PendingMessage) : (unmoving stays).Holds (saveRecovery next since message) := by
  unfold saveRecovery
  refine holds_bind Admits.holds_self fun c => ?_
  exact holds_bind (commit_unmoved _ _) fun _ => change_unmoved fun _ => rfl

theorem remember_unmoved : (unmoving stays).Holds rememberRunnerTurn := change_unmoved fun _ => rfl

theorem recordSwitch_unmoved (previous : String) (rung : Pick) :
    (unmoving stays).Holds (recordSwitch previous rung) := by
  unfold recordSwitch
  refine holds_ite (holds_bind (change_unmoved fun _ => rfl) fun _ => holds_ite ?_ (holds_pure _))
    (holds_pure _)
  exact holds_bind (record_unmoved _) fun _ => holds_pure _

theorem recordLaunch_unmoved (rung : Pick) (native : String) (fresh : Bool) :
    (unmoving stays).Holds (recordLaunch rung native fresh) := by
  unfold recordLaunch
  refine holds_bind (record_unmoved _) fun _ => holds_ite ?_ (holds_pure _)
  exact holds_bind (record_unmoved _) fun _ => holds_pure _

theorem anyoneLeft_unmoved : (unmoving stays).Holds anyoneLeft := by
  unfold anyoneLeft
  refine holds_bind Admits.holds_self fun c => holds_ite (holds_pure _) (holds_ite ?_ ?_)
  · exact holds_bind (blocked_unmoved _) fun _ => holds_pure _
  · refine holds_bind (change_unmoved fun _ => rfl) fun _ => holds_bind refresh_unmoved fun _ => ?_
    exact holds_bind (blocked_unmoved _) fun _ => holds_pure _

theorem recoveryEnded_unmoved (end_ : Event) : (unmoving stays).Holds (recoveryEnded end_) := by
  have save {next : Option Recovery} {calls : List Call} :
      (unmoving stays).Holds (do saveRecovery next none none; return calls) :=
    holds_bind (saveRecovery_unmoved _ _ _) fun _ => holds_pure _
  unfold recoveryEnded
  refine holds_bind Admits.holds_self fun c => holds_bind (change_unmoved fun _ => rfl) fun _ => ?_
  split
  · exact holds_pure _
  refine holds_ite (holds_ite (holds_pure _) (holds_ite (holds_pure _) ?_)) ?_
  · split
    · exact save
    · exact save
  refine holds_ite (holds_pure _) (holds_ite (holds_pure _) (holds_ite (holds_pure _) ?_))
  split
  · exact save
  · exact save
  · refine holds_bind (saveRecovery_unmoved _ _ _) fun _ => ?_
    exact holds_bind runnerAlive_unmoved fun _ => holds_ite (holds_pure _) (holds_pure _)

theorem resumeRecovery_unmoved : (unmoving stays).Holds resumeRecovery := by
  unfold resumeRecovery
  refine holds_bind Admits.holds_self fun c => ?_
  split
  · exact holds_pure _
  refine holds_ite (holds_pure _) (holds_ite (holds_pure _) ?_)
  extract_lets events
  split
  · exact holds_pure _
  split
  · refine holds_ite (holds_pure _) ?_
    exact holds_bind (change_unmoved fun _ => rfl) fun _ => holds_pure _
  · exact holds_pure _

theorem settleIdle_unmoved : (unmoving stays).Holds settleIdle := by
  unfold settleIdle
  refine holds_bind Admits.holds_self fun c => ?_
  refine holds_ite (holds_bind (become_unmoved _) fun _ => ?_) ?_
  · exact holds_pure _
  · exact holds_pure _

theorem stopped_unmoved : (unmoving stays).Holds stopped := by
  have closeLast : (unmoving stays).Holds closeLast := by
    unfold SiliconOmni.closeLast
    refine holds_bind Admits.holds_self fun c => holds_ite ?_ (holds_pure _)
    exact holds_bind (record_unmoved _) fun _ => note_unmoved rfl rfl
  unfold stopped
  refine holds_bind (change_unmoved fun _ => rfl) fun _ => holds_bind closeLast fun _ => ?_
  refine holds_bind (change_unmoved fun _ => rfl) fun _ => holds_bind (record_unmoved _) fun _ => ?_
  exact holds_bind (become_unmoved _) fun _ => holds_pure _

theorem straggler_unmoved (event : Event) : (unmoving stays).Holds (straggler event) := by
  unfold straggler
  refine holds_bind Admits.holds_self fun c => holds_ite (holds_pure _) ?_
  split
  · exact holds_pure _
  · refine holds_ite (holds_pure _) (holds_bind (asks_unmoved _) fun ours => ?_)
    split <;> exact holds_pure _

theorem react_unmoved (event : Event) : (unmoving stays).Holds (react event) := by
  have set_ {f : Chat → Chat} (hf : ∀ c, (f c).post = c.post) :
      (unmoving stays).Holds (do change f; return ([] : List Call)) :=
    holds_bind (change_unmoved hf) fun _ => holds_pure _
  have end_ : (unmoving stays).Holds (reactToEnd event) := by
    unfold reactToEnd
    refine holds_bind Admits.holds_self fun c => holds_bind (notes_unmoved ?_) fun _ => ?_
    · split <;> simp [Obs.isMinor, Obs.about]
    refine holds_bind (change_unmoved fun _ => rfl) fun _ => holds_ite (holds_pure _) ?_
    refine holds_bind (change_unmoved fun _ => rfl) fun _ => ?_
    split
    · exact holds_pure _
    · exact holds_ite (holds_pure _) (holds_pure _)
    · exact holds_pure _
  have error : (unmoving stays).Holds (reactToError event) := by
    unfold reactToError
    refine holds_bind Admits.holds_self fun c => ?_
    split
    · refine holds_ite (holds_bind (change_unmoved fun _ => rfl) fun _ => ?_) (holds_pure _)
      exact holds_ite (holds_ite (holds_pure _) (holds_pure _)) (holds_pure _)
    · split
      · exact set_ fun _ => rfl
      · exact holds_pure _
      · exact holds_pure _
      · exact holds_ite (set_ fun _ => rfl) (holds_pure _)
      · exact holds_ite (set_ fun _ => rfl) (holds_pure _)
      · exact holds_pure _
  unfold react
  refine holds_bind Admits.holds_self fun c => holds_ite (holds_ite ?_ (holds_pure _)) ?_
  · exact holds_bind (note_unmoved rfl rfl) fun _ => set_ fun _ => rfl
  refine holds_ite ?_ (holds_ite end_ (holds_ite error (holds_pure _)))
  exact holds_bind (change_unmoved fun _ => rfl) fun _ => busy_unmoved _

variable [Host]

theorem rung_unmoved : (unmoving stays).Holds rung := by
  unfold rung
  exact holds_bind Admits.holds_self fun _ => holds_bind (asks_unmoved _) fun _ => holds_pure _

theorem stale_unmoved : (unmoving stays).Holds stale := by
  unfold stale
  refine holds_bind Admits.holds_self fun c => ?_
  split
  · exact holds_pure _
  · refine holds_bind rung_unmoved fun rung => ?_
    split
    · exact holds_bind Admits.holds_self fun _ => holds_pure _
    · exact holds_pure _

theorem ready_unmoved : (unmoving stays).Holds ready := by
  unfold ready
  refine holds_bind runnerAlive_unmoved fun _ => holds_ite ?_ (holds_pure _)
  exact holds_bind stale_unmoved fun _ => holds_pure _

theorem flush_unmoved : (unmoving stays).Holds flush := by
  unfold flush
  refine holds_bind ready_unmoved fun _ => holds_ite (holds_pure _) ?_
  refine holds_bind Admits.holds_self fun c => holds_ite ?_ (holds_pure _)
  refine holds_bind runnerAlive_unmoved fun _ => holds_ite ?_ (holds_pure _)
  exact holds_bind (blocked_unmoved _) fun _ => holds_pure _

theorem dispatchQueued_unmoved : (unmoving stays).Holds dispatchQueued := by
  unfold dispatchQueued
  refine holds_bind runnerAlive_unmoved fun _ => holds_ite ?_ (holds_pure _)
  refine holds_bind Admits.holds_self fun c => holds_ite (holds_pure _) ?_
  exact holds_bind stale_unmoved fun _ => holds_ite (holds_pure _) (holds_pure _)

theorem repeated_unmoved (event : Event) : (unmoving stays).Holds (repeated event) := by
  unfold repeated
  refine holds_ite (holds_bind Admits.holds_self fun c => holds_ite (holds_pure _) ?_) (holds_pure _)
  exact holds_bind (change_unmoved fun _ => rfl) fun _ => holds_pure _

theorem newId_unmoved : (unmoving stays).Holds newId := fun _ => .of_same rfl rfl rfl rfl

theorem requeue_unmoved (retry : Bool) : (unmoving stays).Holds (requeue retry) := by
  unfold requeue
  refine holds_bind (change_unmoved fun _ => rfl) fun _ => holds_bind Admits.holds_self fun c => ?_
  extract_lets rest
  have hrest : ∀ r, (unmoving stays).Holds (rest r) := fun _ => change_unmoved fun _ => rfl
  refine holds_ite ?_ (hrest ⟨⟩)
  refine holds_bind (fun _ => .of_same rfl rfl rfl rfl) fun messages => ?_
  refine holds_bind (commit_unmoved _ _) fun _ => ?_
  exact holds_bind (change_unmoved fun _ => rfl) fun _ => hrest ⟨⟩

theorem queueRecovery_unmoved (stage : RecoveryStage) (text : String) (fresh : Bool) :
    (unmoving stays).Holds (queueRecovery stage text fresh) := by
  unfold queueRecovery
  refine holds_bind newId_unmoved fun _ => holds_bind (note_unmoved rfl rfl) fun _ => ?_
  refine holds_bind Admits.holds_self fun c => holds_bind (saveRecovery_unmoved _ _ _) fun _ => ?_
  exact holds_bind (change_unmoved fun _ => rfl) fun _ => become_unmoved _

theorem finishTurn_unmoved : (unmoving stays).Holds finishTurn := by
  unfold finishTurn
  refine holds_bind (change_unmoved fun _ => rfl) fun _ => holds_bind Admits.holds_self fun c => ?_
  refine holds_ite (holds_bind (change_unmoved fun _ => rfl) fun _ => busy_unmoved _) ?_
  refine holds_bind markTold_unmoved fun _ => holds_ite ?_ ?_
  · exact holds_bind (change_unmoved fun _ => rfl) fun _ => busy_unmoved _
  · exact holds_bind stale_unmoved fun _ => holds_ite (busy_unmoved _) (holds_pure _)

theorem launchOnce_unmoved : (unmoving stays).Holds launchOnce := by
  unfold launchOnce
  refine holds_bind Admits.holds_self fun c => holds_ite (holds_pure _) ?_
  refine holds_bind (change_unmoved fun _ => rfl) fun _ => holds_ite (holds_pure _) ?_
  exact holds_bind ready_unmoved fun _ => holds_ite (holds_pure _) (holds_pure _)

theorem enqueue_unmoved (text : String) : (unmoving stays).Holds (enqueue text) := by
  unfold enqueue
  refine holds_bind newId_unmoved fun _ => holds_bind (commit_unmoved _ _) fun _ => ?_
  refine holds_bind (change_unmoved fun _ => rfl) fun _ => holds_bind (become_unmoved _) fun _ => ?_
  exact holds_bind (note_unmoved rfl rfl) fun _ => holds_pure _

theorem refused_unmoved (why : String) : (unmoving stays).Holds (refused why) := by
  unfold refused
  refine holds_bind Admits.holds_self fun c => holds_ite ?_ (holds_ite (holds_pure _) ?_)
  · refine holds_bind (record_unmoved _) fun _ => holds_ite ?_ (holds_ite ?_ (holds_pure _))
    · exact holds_bind (change_unmoved fun _ => rfl) fun _ => holds_pure _
    · exact holds_bind (change_unmoved fun _ => rfl) fun _ => holds_pure _
  · exact holds_bind (record_unmoved _) fun _ => holds_ite (holds_pure _) (holds_pure _)

omit [Host] in
theorem publish_unmoved : (unmoving stays).Holds (do publish; return ([] : List Call)) := by
  refine fun s => ⟨rfl, rfl, rfl, _, rfl, fun o member => ?_⟩
  obtain ⟨event, -, rfl⟩ := List.mem_map.mp (List.mem_reverse.mp member)
  exact ⟨rfl, by rintro _ ⟨⟩⟩

omit [Host] in
theorem confirm_unmoved (event : Event) : (unmoving stays).Holds (confirm event) := by
  intro s
  have attached (opening : EventType) (seq : ℤ) : ∀ o ∈ s.chat.confirming opening seq,
      o.isMinor = true ∧ ∀ runner, o.about = some runner → s.chat.runner = some runner := by
    unfold Chat.confirming
    cases s.chat.runner with
    | none => simp
    | some runner => dsimp only; split <;> simp [Obs.isMinor, Obs.about]
  unfold confirm
  rw [wp_bind, wp_self]
  split
  · split
    · refine bind_unmoved (record_unmoved _ s) fun event t calm => ?_
      refine bind_unmoved (notes_attached fun o member => calm.runner ▸ attached _ _ o member)
        fun _ u _ => ?_
      refine (?_ : (unmoving stays).Holds _) u
      refine holds_bind (change_unmoved fun _ => rfl) fun _ => holds_bind remember_unmoved fun _ => ?_
      refine holds_bind (commit_unmoved _ _) fun _ => holds_bind (change_unmoved fun _ => rfl) fun _ => ?_
      refine holds_bind (change_unmoved fun _ => rfl) fun _ => ?_
      exact holds_bind (change_unmoved fun _ => rfl) fun _ => busy_unmoved _
    · exact .refl s
  · exact .refl s

omit [Host] in
theorem recoverContext_unmoved (delivered : Bool) : (unmoving stays).Holds (recoverContext delivered) := by
  intro s
  unfold recoverContext
  rw [wp_bind, wp_self]
  extract_lets opened retry
  refine bind_unmoved (saveRecovery_unmoved _ _ _ s) fun _ t calm => ?_
  refine bind_unmoved (.of_same rfl rfl rfl rfl) fun _ u later => ?_
  split
  next runner attached =>
    refine bind_unmoved (asks_unmoved _ u) fun answer v last => ?_
    have seated : v.chat.runner = some runner :=
      (calm.trans (later.trans last)).runner.trans attached
    refine bind_unmoved (note_attached rfl rfl seated) fun _ w _ => ?_
    refine (?_ : (unmoving stays).Holds _) w
    refine holds_ite ?_ (holds_pure _)
    refine holds_bind (change_unmoved fun _ => rfl) fun _ => holds_bind (become_unmoved _) fun _ => ?_
    exact holds_bind (record_unmoved _) fun _ => holds_pure _
  · exact .refl u

omit [Host] in
theorem deliver_unmoved : (unmoving stays).Holds deliver := by
  intro s
  unfold deliver
  rw [wp_bind, wp_self]
  split
  next message rest runner queue seated =>
    split
    · exact .refl s
    refine bind_unmoved (asks_unmoved _ s) fun sent t calm => ?_
    refine bind_unmoved (note_attached rfl rfl (calm.runner.trans seated)) fun _ u later => ?_
    split
    · exact .refl u
    · refine (?_ : (unmoving stays).Holds _) u
      exact holds_bind (change_unmoved fun _ => rfl) fun _ => busy_unmoved _
    · refine bind_unmoved (record_unmoved _ u) fun event v last => ?_
      extract_lets queued
      have attached : v.chat.runner = some runner :=
        (calm.trans (later.trans last)).runner.trans seated
      have opened : ∀ o ∈ (if queued || !s.chat.inTurn then
          [Obs.opened runner event.seq, .shared runner event.seq] else [.shared runner event.seq]),
          o.isMinor = true ∧ ∀ other, o.about = some other → v.chat.runner = some other := by
        split <;> simp [Obs.isMinor, Obs.about, attached]
      refine bind_unmoved (notes_attached opened) fun _ w _ => ?_
      refine (?_ : (unmoving stays).Holds _) w
      refine holds_bind (change_unmoved fun _ => rfl) fun _ => holds_bind remember_unmoved fun _ => ?_
      refine holds_bind (commit_unmoved _ _) fun _ => holds_bind (change_unmoved fun _ => rfl) fun _ => ?_
      exact holds_bind (change_unmoved fun _ => rfl) fun _ => busy_unmoved _
  · exact .refl s

theorem absorb_unmoved (epoch : ℕ) (report : Report) : (unmoving stays).Holds (absorb epoch report) := by
  intro s
  unfold absorb
  rw [wp_bind, wp_self]
  extract_lets event
  refine bind_unmoved (straggler_unmoved _ s) fun late t _ => ?_
  extract_lets taken
  refine bind_unmoved (repeated_unmoved _ t) fun said u _ => ?_
  split
  · exact .refl u
  split
  · split
    · exact .refl u
    · exact confirm_unmoved _ u
  refine bind_unmoved (record_unmoved _ u) fun logged v _ => ?_
  rw [wp_bind, wp_self]
  split
  · exact .of_same rfl rfl rfl rfl
  · have heard : ∀ o ∈ v.chat.runner.toList.map (Obs.shared · logged.seq), o.isMinor = true ∧
        ∀ runner, o.about = some runner → v.chat.runner = some runner := by
      intro o member
      obtain ⟨runner, attached, rfl⟩ := List.mem_map.mp member
      refine ⟨rfl, fun other heq => ?_⟩
      rw [← Option.some.inj heq]
      exact Option.mem_toList.mp attached
    exact bind_unmoved (notes_attached heard) fun _ w _ => react_unmoved _ w

end calm
end SiliconOmni
