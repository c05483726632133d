import SiliconOmni.Chat.Authority

/-! The queues in memory against the pending list on disk, and the count others read of them. -/
namespace SiliconOmni
open Lib Frame

/-- The count of queued messages others read is the number there are. -/
def Conf.Tallied (s : Conf) : Prop :=
  s.chat.state.queued = s.chat.outbox.length + s.chat.awaiting.length

/-- The numbers that the count is about. -/
def Chat.tally (c : Chat) : ℕ × ℕ := (c.state.queued, c.outbox.length + c.awaiting.length)

/-- The steps that keep the count right, if it was. -/
def tallying : Frame Conf where
  live s t := s.Tallied → t.Tallied
  halted _ _ := True
  refl _ := id
  trans h h' hs := h' (h hs)
  trans_halted _ _ := trivial

/-- The steps that leave the count right, whatever it was. -/
def Settling {α : Type} (m : Conductor α) : Prop :=
  ∀ s, wp m (fun _ t => t.Tallied) (fun _ _ => True) s

section primitives
variable {α β : Type} {m : Conductor α} {f : α → Conductor β} {s : Conf}

theorem Settling.tallied (h : Settling m) : tallying.Holds m :=
  fun s => wp_mono (h s) (fun _ _ ht _ => ht) fun _ _ => id

/-- What holds after the last step from anywhere, whatever came before. -/
theorem wp_last {Q : β → Conf → Prop} (hf : ∀ a s, wp (f a) Q (fun _ _ => True) s) (s : Conf) :
    wp (m >>= f) Q (fun _ _ => True) s := by
  rw [wp_bind]
  unfold wp
  split
  · exact hf _ _
  · trivial

theorem settling_last (hf : ∀ a, Settling (f a)) : Settling (m >>= f) :=
  fun s => wp_last hf s

theorem settling_then (hm : Settling m) (hf : ∀ a, tallying.Holds (f a)) : Settling (m >>= f) := by
  intro s
  rw [wp_bind]
  refine wp_mono (hm s) (fun a t ht => ?_) fun _ _ => id
  exact (hf a).wp (fun _ _ hu => hu ht) fun _ _ => id

theorem settling_ite {c : Prop} [Decidable c] {m n : Conductor α} (hm : Settling m)
    (hn : Settling n) : Settling (if c then m else n) := by
  split
  · exact hm
  · exact hn

theorem settling_halt (action error : String) :
    Settling (persistenceFailed action error : Conductor α) := by
  intro s
  rw [wp_persistenceFailed]
  trivial

theorem settling_settle (f : Snapshot → Snapshot) : Settling (settle f) := fun _ => rfl

theorem settling_refresh : Settling refresh := fun _ => rfl

theorem settling_record (event : Event) : Settling (record event) :=
  fun _ => wp_record rfl fun _ _ _ => trivial

theorem self_tallied : tallying.Holds self := fun _ => id

theorem asks_tallied (question : Env → ℕ → α) : tallying.Holds (asks question) := fun _ => id

theorem note_tallied (o : Obs) : tallying.Holds (note o) := fun _ => id

theorem notes_tallied (os : List Obs) : tallying.Holds (notes os) := fun _ => id

theorem change_tallied {f : Chat → Chat} (hf : ∀ c, (f c).tally = c.tally) :
    tallying.Holds (change f) := by
  intro s hs
  have h := hf s.chat
  simp only [Chat.tally, Prod.mk.injEq] at h
  show (f s.chat).state.queued = (f s.chat).outbox.length + (f s.chat).awaiting.length
  rw [h.1, h.2]
  exact hs

theorem tryCommit_tallied (edit : MetaData → MetaData) : tallying.Holds (tryCommit edit) :=
  fun _ => wp_tryCommit (fun _ => id) (fun _ _ => id) fun _ _ => trivial

theorem commit_tallied (action : String) (edit : MetaData → MetaData) :
    tallying.Holds (commit action edit) :=
  fun _ => wp_commit (fun _ => id) fun _ _ _ => trivial

/-- Questions leave the count alone. -/
theorem tallied_of_looked {P : α → Conf → Conf → Prop}
    (h : ∀ s, wp m (fun a t => Looked s t ∧ P a s t) (fun _ _ => False) s) :
    tallying.Holds m := by
  intro s
  refine wp_mono (h s) (fun a t ht hs => ?_) fun _ _ => False.elim
  unfold Conf.Tallied
  rw [ht.1.chat]
  exact hs

theorem settling_blocked (why : String) : Settling (blocked why) :=
  settling_last fun _ => settling_settle _

theorem runnerAlive_tallied : tallying.Holds runnerAlive :=
  tallied_of_looked (P := fun _ _ _ => True) fun _ =>
    wp_mono runnerAlive_looked (fun _ _ h => ⟨h, trivial⟩) fun _ _ => id

theorem markTold_tallied : tallying.Holds markTold := by
  unfold markTold
  refine holds_bind self_tallied fun c => ?_
  split
  · exact commit_tallied _ _
  · exact holds_pure _

end primitives

section turns
variable [Host]

theorem rung_tallied : tallying.Holds rung := tallied_of_looked fun _ => rung_looked

theorem stale_tallied : tallying.Holds stale := tallied_of_looked fun _ => stale_looked

theorem ready_tallied : tallying.Holds ready := tallied_of_looked fun _ => ready_looked

/-- Replacing the runner either fails or says in the end who is attached. -/
theorem replace_settled (rung : Pick) (s : Conf) :
    wp (replace rung) (fun answer t => answer = .ok () → t.Tallied) (fun _ _ => True) s := by
  let Done (answer : Except String Unit) (t : Conf) : Prop := answer = .ok () → t.Tallied
  have adopted (runner : Handle) (epoch : Option ℕ) (fresh : Bool) :
      Settling (adopt runner epoch rung fresh) := by
    unfold adopt
    iterate 8 refine settling_last fun _ => ?_
    extract_lets rest
    have hrest : ∀ r, Settling (rest r) := fun _ => settling_last fun _ => settling_refresh
    refine settling_ite ?_ (hrest ⟨⟩)
    exact settling_last fun _ => settling_last fun _ => hrest ⟨⟩
  have done (runner : Handle) (epoch : Option ℕ) (fresh : Bool) (s : Conf) :
      wp (do adopt runner epoch rung fresh; return (.ok () : Except String Unit)) Done
        (fun _ _ => True) s := by
    rw [wp_bind]
    exact wp_mono (adopted runner epoch fresh s) (fun _ _ ht _ => ht) fun _ _ => id
  have failed (why : String) (s : Conf) :
      wp (pure (.error why) : Conductor (Except String Unit)) Done (fun _ _ => True) s := by rintro ⟨⟩
  have fresh (native : Native) (s : Conf) :
      wp (launchFresh rung native) Done (fun _ _ => True) s := by
    unfold launchFresh
    refine wp_last (fun c s => wp_last (fun up s => ?_) s) s
    split
    · exact failed _ _
    · refine wp_last (fun known s => ?_) s
      rw [wp_ite]
      constructor
      · intro _
        refine wp_last (fun _ s => wp_last (fun _ s => wp_last (fun _ s =>
          wp_last (fun again s => ?_) s) s) s) s
        split
        · exact failed _ _
        · exact done _ _ _ _
      · exact fun _ => done _ _ _ _
  have launched (s : Conf) : wp (launch rung) Done (fun _ _ => True) s := by
    unfold launch
    refine wp_last (fun c s => wp_last (fun kept s => ?_) s) s
    split
    · extract_lets rest
      have hrest : ∀ usable s, wp (rest usable) Done (fun _ _ => True) s := by
        intro usable s
        show wp (ite _ _ _) _ _ _
        rw [wp_ite]
        exact ⟨fun _ => done _ _ _ _, fun _ => wp_last (fun _ s => fresh _ s) s⟩
      rw [wp_ite]
      exact ⟨fun _ => wp_last hrest s, fun _ => wp_last hrest s⟩
    · exact fresh _ _
  unfold replace
  refine wp_last (fun c s => ?_) s
  extract_lets previous rest
  have hrest : ∀ r s, wp (rest r) Done (fun _ _ => True) s :=
    fun _ s => wp_last (fun _ s => launched s) s
  split
  · exact wp_last (fun _ s => wp_last hrest s) s
  · exact hrest ⟨⟩ s

omit [Host] in
theorem anyoneLeft_tallied : tallying.Holds anyoneLeft := by
  unfold anyoneLeft
  refine holds_bind self_tallied fun c => holds_ite (holds_pure _) (holds_ite ?_ ?_)
  · exact (settling_then (settling_blocked _) fun _ => holds_pure _).tallied
  · refine (settling_last fun _ => settling_last fun _ => ?_).tallied
    exact settling_then (settling_blocked _) fun _ => holds_pure _

omit [Host] in
theorem movedOn_settling (name why : String) : Settling (movedOn name why) := by
  unfold movedOn
  refine settling_last fun c => ?_
  extract_lets rest
  have hrest : ∀ r, Settling (rest r) := fun _ =>
    settling_last fun _ => settling_last fun _ => settling_refresh
  split
  · exact settling_last fun _ => settling_last fun _ => hrest ⟨⟩
  · exact hrest ⟨⟩

omit [Host] in
theorem sideline_tallied (name why : String) : tallying.Holds (sideline name why) := by
  unfold sideline
  refine holds_bind self_tallied fun c => holds_ite ?_ (holds_pure _)
  refine (settling_last fun _ => ?_).tallied
  exact settling_then (movedOn_settling _ _) fun _ => anyoneLeft_tallied

theorem notStarted_settling (why err : String) (next : List Call) :
    Settling (notStarted why err next) := by
  unfold notStarted
  refine settling_last fun answer => settling_last fun _ => ?_
  refine settling_ite (settling_then (settling_blocked _) fun _ => holds_pure _) ?_
  refine settling_then (settling_record _) fun _ => holds_bind (sideline_tallied _ _) fun left => ?_
  exact holds_ite (holds_pure _) (holds_pure _)

theorem attempt_tallied (why : String) (next : List Call) : tallying.Holds (attempt why next) := by
  unfold attempt
  refine holds_bind rung_tallied fun answer => ?_
  split
  next rung =>
    refine holds_bind ?_ fun took => holds_ite (holds_pure _) (holds_pure _)
    unfold retuneInPlace
    refine holds_bind (tallied_of_looked fun _ => tunable_looked _) fun tunable =>
      holds_ite (holds_bind self_tallied fun c => ?_) (holds_pure _)
    split
    · exact holds_pure _
    · refine holds_bind ?_ fun took => holds_ite ?_ (holds_pure _)
      · exact holds_bind (asks_tallied _) fun _ => holds_bind (note_tallied _) fun _ => holds_pure _
      · refine (settling_last fun _ => settling_last fun _ => ?_).tallied
        exact settling_then settling_refresh fun _ => holds_pure _
  next => exact (notStarted_settling _ _ _).tallied

theorem attemptReplace_settling (rung : Pick) (why : String) (next : List Call) :
    Settling (attemptReplace rung why next) := by
  intro s
  unfold attemptReplace
  rw [wp_bind]
  refine wp_mono (replace_settled rung s) (fun answer t ht => ?_) fun _ _ => id
  split
  · exact ht rfl
  · exact notStarted_settling _ _ _ t

theorem closeTurn_settling (provider : String) (extra : Fields) (retry : Bool) :
    Settling (closeTurn provider extra retry) := by
  unfold closeTurn
  refine settling_last fun _ => settling_last fun _ => settling_last fun c => ?_
  have rest : Settling (do
      change fun c => { c with inTurn := false }
      change fun c => c.settle fun state =>
        { state with status := if retry ∧ c.outbox ≠ [] then .busy else .waiting }) :=
    settling_last fun _ _ => rfl
  refine settling_ite ?_ rest
  exact settling_last fun _ => settling_last fun _ => settling_last fun _ => rest

theorem failed_settling (provider kind : String) : Settling (failed provider kind) := by
  unfold failed
  refine settling_last fun c => settling_then (closeTurn_settling _ _ _) fun _ => ?_
  refine holds_ite (holds_pure _) (holds_ite ?_ (holds_pure _))
  refine holds_bind (sideline_tallied _ _) fun left => holds_ite (holds_pure _) (holds_pure _)

theorem unauthenticated_settling (provider : String) : Settling (unauthenticated provider) := by
  unfold unauthenticated
  refine settling_last fun c => settling_then (closeTurn_settling _ _ _) fun _ => ?_
  refine holds_ite (holds_pure _) (holds_ite (holds_pure _) ?_)
  refine (settling_last fun _ => settling_last fun _ => ?_).tallied
  refine settling_then (movedOn_settling _ _) fun _ => ?_
  exact holds_bind anyoneLeft_tallied fun left => holds_ite (holds_pure _) (holds_pure _)

end turns

section calls
variable [Host]

omit [Host] in
/-- A next state of recovery that supersedes no message, and brings none, moves none. -/
theorem saveRecovery_tallied {next : Option Recovery} {since : Option ℤ}
    (kept : ∀ old, superseded old next = none) :
    tallying.Holds (saveRecovery next since none) := by
  unfold saveRecovery
  refine holds_bind self_tallied fun c => ?_
  rw [kept]
  exact holds_bind (commit_tallied _ _) fun _ => change_tallied fun _ => rfl

omit [Host] in
theorem superseded_eq_none {next : Option Recovery}
    (other : ∀ recovery, next = some recovery → recovery.stage ≠ .handoff) (old : Option Recovery) :
    superseded old next = none := by
  unfold superseded
  cases next with
  | none => rfl
  | some recovery =>
    cases old with
    | none => rfl
    | some was => exact if_neg fun h => other recovery rfl h.1

omit [Host] in
theorem recoverContext_tallied (delivered : Bool) : tallying.Holds (recoverContext delivered) := by
  unfold recoverContext
  refine holds_bind self_tallied fun c => ?_
  refine holds_bind (saveRecovery_tallied (superseded_eq_none ?_)) fun _ => ?_
  · rintro recovery ⟨⟩
    rintro ⟨⟩
  refine holds_bind (change_tallied fun _ => rfl) fun _ => ?_
  split
  · refine holds_bind (asks_tallied _) fun answer => holds_bind (note_tallied _) fun _ => ?_
    refine holds_ite ?_ (holds_pure _)
    refine (settling_last fun _ => settling_last fun _ => ?_).tallied
    exact settling_then (settling_record _) fun _ => holds_pure _
  · exact holds_pure _

theorem queueRecovery_settling (stage : RecoveryStage) (text : String) (fresh : Bool) :
    Settling (queueRecovery stage text fresh) := by
  unfold queueRecovery
  iterate 5 refine settling_last fun _ => ?_
  exact settling_settle _

theorem recoveryMessage_settling (stage : RecoveryStage) (text : String) (fresh : Bool) :
    Settling (recoveryMessage stage text fresh) := by
  have queued (fresh : Bool) : Settling (do
      queueRecovery stage text fresh
      return [Call.dispatchQueued]) :=
    settling_then (queueRecovery_settling _ _ _) fun _ => holds_pure _
  unfold recoveryMessage
  exact settling_ite (settling_last fun _ => queued true) (queued false)

theorem recoveryFailed_settling (why : String) : Settling (recoveryFailed why) := by
  unfold recoveryFailed
  iterate 4 refine settling_last fun _ => ?_
  exact settling_then settling_refresh fun _ => holds_pure _

omit [Host] in
theorem recoveryEnded_tallied (end_ : Event) : tallying.Holds (recoveryEnded end_) := by
  have save {next : Option Recovery} {calls : List Call}
      (other : ∀ recovery, next = some recovery → recovery.stage ≠ .handoff) :
      tallying.Holds (do saveRecovery next none none; return calls) :=
    holds_bind (saveRecovery_tallied (superseded_eq_none other)) fun _ => holds_pure _
  unfold recoveryEnded
  refine holds_bind self_tallied fun c => holds_bind (change_tallied fun _ => rfl) fun _ => ?_
  split
  · exact holds_pure _
  refine holds_ite (holds_ite (holds_pure _) (holds_ite (holds_pure _) ?_)) ?_
  · split
    · exact save (by rintro recovery ⟨⟩; rintro ⟨⟩)
    · exact save (by rintro _ ⟨⟩)
  refine holds_ite (holds_pure _) (holds_ite (holds_pure _) (holds_ite (holds_pure _) ?_))
  split
  · exact save (by rintro recovery ⟨⟩; rintro ⟨⟩)
  · exact save (by rintro recovery ⟨⟩; rintro ⟨⟩)
  · refine holds_bind (saveRecovery_tallied (superseded_eq_none (by rintro _ ⟨⟩))) fun _ => ?_
    exact holds_bind runnerAlive_tallied fun _ => holds_ite (holds_pure _) (holds_pure _)

omit [Host] in
theorem resumeRecovery_tallied : tallying.Holds resumeRecovery := by
  unfold resumeRecovery
  refine holds_bind self_tallied fun c => ?_
  split
  · exact holds_pure _
  refine holds_ite (holds_pure _) (holds_ite (holds_pure _) ?_)
  extract_lets events
  split
  · exact holds_pure _
  split
  · refine holds_ite (holds_pure _) ?_
    exact holds_bind (change_tallied fun _ => rfl) fun _ => holds_pure _
  · exact holds_pure _

theorem finishTurn_tallied : tallying.Holds finishTurn := by
  have busy {calls : List Call} : tallying.Holds (do become .busy; return calls) :=
    (settling_then (settling_settle _) fun _ => holds_pure _).tallied
  unfold finishTurn
  refine holds_bind (change_tallied fun _ => rfl) fun _ => holds_bind self_tallied fun c => ?_
  refine holds_ite (holds_bind (change_tallied fun _ => rfl) fun _ => busy) ?_
  refine holds_bind markTold_tallied fun _ => holds_ite ?_ ?_
  · exact holds_bind (change_tallied fun _ => rfl) fun _ => busy
  · exact holds_bind stale_tallied fun _ => holds_ite busy (holds_pure _)

theorem launchOnce_tallied : tallying.Holds launchOnce := by
  unfold launchOnce
  refine holds_bind self_tallied fun c => holds_ite (holds_pure _) ?_
  refine holds_bind (change_tallied fun _ => rfl) fun _ => holds_ite (holds_pure _) ?_
  exact holds_bind ready_tallied fun _ => holds_ite (holds_pure _) (holds_pure _)

theorem enqueue_settling (text : String) : Settling (enqueue text) := by
  unfold enqueue
  iterate 3 refine settling_last fun _ => ?_
  exact settling_then (settling_settle _) fun _ => holds_bind (note_tallied _) fun _ =>
    holds_pure _

theorem dispatchQueued_tallied : tallying.Holds dispatchQueued := by
  unfold dispatchQueued
  refine holds_bind runnerAlive_tallied fun alive => holds_ite ?_ (holds_pure _)
  refine holds_bind self_tallied fun c => holds_ite (holds_pure _) ?_
  exact holds_bind stale_tallied fun _ => holds_ite (holds_pure _) (holds_pure _)

theorem flush_tallied : tallying.Holds flush := by
  unfold flush
  refine holds_bind ready_tallied fun ready => holds_ite (holds_pure _) ?_
  refine holds_bind self_tallied fun c => holds_ite ?_ (holds_pure _)
  refine holds_bind runnerAlive_tallied fun alive => holds_ite ?_ (holds_pure _)
  exact (settling_then (settling_blocked _) fun _ => holds_pure _).tallied

omit [Host] in
theorem deliver_tallied : tallying.Holds deliver := by
  have busy {calls : List Call} : Settling (do become .busy; return calls) :=
    settling_then (settling_settle _) fun _ => holds_pure _
  unfold deliver
  refine holds_bind self_tallied fun c => ?_
  split
  · refine holds_ite (holds_pure _) (holds_bind (asks_tallied _) fun sent => ?_)
    refine holds_bind (note_tallied _) fun _ => ?_
    split
    · exact holds_pure _
    · exact (settling_last fun _ => busy).tallied
    · refine Settling.tallied ?_
      iterate 7 refine settling_last fun _ => ?_
      exact busy
  · exact holds_pure _

theorem refused_tallied (why : String) : tallying.Holds (refused why) := by
  unfold refused
  refine holds_bind self_tallied fun c => holds_ite ?_ (holds_ite (holds_pure _) ?_)
  · refine (settling_then (settling_record _) fun _ => holds_ite ?_
      (holds_ite ?_ (holds_pure _))).tallied
    · exact holds_bind (change_tallied fun _ => rfl) fun _ => holds_pure _
    · exact holds_bind (change_tallied fun _ => rfl) fun _ => holds_pure _
  · exact (settling_then (settling_record _) fun _ =>
      holds_ite (holds_pure _) (holds_pure _)).tallied

omit [Host] in
theorem react_tallied (event : Event) : tallying.Holds (react event) := by
  have set_ {f : Chat → Chat} (hf : ∀ c, (f c).tally = c.tally) :
      tallying.Holds (do change f; return ([] : List Call)) :=
    holds_bind (change_tallied hf) fun _ => holds_pure _
  have end_ : tallying.Holds (reactToEnd event) := by
    unfold reactToEnd
    refine holds_bind self_tallied fun c => holds_bind (notes_tallied _) fun _ => ?_
    refine holds_bind (change_tallied fun _ => rfl) fun _ => holds_ite (holds_pure _) ?_
    refine holds_bind (change_tallied fun _ => rfl) fun _ => ?_
    split
    · exact holds_pure _
    · exact holds_ite (holds_pure _) (holds_pure _)
    · exact holds_pure _
  have error : tallying.Holds (reactToError event) := by
    unfold reactToError
    refine holds_bind self_tallied fun c => ?_
    split
    · refine holds_ite (holds_bind (change_tallied fun _ => rfl) fun _ => ?_) (holds_pure _)
      exact holds_ite (holds_ite (holds_pure _) (holds_pure _)) (holds_pure _)
    · split
      · exact set_ fun _ => rfl
      · exact holds_pure _
      · exact holds_pure _
      · exact holds_ite (set_ fun _ => rfl) (holds_pure _)
      · exact holds_ite (set_ fun _ => rfl) (holds_pure _)
      · exact holds_pure _
  unfold react
  refine holds_bind self_tallied fun c => holds_ite (holds_ite ?_ (holds_pure _)) ?_
  · exact holds_bind (note_tallied _) fun _ => set_ fun _ => rfl
  refine holds_ite ?_ (holds_ite end_ (holds_ite error (holds_pure _)))
  exact (settling_last fun _ => settling_then (settling_settle _) fun _ => holds_pure _).tallied

theorem absorb_tallied (epoch : ℕ) (report : Report) : tallying.Holds (absorb epoch report) := by
  have straggler (event : Event) : tallying.Holds (straggler event) := by
    unfold SiliconOmni.straggler
    refine holds_bind self_tallied fun c => holds_ite (holds_pure _) ?_
    split
    · exact holds_pure _
    · refine holds_ite (holds_pure _) (holds_bind (asks_tallied _) fun ours => ?_)
      split <;> exact holds_pure _
  have repeated (event : Event) : tallying.Holds (repeated event) := by
    unfold SiliconOmni.repeated
    refine holds_ite (holds_bind self_tallied fun c => holds_ite (holds_pure _) ?_) (holds_pure _)
    exact holds_bind (change_tallied fun _ => rfl) fun _ => holds_pure _
  have confirm (event : Event) : tallying.Holds (confirm event) := by
    unfold SiliconOmni.confirm
    refine holds_bind self_tallied fun c => ?_
    split
    · refine holds_ite (Settling.tallied ?_) (holds_pure _)
      iterate 8 refine settling_last fun _ => ?_
      exact settling_then (settling_settle _) fun _ => holds_pure _
    · exact holds_pure _
  unfold absorb
  refine holds_bind self_tallied fun c => holds_bind (straggler _) fun late => ?_
  refine holds_bind (repeated _) fun again => holds_ite (holds_pure _) ?_
  refine holds_ite (holds_ite (holds_pure _) (confirm _)) ?_
  refine (settling_then (settling_record _) fun event => holds_bind self_tallied fun d => ?_).tallied
  refine holds_ite (holds_bind (change_tallied fun _ => rfl) fun _ => holds_pure _) ?_
  exact holds_bind (notes_tallied _) fun _ => react_tallied _

theorem apply_tallied (changes : List Change) : tallying.Holds (apply changes) := by
  cases changes with
  | nil => exact holds_pure _
  | cons change rest =>
    unfold apply
    refine (settling_last fun what => settling_last fun _ => ?_).tallied
    exact settling_then settling_refresh fun _ => holds_pure _

omit [Host] in
theorem shutdown_tallied : tallying.Holds shutdown := by
  have dismiss (runner : Handle) : tallying.Holds (dismiss runner) := by
    unfold SiliconOmni.dismiss
    refine holds_bind self_tallied fun c => ?_
    extract_lets stopping going
    have hstopping : ∀ r, tallying.Holds (stopping r) := fun _ => note_tallied _
    have hgoing : ∀ r, tallying.Holds (going r) := by
      intro r
      refine holds_bind (asks_tallied _) fun native => holds_ite ?_ (hstopping ⟨⟩)
      refine holds_bind (tryCommit_tallied _) fun bound => ?_
      split
      · exact hstopping ⟨⟩
      · refine holds_bind (note_tallied _) fun _ => ?_
        exact holds_bind (settling_halt _ _).tallied fun _ => hstopping ⟨⟩
    exact holds_ite (holds_bind (note_tallied _) fun _ => hgoing ⟨⟩) (hgoing ⟨⟩)
  have release : tallying.Holds release := by
    unfold SiliconOmni.release
    refine holds_bind self_tallied fun c => ?_
    split
    · exact holds_bind (change_tallied fun _ => rfl) fun _ => dismiss _
    · exact holds_pure _
  unfold shutdown
  refine holds_bind (change_tallied fun _ => rfl) fun _ => holds_bind release fun _ => ?_
  refine holds_bind self_tallied fun c => holds_bind (change_tallied fun _ => rfl) fun _ => ?_
  exact holds_bind (notes_tallied _) fun _ => holds_pure _

omit [Host] in
theorem stopped_settling : Settling stopped := by
  unfold stopped
  iterate 4 refine settling_last fun _ => ?_
  exact settling_then (settling_settle _) fun _ => holds_pure _

/-- Every call leaves the count right. -/
theorem run_tallied (call : Call) : tallying.Holds (run call) := by
  cases call with
  | launchOnce => exact launchOnce_tallied
  | enqueue text => exact (enqueue_settling text).tallied
  | dispatchQueued => exact dispatchQueued_tallied
  | flush => exact flush_tallied
  | deliver => exact deliver_tallied
  | refused why => exact refused_tallied why
  | attempt why next => exact attempt_tallied why next
  | replace rung why next => exact (attemptReplace_settling rung why next).tallied
  | absorb epoch report => exact absorb_tallied epoch report
  | unauthenticated provider => exact (unauthenticated_settling provider).tallied
  | failed provider kind => exact (failed_settling provider kind).tallied
  | recoverContext delivered => exact recoverContext_tallied delivered
  | startHandoff => exact holds_bind self_tallied fun _ => holds_pure _
  | recoveryMessage stage text fresh => exact (recoveryMessage_settling stage text fresh).tallied
  | recoveryEnded end_ => exact recoveryEnded_tallied end_
  | recoveryFailed why => exact (recoveryFailed_settling why).tallied
  | resumeRecovery => exact resumeRecovery_tallied
  | finishTurn => exact finishTurn_tallied
  | settleIdle =>
    refine holds_bind self_tallied fun c => holds_ite ?_ (holds_pure _)
    exact (settling_then (settling_settle _) fun _ => holds_pure _).tallied
  | apply changes => exact apply_tallied changes
  | shutdown => exact shutdown_tallied
  | stopped => exact stopped_settling.tallied
  | publish => exact fun _ => id

end calls

section mirror
variable [Host] {s t : Conf}

/-- The pending list on disk is what was written and not confirmed, and then what is queued. -/
def Conf.Mirrored (s : Conf) : Prop :=
  s.chat.meta_.data.pending = s.chat.awaiting ++ s.chat.outbox

omit [Host] in
theorem Gave.mirrored {d : Delta} (h : Gave s t d)
    (hd : d.data.pending = d.desk.awaiting ++ d.desk.outbox) : t.Mirrored := by
  have awaiting : t.chat.awaiting = d.desk.awaiting := congrArg Desk.awaiting h.desk
  have outbox : t.chat.outbox = d.desk.outbox := congrArg Desk.outbox h.desk
  unfold Conf.Mirrored
  rw [h.pending, awaiting, outbox]
  exact hd

omit [Host] in
theorem without_append (gone : Option String) (xs ys : List PendingMessage) :
    MetaData.without gone (xs ++ ys) = MetaData.without gone xs ++ MetaData.without gone ys := by
  cases gone with
  | none => rfl
  | some id => exact List.filter_append ..

omit [Host] in
/-- Retiring one of the messages, each of its own id, takes just that one away. -/
theorem retire {front back : List PendingMessage} {message : PendingMessage}
    (once : ((front ++ message :: back).map (·.id)).Nodup) :
    (front ++ message :: back).filter (·.id ≠ message.id) = front ++ back := by
  rw [List.map_append, List.map_cons] at once
  obtain ⟨-, hback, hfront⟩ := List.nodup_append.mp once
  have apart (m : PendingMessage) (hm : m ∈ front ++ back) : m.id ≠ message.id := by
    rcases List.mem_append.mp hm with hm | hm
    · exact hfront _ (List.mem_map_of_mem hm) _ List.mem_cons_self
    · intro heq
      exact (List.nodup_cons.mp hback).1 (heq ▸ List.mem_map_of_mem hm)
  rw [List.filter_append, List.filter_cons_of_neg (by simp), ← List.filter_append]
  exact List.filter_eq_self.mpr fun m hm => decide_eq_true (apart m hm)

omit [Host] in
theorem mirrored_still {t : Conf} (h : s.Mirrored) (desk : t.chat.desk = s.chat.desk)
    (pending : t.chat.meta_.data.pending = s.chat.meta_.data.pending) : t.Mirrored := by
  have awaiting : t.chat.awaiting = s.chat.awaiting := congrArg Desk.awaiting desk
  have outbox : t.chat.outbox = s.chat.outbox := congrArg Desk.outbox desk
  unfold Conf.Mirrored
  rw [pending, awaiting, outbox]
  exact h

omit [Host] in
/-- A change of the turn alone keeps the mirror. -/
theorem mirrored_turned {desk : Desk} {events : List Event} {obs : List Obs} (h : s.Mirrored)
    (gave : Gave s t (s.turned desk events obs)) (outbox : desk.outbox = s.chat.outbox)
    (awaiting : desk.awaiting = s.chat.awaiting) : t.Mirrored := by
  refine gave.mirrored ?_
  show s.chat.meta_.data.pending = desk.awaiting ++ desk.outbox
  rw [outbox, awaiting]
  exact h

omit [Host] in
/-- The next state of recovery drops its message from both sides. -/
theorem mirrored_saved {next : Option Recovery} {since : Option ℤ} (h : s.Mirrored) :
    (s.saved next since none).data.pending =
      (s.saved next since none).desk.awaiting ++ (s.saved next since none).desk.outbox := by
  show MetaData.without _ s.chat.meta_.data.pending = MetaData.without _ s.chat.awaiting ++
    MetaData.without _ s.chat.outbox
  rw [h, without_append]

/-- A message of recovery's own goes to the front of both sides, with nothing unconfirmed. -/
theorem mirrored_queued {stage : RecoveryStage} {text : String} {fresh : Bool} (h : s.Mirrored)
    (clear : s.chat.awaiting = []) (gave : Gave s t (s.queuedRecovery stage text fresh)) :
    t.Mirrored := by
  refine gave.mirrored ?_
  show _ ++ MetaData.without _ s.chat.meta_.data.pending = MetaData.without _ s.chat.awaiting ++
    (_ ++ MetaData.without _ s.chat.outbox)
  rw [h, clear, List.nil_append, show MetaData.without _ ([] : List PendingMessage) = [] from by
    unfold MetaData.without; split <;> rfl, List.nil_append]

theorem mirrored_closed {provider : String} {extra : Fields} {retry : Bool} (h : s.Mirrored)
    (gave : Gave s t (s.closed provider extra retry)) : t.Mirrored := by
  refine gave.mirrored ?_
  show s.retries retry ++ s.chat.meta_.data.pending =
    [] ++ (s.retries retry ++ (s.chat.awaiting ++ s.chat.outbox))
  rw [h, List.nil_append]

theorem closed_clear {provider : String} {extra : Fields} {retry : Bool}
    (gave : Gave s t (s.closed provider extra retry)) : t.chat.awaiting = [] :=
  congrArg Desk.awaiting gave.desk

/-- Every call keeps the mirror, but for a retry queued ahead of unconfirmed messages. -/
theorem mirrored_ran {call : Call} {calls : List Call} (sound : s.books.Sound) (h : s.Mirrored)
    (clear : ∀ stage text, call = .recoveryMessage stage text false → s.chat.awaiting = [])
    (ran : Ran s call calls t) : t.Mirrored := by
  have once : ((s.chat.awaiting ++ s.chat.outbox).map (·.id)).Nodup := h ▸ sound.pendingOnce
  cases ran with
  | moved _ still => exact mirrored_still h still.desk still.quiet.pending
  | replaced _ desk quiet => exact mirrored_still h desk quiet.pending
  | enqueued gave =>
    refine gave.mirrored ?_
    show s.chat.meta_.data.pending ++ [_] = s.chat.awaiting ++ (s.chat.outbox ++ [_])
    rw [h, List.append_assoc]
  | @written _ message rest _ delivering gave =>
    refine gave.mirrored ?_
    show s.chat.meta_.data.pending = s.chat.awaiting ++ [message] ++ rest
    rw [h, delivering.outbox, List.append_assoc]
    rfl
  | @delivered _ message rest _ _ delivering _ gave =>
    refine gave.mirrored ?_
    show s.chat.meta_.data.pending.filter (·.id ≠ message.id) = s.chat.awaiting ++ rest
    rw [delivering.outbox] at once
    rw [h, delivering.outbox, retire once]
  | @confirmed _ _ message rest _ _ _ confirming gave =>
    refine gave.mirrored ?_
    show s.chat.meta_.data.pending.filter (·.id ≠ message.id) = rest ++ s.chat.outbox
    rw [confirming.awaiting] at once
    rw [h, confirming.awaiting]
    exact @retire [] _ _ once
  | refusedFull _ gave => exact mirrored_turned h gave rfl rfl
  | refusedMidTurn _ _ gave => exact mirrored_turned h gave rfl rfl
  | late _ _ gave => exact mirrored_turned h gave rfl rfl
  | reacted _ _ _ reacted gave =>
    obtain ⟨outbox, awaiting, -⟩ := reacted_queues reacted
    exact mirrored_turned h gave outbox awaiting
  | closed _ _ gave => exact mirrored_closed h gave
  | compacting _ _ gave => exact gave.mirrored (mirrored_saved h)
  | notCompacting _ gave => exact gave.mirrored (mirrored_saved h)
  | queued gave => exact mirrored_queued h (clear _ _ rfl) gave
  | queuedFresh closed gave =>
    exact mirrored_queued (mirrored_closed h closed) (closed_clear closed) gave
  | gaveUp closed gave => exact gave.mirrored (mirrored_saved (mirrored_closed h closed))
  | nothingToEnd _ gave => exact mirrored_turned h gave rfl rfl
  | proceeded _ _ gave => exact mirrored_turned h gave rfl rfl
  | advanced _ _ gave => exact gave.mirrored (mirrored_saved h)
  | refolded _ _ _ gave => exact mirrored_turned h gave rfl rfl
  | nextTurn _ gave => exact mirrored_turned h gave rfl rfl
  | awaited _ _ gave => exact mirrored_turned h gave rfl rfl
  | finished _ _ _ gave => exact mirrored_turned h gave rfl rfl
  | shutting gave =>
    refine gave.mirrored ?_
    exact h
  | stopped _ gave =>
    refine gave.mirrored ?_
    show s.chat.meta_.data.pending = [] ++ (s.chat.awaiting ++ s.chat.outbox)
    rw [h, List.nil_append]

end mirror

section runs
variable [Host]

/-- The call that queues the messages of a compacted turn again. -/
def Call.repeats : Call → Bool
  | .recoveryMessage _ _ false => true
  | _ => false

/-- The messages of a compacted turn are queued again only while none waits for its echo. -/
def System.RetriesClear (s : System) : Move → Prop
  | .advance => s.stack.head?.any Call.repeats → s.conf.chat.awaiting = []
  | _ => True

instance : ∀ (s : System) (m : Move), Decidable (s.RetriesClear m)
  | s, .advance =>
    inferInstanceAs (Decidable (s.stack.head?.any Call.repeats = true → s.conf.chat.awaiting = []))
  | _, .receive .. | _, .deadline _ | _, .reopen .. => .isTrue trivial

/-- A conductor whose queues are the pending list, and whose snapshot counts them. -/
structure Mirroring (s : Conf) : Prop where
  accounted : Accounted s.chat.desk s.books
  mirrored : s.Mirrored
  tallied : s.Tallied

theorem mirroring_opened {past t : Conf} (sound : past.books.Sound) (opened : Opened past t) :
    Mirroring t where
  accounted := accounted_opened sound opened
  mirrored := by
    have awaiting : t.chat.awaiting = [] := congrArg Desk.awaiting opened.desk
    have outbox : t.chat.outbox = t.books.pending := congrArg Desk.outbox opened.desk
    unfold Conf.Mirrored
    rw [awaiting, outbox, List.nil_append]
    rfl
  tallied := opened.queued

theorem mirroring_invariant :
    System.Invariant System.RetriesClear (fun s _ => Mirroring s) (fun s => s.books.Sound) where
  sound := id
  blank := blank_sound
  opened := mirroring_opened
  failed := sound_openFailed
  left := fun h _ => h.accounted.sound
  ended := fun h _ => h.accounted.sound
  wake := fun h _ _ _ => ⟨h.accounted, h.mirrored, h.tallied⟩
  deadline := fun h _ _ => ⟨h.accounted, h.mirrored, h.tallied⟩
  call := by
    intro s call rest _ allowed h
    have tallied := (run_tallied call).wp (fun _ t (ht : s.Tallied → t.Tallied) => ht h.tallied)
      fun _ _ (_ : True) => trivial
    refine wp_mono (wp_and tallied (run_ran call)) ?_ ?_
    · rintro calls t ⟨tallied, ran⟩
      refine ⟨accounted_ran h.accounted ran, mirrored_ran h.accounted.sound h.mirrored ?_ ran, tallied⟩
      rintro stage text rfl
      exact allowed rfl
    · rintro _ t ⟨-, died⟩
      exact sound_died h.accounted died
  published := fun h => h.mono le_rfl rfl

/-- As long as no turn is repeated ahead of messages that wait for their echo, the pending list on
disk is the messages written and not confirmed and then those queued, each of its own id, and the
snapshot counts them. -/
theorem System.queues_mirror_pending {s : System} (h : System.Reach System.RetriesClear s)
    (running : s.ended = false) :
    s.conf.chat.meta_.data.pending = s.conf.chat.awaiting ++ s.conf.chat.outbox ∧
      (s.conf.chat.meta_.data.pending.map (·.id)).Nodup ∧
        s.conf.chat.state.queued = s.conf.chat.meta_.data.pending.length := by
  have live := (mirroring_invariant.holds h).live running
  have mirrored : s.conf.chat.meta_.data.pending = _ := live.mirrored
  have tallied : s.conf.chat.state.queued = _ := live.tallied
  refine ⟨mirrored, live.accounted.sound.pendingOnce, ?_⟩
  rw [tallied, mirrored, List.length_append, Nat.add_comm]

end runs

section samples
attribute [local instance] Host.ascii

/-- A runner that confirms by echo what it was sent. -/
def Obs.echoing : Obs → Option Handle
  | sent runner _ (some .echoed) _ => some runner
  | _ => none

/-- A runner that compacts a full session itself. -/
def Obs.compacting : Obs → Option Handle
  | compacted runner true => some runner
  | _ => none

/-- No provider seen so far both confirms by echo and compacts natively. -/
def Conf.Separate (s : Conf) : Prop :=
  ∀ o ∈ s.trace, ∀ runner ∈ o.echoing, ∀ o' ∈ s.trace, ∀ runner' ∈ o'.compacting,
    runner.name ≠ runner'.name

instance (s : Conf) : Decidable s.Separate := by
  unfold Conf.Separate
  infer_instance

/-- Two messages: claude-code echoes the first, and codex takes the second once claude-code is
gone, to find its session full. -/
def System.handedOver : List Move :=
  let first : Env := { Env.answering "claude-code" with send := fun _ _ => .ok .echoed }
  let second : Env := { Env.answering "codex" with
    alive := fun _ runner => runner.name ≠ "claude-code", compact := fun _ _ => .ok true }
  let third : Env := { second with
    registry := fun _ => { fresh := none, found := none, stale := none } }
  .receive (.send "a") first :: List.replicate 8 Move.advance ++
    .receive (.send "b") second :: List.replicate 8 Move.advance ++
    .receive (.heard 2 { type := .error, kind := .contextLimit }) second ::
      List.replicate 2 Move.advance ++
    .receive (.heard 2 { type := .end_ }) second :: List.replicate 3 Move.advance ++
    .receive (.heard 2 { type := .end_ }) third :: List.replicate 6 Move.advance

/-- A message echoed to a runner that died keeps waiting beside its successor, and a turn the
successor repeats after a compaction is queued ahead of it in one list and behind it in the other. -/
theorem System.queues_part :
    ¬∀ s : System, System.Reachable s → s.ended = false → s.stack = [] → s.conf.Separate →
      s.conf.chat.meta_.data.pending = s.conf.chat.awaiting ++ s.conf.chat.outbox := by
  intro mirror
  have run : ∃ s, System.after "chat" ["claude-code", "codex"] Env.ascii System.handedOver =
      some s ∧ s.ended = false ∧ s.stack.length = 0 ∧ s.conf.Separate ∧
        s.conf.chat.meta_.data.pending ≠ s.conf.chat.awaiting ++ s.conf.chat.outbox := by
    exact ⟨_, Option.eq_some_of_isSome (by decide +kernel), by decide +kernel, by decide +kernel,
      by decide +kernel, by decide +kernel⟩
  obtain ⟨s, hs, live, stack, separate, part⟩ := run
  exact part (mirror s (System.reachable_after hs) live (List.length_eq_zero_iff.mp stack) separate)

/-- While an echo is waited for and another message is queued behind it, the lists agree. -/
theorem System.queues_mirror_pending_waiting :
    ∃ s : System, s.conf.chat.awaiting.map (·.text) = ["a"] ∧
      s.conf.chat.outbox.map (·.text) = ["b"] ∧
      s.conf.chat.meta_.data.pending = s.conf.chat.awaiting ++ s.conf.chat.outbox ∧
        (s.conf.chat.meta_.data.pending.map (·.id)).Nodup ∧
          s.conf.chat.state.queued = s.conf.chat.meta_.data.pending.length := by
  let moves := System.handedOver.take 11
  have run : ∃ s, System.after "chat" ["claude-code", "codex"] Env.ascii moves = some s ∧
      s.ended = false ∧ s.conf.chat.awaiting.map (·.text) = ["a"] ∧
        s.conf.chat.outbox.map (·.text) = ["b"] := by
    exact ⟨_, Option.eq_some_of_isSome (by decide +kernel), by decide +kernel, by decide +kernel,
      by decide +kernel⟩
  obtain ⟨s, hs, live, awaiting, outbox⟩ := run
  have start : System.Reach System.RetriesClear
      (System.fresh "chat" ["claude-code", "codex"] none Env.ascii) :=
    .init ⟨"chat", ["claude-code", "codex"], none, Env.ascii, rfl⟩
  have along : System.machine.Along System.RetriesClear
      (System.fresh "chat" ["claude-code", "codex"] none Env.ascii) moves := by decide +kernel
  exact ⟨s, awaiting, outbox, System.queues_mirror_pending (start.exec along hs) live⟩

end samples
end SiliconOmni
