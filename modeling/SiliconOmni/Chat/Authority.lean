import SiliconOmni.Ascii
import SiliconOmni.Chat.Accounts
import SiliconOmni.Chat.Routing

/-! In every run of a session its conversation is handed only to providers on the dial, and a
dial that was given any provider keeps one. -/
namespace SiliconOmni
open Lib Frame

/-- One more set aside is one less to route to. -/
theorem dialed_aside (name : String) (providers benched : List String) :
    dialed providers (name :: benched) = (dialed providers benched).filter (· ≠ name) := by
  unfold dialed
  rw [List.filter_filter]
  congr 1
  funext provider
  simp

/-- One taken off the chat is one less to route to. -/
theorem dialed_removed (name : String) (providers benched : List String) :
    dialed (providers.filter (· ≠ name)) (benched.filter (· ≠ name)) =
      (dialed providers benched).filter (· ≠ name) := by
  unfold dialed
  rw [List.filter_filter, List.filter_filter]
  refine List.filter_congr fun provider _ => ?_
  by_cases h : provider = name
  · simp [h]
  · simp [h]

theorem length_dialed_lt {name : String} {dial : List String} (h : name ∈ dial) :
    (dial.filter (· ≠ name)).length < dial.length :=
  List.length_filter_lt_length_iff_exists.mpr ⟨name, h, by simp⟩

/-- Not every provider of the list is set aside. -/
def Manned (providers benched : List String) : Prop :=
  providers ≠ [] → dialed providers benched ≠ []

section turns
variable {w : Watch} {D : List String → List String → Prop}

theorem notes_isStop_routed {os : List Obs} (h : ∀ o ∈ os, o.isStop) :
    (routing w D).Holds (notes os) :=
  notes_routed fun o ho => Obs.passes_of_isStop (h o ho) _

theorem putDown_routed : (routing w D).Holds putDown := by
  unfold putDown
  refine holds_bind self_routed fun c => holds_bind (notes_isStop_routed c.puttingDown_isStop)
    fun _ => ?_
  exact turn_routed fun _ h => ⟨by rintro _ ⟨⟩, h.lot, h.dial⟩

theorem saveRecovery_routed (recovery : Option Recovery) (since : Option ℤ)
    (message : Option PendingMessage) : (routing w D).Holds (saveRecovery recovery since message) := by
  unfold saveRecovery
  refine holds_bind self_routed fun c => holds_bind (commit_routed _ _) fun _ => ?_
  exact change_routed fun _ => rfl

theorem queueRecovery_routed [Host] (stage : RecoveryStage) (text : String) (fresh : Bool) :
    (routing w D).Holds (queueRecovery stage text fresh) := by
  unfold queueRecovery
  refine holds_bind newId_routed fun id => holds_bind (note_routed rfl) fun _ => ?_
  refine holds_bind self_routed fun c => holds_bind (saveRecovery_routed _ _ _) fun _ => ?_
  exact holds_bind (change_routed fun _ => rfl) fun _ => settle_routed _

variable [Host]

theorem requeue_routed (retry : Bool) : (routing w D).Holds (requeue retry) := by
  unfold requeue
  refine holds_bind (change_routed fun _ => rfl) fun _ => holds_bind self_routed fun c => ?_
  refine holds_ite ?_ (change_routed fun _ => rfl)
  have draw : (routing w D).Holds drawRetries := fun _ h => h.same rfl rfl
  refine holds_bind draw fun messages => holds_bind (commit_routed _ _) fun _ => ?_
  exact holds_bind (change_routed fun _ => rfl) fun _ => change_routed fun _ => rfl

theorem closeTurn_routed (provider : String) (extra : Fields) (retry : Bool) :
    (routing w D).Holds (closeTurn provider extra retry) := by
  unfold closeTurn
  refine holds_bind putDown_routed fun _ => holds_bind (requeue_routed retry) fun _ => ?_
  refine holds_bind self_routed fun c => ?_
  have rest : (routing w D).Holds (do
      change fun c => { c with inTurn := false }
      change fun c => c.settle fun state =>
        { state with status := if retry ∧ c.outbox ≠ [] then .busy else .waiting }) :=
    holds_bind (change_routed fun _ => rfl) fun _ => change_routed fun _ => rfl
  refine holds_ite ?_ rest
  refine holds_bind (change_routed fun _ => rfl) fun _ => holds_bind (record_routed _) fun _ => ?_
  exact holds_bind (note_routed rfl) fun _ => rest

theorem startClean_routed : (routing w D).Holds startClean := by
  unfold startClean
  refine holds_bind self_routed fun c => holds_bind (closeTurn_routed _ _ _) fun _ => ?_
  refine holds_bind self_routed fun d => holds_bind emptied_routed fun _ => ?_
  exact stopAll_routed _

theorem rung_routed : (routing w D).Holds rung :=
  holds_bind self_routed fun _ => holds_bind (asks_routed _) fun _ => holds_pure _

theorem stale_routed : (routing w D).Holds stale := by
  unfold stale
  refine holds_bind self_routed fun c => ?_
  split
  · exact holds_pure _
  · refine holds_bind rung_routed fun answer => ?_
    split
    · exact holds_bind self_routed fun _ => holds_pure _
    · exact holds_pure _

theorem ready_routed : (routing w D).Holds ready := by
  unfold ready
  refine holds_bind runnerAlive_routed fun alive => holds_ite ?_ (holds_pure _)
  exact holds_bind stale_routed fun _ => holds_pure _

end turns

section calls
variable [Host] {w : Watch} {D : List String → List String → Prop}

theorem launchOnce_routed : (routing w D).Holds launchOnce := by
  unfold launchOnce
  refine holds_bind self_routed fun c => holds_ite (holds_pure _) ?_
  refine holds_bind (change_routed fun _ => rfl) fun _ => holds_ite (holds_pure _) ?_
  exact holds_bind ready_routed fun _ => holds_ite (holds_pure _) (holds_pure _)

theorem enqueue_routed (text : String) : (routing w D).Holds (enqueue text) := by
  unfold enqueue
  refine holds_bind newId_routed fun id => holds_bind (commit_routed _ _) fun _ => ?_
  refine holds_bind (change_routed fun _ => rfl) fun _ => holds_bind (settle_routed _) fun _ => ?_
  exact holds_bind (note_routed rfl) fun _ => holds_pure _

theorem dispatchQueued_routed : (routing w D).Holds dispatchQueued := by
  unfold dispatchQueued
  refine holds_bind runnerAlive_routed fun alive => holds_ite ?_ (holds_pure _)
  refine holds_bind self_routed fun c => holds_ite (holds_pure _) ?_
  exact holds_bind stale_routed fun _ => holds_ite (holds_pure _) (holds_pure _)

theorem refused_routed (why : String) : (routing w D).Holds (refused why) := by
  unfold refused
  refine holds_bind self_routed fun c => holds_ite ?_ (holds_ite (holds_pure _) ?_)
  · refine holds_bind (record_routed _) fun _ => holds_ite ?_ (holds_ite ?_ (holds_pure _))
    · exact holds_bind (change_routed fun _ => rfl) fun _ => holds_pure _
    · exact holds_bind (change_routed fun _ => rfl) fun _ => holds_pure _
  · exact holds_bind (record_routed _) fun error => holds_ite (holds_pure _) (holds_pure _)

omit [Host] in
theorem recoverContext_routed (delivered : Bool) (compacts : w.compacts) :
    (routing w D).Holds (recoverContext delivered) := by
  unfold recoverContext
  refine holds_bind self_routed fun c => holds_bind (saveRecovery_routed _ _ _) fun _ => ?_
  refine holds_bind (change_routed fun _ => rfl) fun _ => ?_
  split
  · refine holds_bind (asks_routed _) fun answer => holds_bind (note_routed compacts) fun _ => ?_
    refine holds_ite (holds_bind (change_routed fun _ => rfl) fun _ => ?_) (holds_pure _)
    refine holds_bind (settle_routed _) fun _ => ?_
    exact holds_bind (record_routed _) fun _ => holds_pure _
  · exact holds_pure _

theorem startHandoff_routed : (routing w D).Holds startHandoff :=
  holds_bind self_routed fun _ => holds_pure _

theorem recoveryMessage_routed (stage : RecoveryStage) (text : String) (fresh : Bool) :
    (routing w D).Holds (recoveryMessage stage text fresh) := by
  unfold recoveryMessage
  refine holds_ite (holds_bind startClean_routed fun _ => ?_) ?_
  · exact holds_bind (queueRecovery_routed _ _ _) fun _ => holds_pure _
  · exact holds_bind (queueRecovery_routed _ _ _) fun _ => holds_pure _

theorem recoveryFailed_routed (why : String) : (routing w D).Holds (recoveryFailed why) := by
  unfold recoveryFailed
  refine holds_bind self_routed fun c => holds_bind (closeTurn_routed _ _ _) fun _ => ?_
  refine holds_bind (saveRecovery_routed _ _ _) fun _ => holds_bind (record_routed _) fun _ => ?_
  exact holds_bind refresh_routed fun _ => holds_pure _

omit [Host] in
theorem recoveryEnded_routed (end_ : Event) : (routing w D).Holds (recoveryEnded end_) := by
  unfold recoveryEnded
  refine holds_bind self_routed fun c => holds_bind (change_routed fun _ => rfl) fun _ => ?_
  split
  · exact holds_pure _
  refine holds_ite (holds_ite (holds_pure _) (holds_ite (holds_pure _) ?_)) ?_
  · split
    · exact holds_bind (saveRecovery_routed _ _ _) fun _ => holds_pure _
    · exact holds_bind (saveRecovery_routed _ _ _) fun _ => holds_pure _
  refine holds_ite (holds_pure _) (holds_ite (holds_pure _) (holds_ite (holds_pure _) ?_))
  split
  · exact holds_bind (saveRecovery_routed _ _ _) fun _ => holds_pure _
  · exact holds_bind (saveRecovery_routed _ _ _) fun _ => holds_pure _
  · refine holds_bind (saveRecovery_routed _ _ _) fun _ => ?_
    exact holds_bind runnerAlive_routed fun _ => holds_ite (holds_pure _) (holds_pure _)

omit [Host] in
theorem resumeRecovery_routed : (routing w D).Holds resumeRecovery := by
  unfold resumeRecovery
  refine holds_bind self_routed fun c => ?_
  split
  · exact holds_pure _
  refine holds_ite (holds_pure _) (holds_ite (holds_pure _) ?_)
  extract_lets events
  split
  · exact holds_pure _
  split
  · refine holds_ite (holds_pure _) ?_
    exact holds_bind (change_routed fun _ => rfl) fun _ => holds_pure _
  · exact holds_pure _

theorem finishTurn_routed : (routing w D).Holds finishTurn := by
  unfold finishTurn
  refine holds_bind (change_routed fun _ => rfl) fun _ => holds_bind self_routed fun c => ?_
  refine holds_ite ?_ (holds_bind markTold_routed fun _ => holds_ite ?_ ?_)
  · refine holds_bind (change_routed fun _ => rfl) fun _ => ?_
    exact holds_bind (settle_routed _) fun _ => holds_pure _
  · refine holds_bind (change_routed fun _ => rfl) fun _ => ?_
    exact holds_bind (settle_routed _) fun _ => holds_pure _
  · refine holds_bind stale_routed fun stale => holds_ite ?_ (holds_pure _)
    exact holds_bind (settle_routed _) fun _ => holds_pure _

omit [Host] in
theorem settleIdle_routed : (routing w D).Holds settleIdle := by
  unfold settleIdle
  refine holds_bind self_routed fun c => holds_ite ?_ (holds_pure _)
  exact holds_bind (settle_routed _) fun _ => holds_pure _

omit [Host] in
theorem reactToEnd_routed (event : Event) : (routing w D).Holds (reactToEnd event) := by
  unfold reactToEnd
  refine holds_bind self_routed fun c => holds_bind (notes_routed ?_) fun _ => ?_
  · intro o ho
    split at ho
    · cases ho
    · obtain rfl := List.mem_singleton.mp ho
      rfl
  refine holds_bind (change_routed fun _ => rfl) fun _ => holds_ite (holds_pure _) ?_
  refine holds_bind (change_routed fun _ => rfl) fun _ => ?_
  split
  · exact holds_pure _
  · exact holds_ite (holds_pure _) (holds_pure _)
  · exact holds_pure _

omit [Host] in
theorem reactToError_routed (event : Event) : (routing w D).Holds (reactToError event) := by
  have failing (kind : ErrorKind) : (routing w D).Holds (do
      change fun c => { c with turnFailed := some kind }
      return ([] : List Call)) :=
    holds_bind (change_routed fun _ => rfl) fun _ => holds_pure _
  unfold reactToError
  refine holds_bind self_routed fun c => ?_
  split
  · refine holds_ite (holds_bind (change_routed fun _ => rfl) fun _ => ?_) (holds_pure _)
    exact holds_ite (holds_ite (holds_pure _) (holds_pure _)) (holds_pure _)
  · split
    · exact failing _
    · exact holds_pure _
    · exact holds_pure _
    · exact holds_ite (failing _) (holds_pure _)
    · exact holds_ite (failing _) (holds_pure _)
    · exact holds_pure _

omit [Host] in
theorem react_routed (event : Event) : (routing w D).Holds (react event) := by
  unfold react
  refine holds_bind self_routed fun c => holds_ite (holds_ite ?_ (holds_pure _)) ?_
  · refine holds_bind (note_routed rfl) fun _ => ?_
    exact holds_bind (change_routed fun _ => rfl) fun _ => holds_pure _
  refine holds_ite ?_ (holds_ite (reactToEnd_routed _)
    (holds_ite (reactToError_routed _) (holds_pure _)))
  refine holds_bind (change_routed fun _ => rfl) fun _ => ?_
  exact holds_bind (settle_routed _) fun _ => holds_pure _

omit [Host] in
theorem confirm_routed (event : Event) : (routing w D).Holds (confirm event) := by
  unfold confirm
  refine holds_bind self_routed fun c => ?_
  split
  · refine holds_ite (holds_bind (record_routed _) fun logged => ?_) (holds_pure _)
    refine holds_bind (notes_routed ?_) fun _ => ?_
    · intro o ho
      unfold Chat.confirming at ho
      split at ho
      · split at ho <;> simp at ho <;> rcases ho with rfl | rfl <;> rfl
      · cases ho
    refine holds_bind (change_routed fun _ => rfl) fun _ => ?_
    refine holds_bind rememberRunnerTurn_routed fun _ => ?_
    refine holds_bind (commit_routed _ _) fun _ => holds_bind (change_routed fun _ => rfl) fun _ => ?_
    refine holds_bind (change_routed fun _ => rfl) fun _ => ?_
    refine holds_bind (change_routed fun _ => rfl) fun _ => ?_
    exact holds_bind (settle_routed _) fun _ => holds_pure _
  · exact holds_pure _

theorem absorb_routed (epoch : ℕ) (report : Report) : (routing w D).Holds (absorb epoch report) := by
  have straggler (event : Event) : (routing w D).Holds (straggler event) := by
    unfold SiliconOmni.straggler
    refine holds_bind self_routed fun c => holds_ite (holds_pure _) ?_
    split
    · exact holds_pure _
    · refine holds_ite (holds_pure _) (holds_bind (asks_routed _) fun ours => ?_)
      split <;> exact holds_pure _
  have repeated (event : Event) : (routing w D).Holds (repeated event) := by
    unfold SiliconOmni.repeated
    refine holds_ite (holds_bind self_routed fun c => holds_ite (holds_pure _) ?_) (holds_pure _)
    exact holds_bind (change_routed fun _ => rfl) fun _ => holds_pure _
  unfold absorb
  refine holds_bind self_routed fun c => holds_bind (straggler _) fun late => ?_
  refine holds_bind (repeated _) fun again => holds_ite (holds_pure _) ?_
  refine holds_ite (holds_ite (holds_pure _) (confirm_routed _)) ?_
  refine holds_bind (record_routed _) fun event => holds_bind self_routed fun d => ?_
  refine holds_ite (holds_bind (change_routed fun _ => rfl) fun _ => holds_pure _) ?_
  refine holds_bind (notes_routed ?_) fun _ => react_routed _
  intro o ho
  obtain ⟨_, _, rfl⟩ := List.mem_map.mp ho
  rfl

omit [Host] in
theorem shutdown_routed : (routing w D).Holds shutdown := by
  have dismiss (runner : Handle) : (routing w D).Holds (dismiss runner) := by
    unfold SiliconOmni.dismiss
    refine holds_bind self_routed fun c => ?_
    extract_lets stopping going
    have hstopping : ∀ r, (routing w D).Holds (stopping r) := fun _ => stop_routed _
    have hgoing : ∀ r, (routing w D).Holds (going r) := by
      intro r
      refine holds_bind (asks_routed _) fun native => holds_ite ?_ (hstopping ⟨⟩)
      refine holds_bind (tryCommit_routed _) fun bound => ?_
      split
      · exact hstopping ⟨⟩
      · refine holds_bind (stop_routed _) fun _ => ?_
        exact holds_bind (persistenceFailed_routed _ _) fun _ => hstopping ⟨⟩
    exact holds_ite (holds_bind (note_routed rfl) fun _ => hgoing ⟨⟩) (hgoing ⟨⟩)
  have release : (routing w D).Holds release := by
    unfold SiliconOmni.release
    refine holds_bind self_routed fun c => ?_
    split
    · exact holds_bind unmanned_routed fun _ => dismiss _
    · exact holds_pure _
  unfold shutdown
  refine holds_bind (change_routed fun _ => rfl) fun _ => holds_bind release fun _ => ?_
  refine holds_bind self_routed fun c => holds_bind emptied_routed fun _ => ?_
  exact holds_bind (stopAll_routed _) fun _ => holds_pure _

omit [Host] in
theorem stopped_routed : (routing w D).Holds stopped := by
  have closeLast : (routing w D).Holds closeLast := by
    unfold SiliconOmni.closeLast
    refine holds_bind self_routed fun c => holds_ite ?_ (holds_pure _)
    exact holds_bind (record_routed _) fun _ => note_routed rfl
  unfold stopped
  refine holds_bind (change_routed fun _ => rfl) fun _ => holds_bind closeLast fun _ => ?_
  refine holds_bind (change_routed fun _ => rfl) fun _ => holds_bind (record_routed _) fun _ => ?_
  exact holds_bind (settle_routed _) fun _ => holds_pure _

end calls

section dial
variable [Host] {w : Watch} {D D' : List String → List String → Prop} {s : Conf}

omit [Host] in
theorem Routed.dial (h : Routed w D s) (hd : D' s.chat.providers s.chat.benched) : Routed w D' s :=
  ⟨h.trace, h.wheel.seat, h.wheel.lot, hd⟩

omit [Host] in
/-- A list of providers given anew has none set aside. -/
theorem manned_nil (providers : List String) : Manned providers [] := by
  intro h
  simpa [dialed] using h

theorem applyChange_routed (setting : Change) (h : Routed w Manned s) :
    wp (applyChange setting) (fun _ t => Routed w Manned t) (fun _ t => t.Guarded w) s := by
  have saved {α : Type} (key : String) (value : Value) (action : String) {m : Conductor α}
      (hm : ∀ t, Routed w Manned t → wp m (fun _ t => Routed w Manned t) (fun _ t => t.Guarded w) t) :
      wp (saveSetting key value action >>= fun _ => m) (fun _ t => Routed w Manned t)
        (fun _ t => t.Guarded w) s := by
    rw [wp_bind]
    exact wp_routed (commit_routed _ _) h (fun _ t ht => hm t ht) fun _ _ => id
  cases setting <;> unfold applyChange
  case providers providers =>
    refine saved _ _ _ fun t ht => ?_
    rw [wp_bind, wp_change, wp_pure]
    exact ⟨ht.trace, ht.wheel.seat, ht.wheel.lot, manned_nil _⟩
  case cwd path =>
    rw [wp_bind, wp_self]
    refine saved _ _ _ fun t ht => ?_
    exact ht.same rfl rfl
  all_goals
    refine saved _ _ _ fun t ht => ?_
    exact ht.same rfl rfl

theorem apply_routed (changes : List Change) (h : Routed w Manned s) :
    wp (apply changes) (fun _ t => Routed w Manned t) (fun _ t => t.Guarded w) s := by
  cases changes with
  | nil => exact h
  | cons setting rest =>
    unfold apply
    rw [wp_bind]
    refine wp_mono (applyChange_routed setting h) (fun what t ht => ?_) fun _ _ => id
    have tell : (routing w Manned).Holds (do
        let _ ← record ((Event.config what.1).extras what.2)
        refresh
        return [Call.apply rest]) :=
      holds_bind (record_routed _) fun _ => holds_bind refresh_routed fun _ => holds_pure _
    exact wp_routed tell ht (fun _ _ => id) fun _ _ => id

omit [Host] in
/-- A chat that says someone is left has a provider to move to, and is as it was; else everyone
who was set aside gets another chance. -/
theorem anyoneLeft_routed (h : Routed w D s) :
    wp anyoneLeft (fun left t => Routed w Manned t ∧ (left → t = s)) (fun _ t => t.Guarded w) s := by
  unfold anyoneLeft
  rw [wp_bind, wp_self, wp_ite]
  constructor
  · intro hne
    exact ⟨h.dial fun _ => hne, fun _ => rfl⟩
  intro _
  rw [wp_ite]
  constructor
  · intro hnil
    have empty : Routed w (fun providers _ => providers = []) s := h.dial hnil
    rw [wp_bind]
    refine wp_routed (blocked_routed _) empty (fun _ t ht => ?_) fun _ _ => id
    exact ⟨ht.dial fun hne => absurd ht.wheel.dial hne, by rintro ⟨⟩⟩
  · intro _
    rw [wp_bind, wp_change, wp_bind]
    have fresh : Routed w Manned { s with chat := { s.chat with benched := [] } } :=
      ⟨h.trace, h.wheel.seat, h.wheel.lot, manned_nil _⟩
    refine wp_routed refresh_routed fresh (fun _ t ht => ?_) fun _ _ => id
    rw [wp_bind]
    exact wp_routed (blocked_routed _) ht (fun _ u hu => ⟨hu, by rintro ⟨⟩⟩) fun _ _ => id

omit [Host] in
theorem movedOn_routed (name why : String) : (routing w D).Holds (movedOn name why) := by
  unfold movedOn
  refine holds_bind self_routed fun c => ?_
  extract_lets rest
  have hrest : ∀ r, (routing w D).Holds (rest r) := fun r =>
    holds_bind self_routed fun d => holds_bind (record_routed _) fun _ => refresh_routed
  split
  · refine holds_bind (unparked_routed _) fun _ => ?_
    exact holds_bind (stop_routed _) fun _ => hrest ⟨⟩
  · exact hrest ⟨⟩

omit [Host] in
/-- A provider put aside was on the dial, and is off it. -/
theorem sideline_routed (name why : String) (h : Routed w Manned s) :
    wp (sideline name why)
      (fun left t => Routed w Manned t ∧ (left → t.chat.usable.length < s.chat.usable.length))
      (fun _ t => t.Guarded w) s := by
  unfold sideline
  rw [wp_bind, wp_self, wp_ite]
  constructor
  · intro hon
    rw [wp_bind, wp_change, wp_bind]
    let aside (providers benched : List String) : Prop :=
      providers = s.chat.providers ∧ benched = name :: s.chat.benched
    have hs : Routed w aside { s with chat := { s.chat with benched := name :: s.chat.benched } } :=
      ⟨h.trace, h.wheel.seat, h.wheel.lot, rfl, rfl⟩
    refine wp_routed (movedOn_routed _ _) hs (fun _ t ht => ?_) fun _ _ => id
    refine wp_mono (anyoneLeft_routed ht) (fun left u hu => ⟨hu.1, fun hl => ?_⟩) fun _ _ => id
    rw [hu.2 hl]
    obtain ⟨providers, benched⟩ := ht.wheel.dial
    change t.chat.providers = s.chat.providers at providers
    change t.chat.benched = name :: s.chat.benched at benched
    show (dialed t.chat.providers t.chat.benched).length < _
    rw [providers, benched, dialed_aside]
    refine length_dialed_lt (List.mem_filter.mpr ⟨?_, ?_⟩)
    · exact List.contains_iff_mem.mp hon.1
    · exact hon.2
  · exact fun _ => ⟨h, by rintro ⟨⟩⟩

/-- A round tried again has one provider less to try. -/
theorem notStarted_routed (why err : String) (next : List Call) (h : Routed w Manned s) :
    wp (notStarted why err next)
      (fun calls t => Routed w Manned t ∧ (calls = [] ∨
        calls = [.attempt why next] ∧ t.chat.usable.length < s.chat.usable.length))
      (fun _ t => t.Guarded w) s := by
  unfold notStarted
  let same (providers benched : List String) : Prop :=
    Manned providers benched ∧ dialed providers benched = s.chat.usable
  have hs : Routed w same s := h.dial ⟨h.wheel.dial, rfl⟩
  rw [wp_bind]
  refine wp_routed rung_routed hs (fun answer t ht => ?_) fun _ _ => id
  simp only [wp_bind, wp_self]
  rw [wp_ite]
  constructor
  · intro _
    rw [wp_bind]
    exact wp_routed (blocked_routed _) ht (fun _ u hu => ⟨hu.dial hu.wheel.dial.1, .inl rfl⟩)
      fun _ _ => id
  · intro _
    rw [wp_bind]
    refine wp_routed (record_routed _) ht (fun _ u hu => ?_) fun _ _ => id
    rw [wp_bind]
    refine wp_mono (sideline_routed _ _ (hu.dial hu.wheel.dial.1)) (fun left v hv => ?_)
      fun _ _ => id
    have dial : u.chat.usable = s.chat.usable := hu.wheel.dial.2
    cases left
    · exact ⟨hv.1, .inl rfl⟩
    · exact ⟨hv.1, .inr ⟨rfl, dial ▸ hv.2 rfl⟩⟩

end dial

section looks
variable {s t u : Conf}

/-- Nothing but questions was asked between `s` and `t`. -/
structure Looked (s t : Conf) : Prop where
  chat : t.chat = s.chat
  trace : t.trace = s.trace

theorem Looked.trans (h : Looked s t) (h' : Looked t u) : Looked s u :=
  ⟨h'.chat.trans h.chat, h'.trace.trans h.trace⟩

theorem Looked.routed {w : Watch} {D : List String → List String → Prop} (h : Looked s t) (hs : Routed w D s) :
    Routed w D t :=
  hs.same (congrArg Chat.wheel h.chat) h.trace

theorem runnerAlive_looked : wp runnerAlive (fun _ t => Looked s t) (fun _ _ => False) s := by
  unfold runnerAlive
  rw [wp_bind, wp_self]
  split
  · exact ⟨rfl, rfl⟩
  · exact ⟨rfl, rfl⟩

variable [Host]

theorem rung_looked :
    wp rung (fun answer t => Looked s t ∧ ∀ pick, answer = .ok pick →
      pick.provider ∈ s.chat.usable) (fun _ _ => False) s := by
  unfold rung
  simp only [wp_bind, wp_self, wp_asks, wp_pure]
  exact ⟨⟨rfl, rfl⟩, fun pick h => resolve_provider h⟩

/-- A runner that is not stale is of a provider on the dial. -/
theorem stale_looked :
    wp stale (fun stale t => Looked s t ∧ (stale = false →
      ∀ was, s.chat.current = some was → was.provider ∈ s.chat.usable)) (fun _ _ => False) s := by
  unfold stale
  rw [wp_bind, wp_self]
  split
  next hnone => exact ⟨⟨rfl, rfl⟩, fun _ was hwas => by rw [hnone] at hwas; cases hwas⟩
  next current hcurrent =>
    rw [wp_bind]
    refine wp_mono rung_looked (fun answer t ht => ?_) fun _ _ => id
    split
    next pick =>
      refine ⟨ht.1, fun fits was hwas => ?_⟩
      obtain rfl := Option.some.inj (hcurrent.symm.trans hwas)
      have same : current = t.chat.signature pick := by simpa using fits
      rw [same]
      exact ht.2 pick rfl
    next => exact ⟨ht.1, by rintro ⟨⟩⟩

theorem ready_looked :
    wp ready (fun ready t => Looked s t ∧ (ready = true →
      ∀ was, s.chat.current = some was → was.provider ∈ s.chat.usable)) (fun _ _ => False) s := by
  unfold ready
  rw [wp_bind]
  refine wp_mono runnerAlive_looked (fun alive t ht => ?_) fun _ _ => id
  rw [wp_ite]
  constructor
  · intro _
    rw [wp_bind]
    refine wp_mono stale_looked (fun stale u hu => ?_) fun _ _ => id
    refine ⟨ht.trans hu.1, fun fits => ?_⟩
    have fresh : stale = false := by simpa using fits
    have on := hu.2 fresh
    rwa [ht.chat] at on
  · exact fun _ => ⟨ht, by rintro ⟨⟩⟩

omit [Host] in
theorem tunable_looked (rung : Pick) :
    wp (tunable rung) (fun yes t => Looked s t ∧ (yes = true →
      ∃ was, s.chat.current = some was ∧ was.provider = rung.provider)) (fun _ _ => False) s := by
  unfold tunable
  rw [wp_bind, wp_self]
  split
  · exact ⟨⟨rfl, rfl⟩, by rintro ⟨⟩⟩
  next current hcurrent =>
    rw [wp_bind]
    refine wp_mono runnerAlive_looked (fun alive t ht => ?_) fun _ _ => id
    rw [wp_ite]
    constructor
    · refine fun _ => ⟨ht, fun yes => ⟨current, hcurrent, ?_⟩⟩
      have same := of_decide_eq_true yes
      exact same.1
    · exact fun _ => ⟨ht, by rintro ⟨⟩⟩

end looks

section bringing
variable [Host] {w : Watch} {D : List String → List String → Prop} {s : Conf}

omit [Host] in
/-- A runner tuned in place stays one of the provider that is current. -/
theorem retuneInPlace_routed (rung : Pick) (h : Routed w D s) :
    wp (retuneInPlace rung) (fun _ t => Routed w D t) (fun _ t => t.Guarded w) s := by
  unfold retuneInPlace
  rw [wp_bind]
  refine wp_mono (tunable_looked rung) (fun yes t ht => ?_) fun _ _ => False.elim
  obtain ⟨looked, tuned⟩ := ht
  have routed := looked.routed h
  rw [wp_ite]
  constructor
  · intro hyes
    obtain ⟨was, hwas, hprovider⟩ := tuned hyes
    rw [wp_bind, wp_self]
    split
    · exact routed
    next runner hrunner =>
      unfold retune
      simp only [wp_bind, wp_asks, wp_note, wp_pure]
      rw [wp_ite]
      constructor
      · intro _
        obtain ⟨signature, hsignature, hname⟩ := routed.wheel.seat runner hrunner
        change t.chat.current = some signature at hsignature
        rw [looked.chat, hwas] at hsignature
        obtain rfl := Option.some.inj hsignature
        rw [wp_bind, wp_change, wp_bind]
        have retuned : Routed w D { t with
            calls := t.calls + 1
            trace := .retuned runner rung.model rung.effort (t.env.retune t.calls runner) :: t.trace
            chat := { t.chat with current := some (t.chat.signature rung) } } := by
          refine ⟨(routed.note (t := { t with trace := _ :: t.trace }) rfl rfl rfl).trace, ?_,
            routed.wheel.lot, routed.wheel.dial⟩
          intro r hr
          obtain rfl := Option.some.inj (hrunner.symm.trans hr)
          exact ⟨_, rfl, hprovider.symm.trans hname⟩
        refine wp_routed (record_routed _) retuned (fun _ u hu => ?_) fun _ _ => id
        exact wp_routed (holds_bind refresh_routed fun _ => holds_pure _) hu (fun _ _ => id)
          fun _ _ => id
      · exact fun _ => routed.note rfl rfl rfl
  · exact fun _ => routed

/-- A round of `attempt` leaves what its caller goes on with, the rung to bring up, or a dial with
one provider less to try. -/
theorem attempt_routed (why : String) (next : List Call) (h : Routed w Manned s) :
    wp (attempt why next)
      (fun calls t => Routed w Manned t ∧
        (calls = [] ∨ calls = next ∧ t.chat.usable = s.chat.usable ∨
          calls = [.attempt why next] ∧ t.chat.usable.length < s.chat.usable.length ∨
          ∃ rung, calls = [.replace rung why next] ∧ rung.provider ∈ t.chat.usable ∧
            t.chat.usable = s.chat.usable))
      (fun _ t => t.Guarded w) s := by
  unfold attempt
  rw [wp_bind]
  refine wp_mono rung_looked (fun answer t ht => ?_) fun _ _ => False.elim
  have usable : t.chat.usable = s.chat.usable := by rw [ht.1.chat]
  split
  next rung =>
    let same (providers benched : List String) : Prop :=
      Manned providers benched ∧ dialed providers benched = s.chat.usable
    have ready : Routed w same t := (ht.1.routed h).dial ⟨(ht.1.routed h).wheel.dial, usable⟩
    rw [wp_bind]
    refine wp_mono (retuneInPlace_routed rung ready) (fun took u hu => ?_) fun _ _ => id
    have routed : Routed w Manned u := hu.dial hu.wheel.dial.1
    have kept : u.chat.usable = s.chat.usable := hu.wheel.dial.2
    cases took
    · exact ⟨routed, .inr (.inr (.inr ⟨rung, rfl, kept ▸ ht.2 rung rfl, kept⟩))⟩
    · exact ⟨routed, .inr (.inl ⟨rfl, kept⟩)⟩
  next err =>
    refine wp_mono (notStarted_routed why err next (ht.1.routed h)) (fun calls u hu => ?_)
      fun _ _ => id
    rw [usable] at hu
    exact ⟨hu.1, hu.2.elim .inl fun again => .inr (.inr (.inl again))⟩

theorem attemptReplace_routed {rung : Pick} (why : String) (next : List Call)
    (h : Routed w Manned s) (on : rung.provider ∈ s.chat.usable) :
    wp (attemptReplace rung why next)
      (fun calls t => Routed w Manned t ∧
        (calls = [] ∨ calls = next ∧ t.chat.usable = s.chat.usable ∨
          calls = [.attempt why next] ∧ t.chat.usable.length < s.chat.usable.length))
      (fun _ t => t.Guarded w) s := by
  let same (providers benched : List String) : Prop :=
    Manned providers benched ∧ dialed providers benched = s.chat.usable
  have hs : Routed w same s := h.dial ⟨h.wheel.dial, rfl⟩
  have dial : ∀ ps bs, same ps bs → rung.provider ∈ dialed ps bs := by
    rintro ps bs ⟨-, hd⟩
    rw [hd]
    exact on
  unfold attemptReplace
  rw [wp_bind]
  refine wp_mono (replace_routed dial hs) (fun answer t ht => ?_)
    fun _ _ => id
  have routed : Routed w Manned t := ht.dial ht.wheel.dial.1
  have kept : t.chat.usable = s.chat.usable := ht.wheel.dial.2
  split
  · exact ⟨routed, .inr (.inl ⟨rfl, kept⟩)⟩
  · refine wp_mono (notStarted_routed why _ next routed) (fun calls u hu => ?_) fun _ _ => id
    rw [kept] at hu
    exact ⟨hu.1, hu.2.elim .inl fun again => .inr (.inr again)⟩

/-- A provider that failed and was on the dial is off it before the next is tried. -/
theorem failed_routed (provider kind : String) (h : Routed w Manned s) :
    wp (failed provider kind)
      (fun calls t => Routed w Manned t ∧ (calls = [] ∨
        calls = [.attempt "provider failed" [.flush]] ∧
          (s.chat.blamed provider ∈ s.chat.usable →
            t.chat.usable.length < s.chat.usable.length)))
      (fun _ t => t.Guarded w) s := by
  let same (providers benched : List String) : Prop :=
    Manned providers benched ∧ dialed providers benched = s.chat.usable
  have hs : Routed w same s := h.dial ⟨h.wheel.dial, rfl⟩
  unfold failed
  rw [wp_bind, wp_self, wp_bind]
  refine wp_routed (closeTurn_routed _ _ _) hs (fun _ t ht => ?_) fun _ _ => id
  have routed : Routed w Manned t := ht.dial ht.wheel.dial.1
  have kept : t.chat.usable = s.chat.usable := ht.wheel.dial.2
  rw [wp_ite]
  constructor
  · exact fun _ => ⟨routed, .inl rfl⟩
  intro _
  rw [wp_ite]
  constructor
  · intro _
    rw [wp_bind]
    refine wp_mono (sideline_routed _ _ routed) (fun left u hu => ?_) fun _ _ => id
    cases left
    · exact ⟨hu.1, .inl rfl⟩
    · exact ⟨hu.1, .inr ⟨rfl, fun _ => kept ▸ hu.2 rfl⟩⟩
  · intro off
    refine ⟨routed, .inr ⟨rfl, fun on => absurd ?_ off⟩⟩
    exact List.contains_iff_mem.mpr (List.mem_filter.mp on).1

/-- A provider that lost its login and was on the dial is off the chat before the next is tried. -/
theorem unauthenticated_routed (provider : String) (h : Routed w Manned s) :
    wp (unauthenticated provider)
      (fun calls t => Routed w Manned t ∧ (calls = [] ∨
        calls = [.attempt "provider lost its login" [.flush]] ∧
          (s.chat.blamed provider ∈ s.chat.usable →
            t.chat.usable.length < s.chat.usable.length)))
      (fun _ t => t.Guarded w) s := by
  let same (providers benched : List String) : Prop :=
    Manned providers benched ∧ providers = s.chat.providers ∧ benched = s.chat.benched
  have hs : Routed w same s := h.dial ⟨h.wheel.dial, rfl, rfl⟩
  unfold unauthenticated
  rw [wp_bind, wp_self, wp_bind]
  refine wp_routed (closeTurn_routed _ _ _) hs (fun _ t ht => ?_) fun _ _ => id
  have routed : Routed w Manned t := ht.dial ht.wheel.dial.1
  rw [wp_ite]
  constructor
  · exact fun _ => ⟨routed, .inl rfl⟩
  intro _
  rw [wp_ite]
  constructor
  · intro off
    refine ⟨routed, .inr ⟨rfl, fun on => ?_⟩⟩
    have on : s.chat.providers.contains (s.chat.blamed provider) :=
      List.contains_iff_mem.mpr (List.mem_filter.mp on).1
    rw [on] at off
    cases off
  intro _
  rw [wp_bind]
  refine wp_routed (commit_routed _ _) ht (fun _ u hu => ?_) fun _ _ => id
  obtain ⟨-, -, benched⟩ := hu.wheel.dial
  change u.chat.benched = s.chat.benched at benched
  rw [wp_bind, wp_change, wp_bind]
  let less (providers benched : List String) : Prop :=
    providers = s.chat.providers.filter (· ≠ s.chat.blamed provider) ∧
      benched = s.chat.benched.filter (· ≠ s.chat.blamed provider)
  have removed : Routed w less { u with chat := { u.chat with
      providers := s.chat.providers.filter (· ≠ s.chat.blamed provider)
      benched := u.chat.benched.filter (· ≠ s.chat.blamed provider) } } :=
    ⟨hu.trace, hu.wheel.seat, hu.wheel.lot, rfl, congrArg _ benched⟩
  refine wp_routed (movedOn_routed _ _) removed (fun _ v hv => ?_) fun _ _ => id
  rw [wp_bind]
  refine wp_mono (anyoneLeft_routed hv) (fun left w hw => ?_) fun _ _ => id
  cases left
  · exact ⟨hw.1, .inl rfl⟩
  refine ⟨hw.1, .inr ⟨rfl, fun on => ?_⟩⟩
  rw [hw.2 rfl]
  obtain ⟨providers, benched⟩ := hv.wheel.dial
  change v.chat.providers = _ at providers
  change v.chat.benched = _ at benched
  show (dialed v.chat.providers v.chat.benched).length < _
  rw [providers, benched, dialed_removed]
  exact length_dialed_lt on

/-- Whoever is attached may be sent the conversation. -/
def Chat.fed (c : Chat) : Prop := ∀ runner, c.runner = some runner → runner.name ∈ c.usable

/-- Messages are handed over only where the attached runner is on the dial. -/
theorem flush_routed (h : Routed w D s) :
    wp flush (fun calls t => Routed w D t ∧ (calls = [] ∨ calls = [.deliver] ∧ t.chat.fed))
      (fun _ t => t.Guarded w) s := by
  unfold flush
  rw [wp_bind]
  refine wp_mono ready_looked (fun ready t ht => ?_) fun _ _ => False.elim
  have routed := ht.1.routed h
  rw [wp_ite]
  constructor
  · intro hready
    refine ⟨routed, .inr ⟨rfl, fun runner hrunner => ?_⟩⟩
    obtain ⟨signature, hsignature, hname⟩ := routed.wheel.seat runner hrunner
    change t.chat.current = some signature at hsignature
    rw [ht.1.chat] at hsignature ⊢
    rw [← hname]
    exact ht.2 hready signature hsignature
  · intro _
    rw [wp_bind, wp_self, wp_ite]
    constructor
    · intro _
      rw [wp_bind]
      refine wp_mono runnerAlive_looked (fun alive u hu => ?_) fun _ _ => False.elim
      rw [wp_ite]
      constructor
      · intro _
        rw [wp_bind]
        exact wp_routed (blocked_routed _) (hu.routed routed) (fun _ v hv => ⟨hv, .inl rfl⟩)
          fun _ _ => id
      · exact fun _ => ⟨hu.routed routed, .inl rfl⟩
    · exact fun _ => ⟨routed, .inl rfl⟩

omit [Host] in
/-- A round of `flush` hands one message to a runner that is on the dial, and leaves it there. -/
theorem deliver_routed (h : Routed w D s) (fed : s.chat.fed) :
    wp deliver (fun _ t => Routed w D t ∧ t.chat.fed ∧ t.chat.usable = s.chat.usable)
      (fun _ t => t.Guarded w) s := by
  have kept : wp deliver (fun _ t => t.chat.offDesk = s.chat.offDesk) (fun _ _ => True) s := by
    refine wp_deliver rfl ?_ ?_ ?_ fun _ _ _ _ _ _ _ _ => trivial
    · exact fun _ _ _ _ _ _ ht => ht.rest
    · exact fun _ _ _ _ _ ht => ht.rest
    · exact fun _ _ _ _ _ _ _ ht => ht.rest
  have routed : wp deliver (fun _ t => Routed w D t) (fun _ t => t.Guarded w) s := by
    unfold deliver
    rw [wp_bind, wp_self]
    split
    next message rest runner houtbox hrunner =>
      have told : Obs.passes w.compacts (.sent runner message (s.env.send s.calls runner).toOption
          s.chat.usable) := List.contains_iff_mem.mpr (fed runner hrunner)
      rw [wp_ite]
      constructor
      · exact fun _ => h
      intro _
      simp only [wp_bind, wp_asks, wp_note]
      have sent := h.note (t := { s with
        calls := s.calls + 1
        trace := .sent runner message (s.env.send s.calls runner).toOption s.chat.usable ::
          s.trace }) told rfl rfl
      split
      · exact sent
      · exact wp_routed (holds_bind (change_routed fun _ => rfl) fun _ =>
          holds_bind (settle_routed _) fun _ => holds_pure _) sent (fun _ _ => id) fun _ _ => id
      · rw [wp_bind]
        refine wp_routed (record_routed _) sent (fun event t ht => ?_) fun _ _ => id
        refine wp_routed (holds_bind (notes_routed ?_) fun _ =>
          holds_bind (change_routed fun _ => rfl) fun _ =>
          holds_bind rememberRunnerTurn_routed fun _ =>
          holds_bind (commit_routed _ _) fun _ =>
          holds_bind (change_routed fun _ => rfl) fun _ =>
          holds_bind (change_routed fun _ => rfl) fun _ =>
          holds_bind (settle_routed _) fun _ => holds_pure _) ht (fun _ _ => id) fun _ _ => id
        intro o ho
        split at ho <;> simp at ho
        · rcases ho with rfl | rfl <;> rfl
        · rcases ho with rfl
          rfl
    · exact h
  refine wp_mono (wp_and kept routed) (fun _ t ht => ?_) fun _ _ ht => ht.2
  have usable : t.chat.offDesk.usable = s.chat.offDesk.usable := congrArg Chat.usable ht.1
  have attached : t.chat.offDesk.runner = s.chat.offDesk.runner := congrArg Chat.runner ht.1
  change t.chat.usable = s.chat.usable at usable
  refine ⟨ht.2, fun runner hrunner => ?_, usable⟩
  rw [usable]
  exact fed runner (attached ▸ hrunner)

end bringing

/-- What may follow an `attempt` that brings a provider up. -/
def Onward (next : List Call) : Prop :=
  next = [.flush] ∨ next = [.finishTurn] ∨ next = [.flush, .settleIdle]

/-- The calls that may wait for others to be made first. -/
def Call.Plain : Call → Prop
  | .deliver | .replace _ _ _ => False
  | .attempt _ next => Onward next
  | _ => True

/-- What a call relies on so as not to hand the conversation to anyone off the dial. -/
def Call.Cleared (c : Chat) : Call → Prop
  | .deliver => c.fed
  | .replace rung _ next => rung.provider ∈ c.usable ∧ Onward next
  | .attempt _ next => Onward next
  | _ => True

theorem Call.Plain.cleared {call : Call} (h : call.Plain) (c : Chat) : call.Cleared c := by
  cases call <;> trivial

theorem Onward.plain {next : List Call} (h : Onward next) : ∀ call ∈ next, call.Plain := by
  rcases h with rfl | rfl | rfl <;> intro call hcall <;> simp at hcall
  · rw [hcall]
    trivial
  · rw [hcall]
    trivial
  · rcases hcall with rfl | rfl <;> trivial

/-- The calls left to make: what the first one relies on holds, and no later one needs anything. -/
def Primed (c : Chat) : List Call → Prop
  | [] => True
  | call :: rest => call.Cleared c ∧ ∀ later ∈ rest, later.Plain

theorem primed_of_plain {calls : List Call} (h : ∀ call ∈ calls, call.Plain) (c : Chat) :
    Primed c calls := by
  cases calls with
  | nil => trivial
  | cons call rest =>
    exact ⟨(h call List.mem_cons_self).cleared c, fun k hk => h k (List.mem_cons_of_mem _ hk)⟩

theorem Primed.append {c : Chat} {calls rest : List Call} (h : Primed c calls)
    (plain : ∀ call ∈ rest, call.Plain) : Primed c (calls ++ rest) := by
  cases calls with
  | nil => exact primed_of_plain plain c
  | cons call more =>
    refine ⟨h.1, fun k hk => ?_⟩
    rcases List.mem_append.mp hk with hk | hk
    · exact h.2 k hk
    · exact plain k hk

section runs
variable [Host] {s t : Conf} {call : Call} {calls : List Call}

/-- The calls with a lemma of their own about what they leave to be made. -/
def Call.isOwn : Call → Bool
  | .flush | .deliver | .attempt _ _ | .replace _ _ _ => true
  | _ => false

omit [Host] in
theorem Reacted.plain {d d' : Desk} {autoremove : Bool} {e : Event} {obs : List Obs}
    (h : Reacted d autoremove e calls d' obs) : ∀ k ∈ calls, k.Plain := by
  cases h <;> simp [Call.Plain]

theorem Ran.plain (ran : Ran s call calls t) (other : call.isOwn = false) :
    ∀ k ∈ calls, k.Plain := by
  cases ran with
  | moved leads still =>
    cases leads <;> first | (cases other; done) | simp [Call.Plain, Onward]
  | replaced => cases other
  | written => cases other
  | delivered => cases other
  | reacted _ _ _ reacted _ => exact reacted.plain
  | closed _ calls_eq _ =>
    rcases calls_eq with rfl | rfl <;> simp [Call.Plain, Onward]
  | proceeded _ proceeds _ => cases proceeds <;> simp [Call.Plain]
  | advanced _ advances _ =>
    cases advances with
    | complete _ _ _ calls_eq => rcases calls_eq with rfl | rfl <;> simp [Call.Plain, Onward]
    | _ => simp [Call.Plain]
  | finished _ _ calls_eq _ => rcases calls_eq with rfl | rfl <;> simp [Call.Plain, Onward]
  | _ => simp [Call.Plain]

/-- Every call keeps the conversation with those on the dial, and only `recoverContext` asks for a
compaction. -/
theorem run_routed {w : Watch} (h : Routed w Manned s) (cleared : call.Cleared s.chat)
    (allowed : w.compacts = true ∨ ∀ delivered, call ≠ .recoverContext delivered) :
    wp (run call) (fun calls t => Routed w Manned t ∧ Primed t.chat calls) (fun _ t => t.Guarded w)
      s := by
  have ordinary (other : call.isOwn = false)
      (routed : wp (run call) (fun _ t => Routed w Manned t) (fun _ t => t.Guarded w) s) :
      wp (run call) (fun calls t => Routed w Manned t ∧ Primed t.chat calls) (fun _ t => t.Guarded w)
        s :=
    wp_mono (wp_and routed (run_ran call))
      (fun calls t ht => ⟨ht.1, primed_of_plain (ht.2.plain other) t.chat⟩) fun _ _ ht => ht.1
  have frame {m : Conductor (List Call)} (hm : (routing w Manned).Holds m) :
      wp m (fun _ t => Routed w Manned t) (fun _ t => t.Guarded w) s :=
    wp_routed hm h (fun _ _ => id) fun _ _ => id
  cases call with
  | flush =>
    refine wp_mono (flush_routed h) (fun calls t ht => ⟨ht.1, ?_⟩) fun _ _ => id
    rcases ht.2 with rfl | ⟨rfl, fed⟩
    · trivial
    · exact ⟨fed, by rintro _ ⟨⟩⟩
  | deliver =>
    refine wp_mono (wp_and (deliver_routed h cleared) (run_ran .deliver)) (fun calls t ht => ?_)
      fun _ _ ht => ht.1
    obtain ⟨⟨routed, fed, -⟩, ran⟩ := ht
    refine ⟨routed, ?_⟩
    cases ran with
    | moved leads => cases leads <;> first | trivial | exact ⟨trivial, by rintro _ ⟨⟩⟩
    | written => exact ⟨fed, by rintro _ ⟨⟩⟩
    | delivered => exact ⟨fed, by rintro _ ⟨⟩⟩
    | closed call_eq => rcases call_eq with ⟨_, _, h⟩ | ⟨_, h⟩ <;> cases h
  | attempt why next =>
    refine wp_mono (attempt_routed why next h) (fun calls t ht => ⟨ht.1, ?_⟩) fun _ _ => id
    rcases ht.2 with rfl | ⟨rfl, -⟩ | ⟨rfl, -⟩ | ⟨rung, rfl, on, -⟩
    · trivial
    · exact primed_of_plain (Onward.plain cleared) _
    · exact ⟨cleared, by rintro _ ⟨⟩⟩
    · exact ⟨⟨on, cleared⟩, by rintro _ ⟨⟩⟩
  | replace rung why next =>
    refine wp_mono (attemptReplace_routed why next h cleared.1)
      (fun calls t ht => ⟨ht.1, ?_⟩) fun _ _ => id
    rcases ht.2 with rfl | ⟨rfl, -⟩ | ⟨rfl, -⟩
    · trivial
    · exact primed_of_plain cleared.2.plain _
    · exact ⟨cleared.2, by rintro _ ⟨⟩⟩
  | launchOnce => exact ordinary rfl (frame launchOnce_routed)
  | enqueue text => exact ordinary rfl (frame (enqueue_routed text))
  | dispatchQueued => exact ordinary rfl (frame dispatchQueued_routed)
  | refused why => exact ordinary rfl (frame (refused_routed why))
  | absorb epoch report => exact ordinary rfl (frame (absorb_routed epoch report))
  | unauthenticated provider =>
    exact ordinary rfl (wp_mono (unauthenticated_routed provider h) (fun _ _ ht => ht.1)
      fun _ _ => id)
  | failed provider kind =>
    exact ordinary rfl (wp_mono (failed_routed provider kind h) (fun _ _ ht => ht.1)
      fun _ _ => id)
  | recoverContext delivered =>
    have compacts : w.compacts = true := allowed.resolve_right fun h => h delivered rfl
    exact ordinary rfl (frame (recoverContext_routed delivered compacts))
  | startHandoff => exact ordinary rfl (frame startHandoff_routed)
  | recoveryMessage stage text fresh =>
    exact ordinary rfl (frame (recoveryMessage_routed stage text fresh))
  | recoveryEnded end_ => exact ordinary rfl (frame (recoveryEnded_routed end_))
  | recoveryFailed why => exact ordinary rfl (frame (recoveryFailed_routed why))
  | resumeRecovery => exact ordinary rfl (frame resumeRecovery_routed)
  | finishTurn => exact ordinary rfl (frame finishTurn_routed)
  | settleIdle => exact ordinary rfl (frame settleIdle_routed)
  | apply changes => exact ordinary rfl (apply_routed changes h)
  | shutdown => exact ordinary rfl (frame shutdown_routed)
  | stopped => exact ordinary rfl (frame stopped_routed)
  | publish =>
    exact ordinary rfl (frame (holds_bind publish_routed fun _ => holds_pure _))

/-- A conductor and the calls it has still to make, with the conversation kept to the dial. -/
structure Authority (s : Conf) (stack : List Call) : Prop where
  accounted : Accounted s.chat.desk s.books
  routed : Routed .whole Manned s
  primed : Primed s.chat stack

theorem blank_guarded (sessionId : String) (env : Env) :
    (Conf.blank sessionId env).Guarded .whole :=
  ⟨[], rfl, fun _ ho => absurd ho List.not_mem_nil⟩

/-- A session just opened has nobody attached, nobody parked and nobody set aside. -/
theorem authority_opened {past t : Conf} (sound : past.books.Sound) (guarded : past.Guarded .whole)
    (opened : Opened past t) : Authority t [] := by
  have trace : t.trace = past.trace := congrArg Books.trace opened.books
  refine ⟨accounted_opened sound opened, ⟨guarded.same trace, ?_, ?_, ?_⟩, trivial⟩
  · intro runner hrunner
    cases opened.runner.symm.trans hrunner
  · intro entry hentry
    change entry ∈ t.chat.parked at hentry
    rw [opened.parked] at hentry
    cases hentry
  · show Manned t.chat.providers t.chat.benched
    rw [opened.benched]
    exact manned_nil _

omit [Host] in
theorem wake_plain (wake : Wake) : ∀ call ∈ wake.calls, call.Plain := by
  intro call hcall
  cases wake <;> simp [Wake.calls] at hcall
  case stop drained =>
    rcases hcall with rfl | ⟨_, _, _, rfl⟩ | rfl | rfl <;> trivial
  all_goals
    rcases hcall with rfl | rfl | rfl | rfl <;> trivial

theorem authority_invariant (ok : System → Move → Prop) :
    System.Invariant ok Authority (fun s => s.books.Sound ∧ s.Guarded .whole) where
  sound := And.left
  blank := fun sessionId env => ⟨blank_sound sessionId env, blank_guarded sessionId env⟩
  opened := fun dead opened => authority_opened dead.1 dead.2 opened
  failed := by
    rintro past t ⟨sound, guarded⟩ failed
    obtain ⟨stops, htrace, hstops⟩ := failed.trace
    exact ⟨sound_openFailed sound failed, guarded_append guarded
      (fun o ho => Obs.passes_of_isStop (hstops o ho) _) htrace⟩
  left := fun h _ => ⟨h.accounted.sound, h.routed.trace⟩
  ended := fun h _ => ⟨h.accounted.sound, h.routed.trace⟩
  wake := fun h _ _ _ =>
    ⟨h.accounted, h.routed.same rfl rfl, primed_of_plain (wake_plain _) _⟩
  deadline := fun h _ _ =>
    ⟨h.accounted, h.routed.same rfl rfl, primed_of_plain (by simp [Call.Plain]) _⟩
  call := by
    intro s call rest _ _ h
    refine wp_mono (wp_and (run_routed h.routed h.primed.1 (.inl rfl)) (run_ran call)) ?_ ?_
    · rintro calls t ⟨⟨routed, primed⟩, ran⟩
      exact ⟨accounted_ran h.accounted ran, routed, primed.append h.primed.2⟩
    · rintro _ t ⟨guarded, died⟩
      exact ⟨sound_died h.accounted died, guarded⟩
  published := by
    rintro s ⟨sound, guarded⟩
    refine ⟨sound.mono le_rfl rfl, guarded_append guarded ?_ rfl⟩
    intro o ho
    obtain ⟨_, _, rfl⟩ := List.mem_map.mp (List.mem_reverse.mp ho)
    rfl

end runs

namespace System
variable [Host] {s : System}

/-- In every run conversation is only ever handed to a provider that was on the session's list at
that moment and not set aside, and between wakes a list with any provider has one that is not set
aside. -/
theorem routing_authority (h : Reachable s) :
    (∀ o ∈ s.conf.trace, o.authorized) ∧
      (s.ended = false → s.stack = [] → s.conf.chat.providers ≠ [] → s.conf.chat.usable ≠ []) := by
  have holds := (authority_invariant fun _ _ => True).holds h
  have guarded : s.conf.Guarded .whole := by
    cases hended : s.ended with
    | true => exact (holds.dead hended).2
    | false => exact (holds.live hended).routed.trace
  obtain ⟨os, htrace, hos⟩ := guarded
  constructor
  · intro o ho
    rw [htrace, Watch.whole, List.append_nil] at ho
    exact Obs.authorized_of_passes (hos o ho)
  · exact fun hlive _ => (holds.live hlive).routed.wheel.dial

end System

section samples
attribute [local instance] Host.ascii

/-- A world in which only codex takes messages, and claude-code is answered first. -/
def Env.onlyCodex : Env where
  nativeId _ runner := runner.name
  send _ runner := if runner.name = "codex" then .ok .immediate else .error "no"
  registry _ := {
    fresh := some { provider := "claude-code", model := "opus" }
    found := some { provider := "codex", model := "gpt" }
    stale := none }

/-- A message one provider refuses goes to the other, and the first is set aside. -/
theorem System.routing_authority_refused :
    ∃ s : System, s.stack = [] ∧ s.ended = false ∧ s.conf.chat.benched = ["claude-code"] ∧
      s.conf.chat.outbox = [] ∧ (∀ o ∈ s.conf.trace, o.authorized) ∧
        (s.ended = false → s.stack = [] → s.conf.chat.providers ≠ [] →
          s.conf.chat.usable ≠ []) := by
  have run : ∃ s, System.after "chat" ["claude-code", "codex"] Env.onlyCodex
      (.receive (.sendDurable "go on") Env.onlyCodex :: List.replicate 15 .advance) = some s ∧
        s.stack.length = 0 ∧ s.ended = false ∧ s.conf.chat.benched = ["claude-code"] ∧
          s.conf.chat.outbox = [] := by
    exact ⟨_, Option.eq_some_of_isSome (by decide +kernel), by decide +kernel, by decide +kernel,
      by decide +kernel, by decide +kernel⟩
  obtain ⟨s, hs, stack, live, benched, outbox⟩ := run
  obtain ⟨guarded, dial⟩ := System.routing_authority (System.reachable_after hs)
  exact ⟨s, List.length_eq_zero_iff.mp stack, live, benched, outbox, guarded, dial⟩

end samples
end SiliconOmni
