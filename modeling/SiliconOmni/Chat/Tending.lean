import SiliconOmni.Chat.QuietRunners

/-! What the conductor does with its queues, its open turn and a recovery stays within every frame
that admits the steps it is made of, whatever they do to messages. -/
namespace SiliconOmni
open Lib Frame

/-- The chat less everything about any runner, its queues, the open turn and the recovery under
way. -/
def Chat.untended (c : Chat) : Chat :=
  { c.unmanned with
    outbox := [], awaiting := [], unanswered := [], nextTurns := 0, turnRecorded := false
    inTurn := false, turnFailed := none, recovery := none, historyStart := 0
    compactionDeadline := false }

/-- The runner took a message. -/
def Obs.isHanded : Obs → Bool
  | .sent _ _ (some _) _ => true
  | _ => false

/-- The frames that also allow any observation but that a message was taken, ids to be drawn, messages to be moved about in
memory and on disk, and whatever the conductor logs of its own accord. -/
structure Tends (F : Frame Conf) : Prop where
  admits : Admits F Chat.unmanned
  notes {os : List Obs} (kept : ∀ o ∈ os, o.isHanded = false) : F.Holds (notes os)
  change {f : Chat → Chat} (same : ∀ c, (f c).untended = c.untended)
    (fewer : ∀ c : Chat, c.Fewer (f c)) : F.Holds (change f)
  commit {action : String} {edit : MetaData → MetaData}
    (keeps : ∀ data, (edit data).settings = data.settings) : F.Holds (commit action edit)
  launched : F.Holds (SiliconOmni.change fun c => { c with launchedOnce := true })
  draw (s : Conf) (ids : ℕ) : F.live s { s with ids }
  publish : F.Holds (do publish; return ([] : List Call))
  record {event : Event} (other : event.eventType ≠ .start) (turn : event.turn = -1) :
    F.Holds (record event)

/-- The calls that attach a runner, those that log an event with a turn of its own, those that change
a setting, and those that stop. -/
def Call.isMarked : Call → Bool
  | .replace _ _ _ | .deliver | .absorb _ _ | .apply _ | .unauthenticated _ | .shutdown
  | .stopped => true
  | _ => false

namespace Tends
variable {F : Frame Conf} (h : Tends F)
include h
open Admits

theorem note_holds {o : Obs} (kept : o.isHanded = false) : F.Holds (note o) := by
  have one : F.Holds (SiliconOmni.notes [o]) := h.notes (by simpa using kept)
  exact one

theorem become_holds (status : Status) : F.Holds (become status) := h.admits.become_holds status

theorem busy_holds (calls : List Call) : F.Holds (do become .busy; return calls) :=
  holds_bind (h.become_holds _) fun _ => holds_pure _

theorem putDown_holds : F.Holds putDown := by
  unfold putDown
  refine holds_bind holds_self fun c => ?_
  refine holds_bind (h.notes ?_) fun _ => ?_
  · unfold Chat.puttingDown
    split
    · split <;> simp [Obs.isHanded]
    · simp
  exact h.change (fun _ => rfl) fun _ => .detach (.of_eq rfl) rfl rfl rfl

theorem saveRecovery_holds (next : Option Recovery) (since : Option ℤ)
    (message : Option PendingMessage) : F.Holds (saveRecovery next since message) := by
  unfold saveRecovery
  refine holds_bind holds_self fun c => ?_
  exact holds_bind (h.commit fun _ => rfl) fun _ => h.change (fun _ => rfl) fun _ => .of_eq rfl

theorem recoverContext_holds (delivered : Bool) : F.Holds (recoverContext delivered) := by
  unfold recoverContext
  refine holds_bind holds_self fun c => holds_bind (h.saveRecovery_holds _ _ _) fun _ => ?_
  refine holds_bind (h.change (fun _ => rfl) fun _ => .of_eq rfl) fun _ => ?_
  split
  · refine holds_bind (h.admits.asks _) fun answer => holds_bind (h.note_holds rfl) fun _ => ?_
    refine holds_ite ?_ (holds_pure _)
    refine holds_bind (h.change (fun _ => rfl) fun _ => .of_eq rfl) fun _ => ?_
    refine holds_bind (h.become_holds _) fun _ => ?_
    exact holds_bind (h.record (by rintro ⟨⟩) rfl) fun _ => holds_pure _
  · exact holds_pure _

theorem recoveryEnded_holds (end_ : Event) : F.Holds (recoveryEnded end_) := by
  have save {next : Option Recovery} {calls : List Call} :
      F.Holds (do saveRecovery next none none; return calls) :=
    holds_bind (h.saveRecovery_holds _ _ _) fun _ => holds_pure _
  unfold recoveryEnded
  refine holds_bind holds_self fun c => holds_bind (h.change (fun _ => rfl) fun _ => .of_eq rfl) fun _ => ?_
  split
  · exact holds_pure _
  refine holds_ite (holds_ite (holds_pure _) (holds_ite (holds_pure _) ?_)) ?_
  · split
    · exact save
    · exact save
  refine holds_ite (holds_pure _) (holds_ite (holds_pure _) (holds_ite (holds_pure _) ?_))
  split
  · exact save
  · exact save
  · refine holds_bind (h.saveRecovery_holds _ _ _) fun _ => ?_
    exact holds_bind h.admits.runnerAlive_holds fun _ => holds_ite (holds_pure _) (holds_pure _)

theorem resumeRecovery_holds : F.Holds resumeRecovery := by
  unfold resumeRecovery
  refine holds_bind holds_self fun c => ?_
  split
  · exact holds_pure _
  refine holds_ite (holds_pure _) (holds_ite (holds_pure _) ?_)
  extract_lets events
  split
  · exact holds_pure _
  split
  · refine holds_ite (holds_pure _) ?_
    exact holds_bind (h.change (fun _ => rfl) fun _ => .of_eq rfl) fun _ => holds_pure _
  · exact holds_pure _

theorem settleIdle_holds : F.Holds settleIdle := by
  unfold settleIdle
  refine holds_bind holds_self fun c => ?_
  refine holds_ite (holds_bind (h.become_holds _) fun _ => ?_) ?_
  · exact holds_pure _
  · exact holds_pure _

theorem release_holds : F.Holds release := by
  unfold release
  refine holds_bind holds_self fun c => ?_
  split
  · exact holds_bind (h.change (fun _ => rfl) fun _ => .detach (.of_eq rfl) rfl rfl rfl) fun _ => h.admits.dismiss_holds _
  · exact holds_pure _

/-- All of `shutdown` but that it says so. -/
theorem shutdown_holds (stopping : F.Holds (SiliconOmni.change fun c => { c with stopping := true })) :
    F.Holds shutdown := by
  unfold shutdown
  refine holds_bind stopping fun _ => holds_bind h.release_holds fun _ => ?_
  refine holds_bind holds_self fun c => holds_bind (h.change (fun _ => rfl) fun _ => .clear (.of_eq rfl)) fun _ => ?_
  exact holds_bind (h.admits.stopAll_holds _) fun _ => holds_pure _

/-- All of `stopped` but that no epoch is current any more. -/
theorem stopped_holds
    (unseated : F.Holds (SiliconOmni.change fun c => { c with runnerEpoch := none })) :
    F.Holds stopped := by
  have closeLast : F.Holds closeLast := by
    unfold SiliconOmni.closeLast
    refine holds_bind holds_self fun c => holds_ite ?_ (holds_pure _)
    exact holds_bind (h.record (by rintro ⟨⟩) rfl) fun _ => h.note_holds rfl
  unfold stopped
  refine holds_bind unseated fun _ => holds_bind closeLast fun _ => ?_
  refine holds_bind (h.change (fun _ => rfl) fun _ => .of_eq rfl) fun _ => ?_
  refine holds_bind (h.record (by rintro ⟨⟩) rfl) fun _ => ?_
  exact holds_bind (h.become_holds _) fun _ => holds_pure _

theorem straggler_holds (event : Event) : F.Holds (straggler event) := by
  unfold straggler
  refine holds_bind holds_self fun c => holds_ite (holds_pure _) ?_
  split
  · exact holds_pure _
  · refine holds_ite (holds_pure _) (holds_bind (h.admits.asks _) fun ours => ?_)
    split <;> exact holds_pure _

theorem react_holds (event : Event) : F.Holds (react event) := by
  have set_ {f : Chat → Chat} (hf : ∀ c, (f c).untended = c.untended)
      (fewer : ∀ c : Chat, c.Fewer (f c)) :
      F.Holds (do SiliconOmni.change f; return ([] : List Call)) :=
    holds_bind (h.change hf fewer) fun _ => holds_pure _
  have end_ : F.Holds (reactToEnd event) := by
    unfold reactToEnd
    refine holds_bind holds_self fun c => holds_bind (h.notes ?_) fun _ => ?_
    · split <;> simp [Obs.isHanded]
    refine holds_bind (h.change (fun _ => rfl) fun _ => .of_eq rfl) fun _ => holds_ite (holds_pure _) ?_
    refine holds_bind (h.change (fun _ => rfl) fun _ => .of_eq rfl) fun _ => ?_
    split
    · exact holds_pure _
    · exact holds_ite (holds_pure _) (holds_pure _)
    · exact holds_pure _
  have error : F.Holds (reactToError event) := by
    unfold reactToError
    refine holds_bind holds_self fun c => ?_
    split
    · refine holds_ite (holds_bind (h.change (fun _ => rfl) fun _ => .of_eq rfl) fun _ => ?_) (holds_pure _)
      exact holds_ite (holds_ite (holds_pure _) (holds_pure _)) (holds_pure _)
    · split
      · exact set_ (fun _ => rfl) fun _ => .of_eq rfl
      · exact holds_pure _
      · exact holds_pure _
      · exact holds_ite (set_ (fun _ => rfl) fun _ => .of_eq rfl) (holds_pure _)
      · exact holds_ite (set_ (fun _ => rfl) fun _ => .of_eq rfl) (holds_pure _)
      · exact holds_pure _
  unfold react
  refine holds_bind holds_self fun c => holds_ite (holds_ite ?_ (holds_pure _)) ?_
  · exact holds_bind (h.note_holds rfl) fun _ => set_ (fun _ => rfl) fun _ => .of_eq rfl
  refine holds_ite ?_ (holds_ite end_ (holds_ite error (holds_pure _)))
  exact holds_bind (h.change (fun _ => rfl) fun _ => .of_eq rfl) fun _ => h.busy_holds _

variable [Host]

theorem newId_holds : F.Holds newId := fun s => h.draw s _

theorem repeated_holds (event : Event) : F.Holds (repeated event) := by
  unfold repeated
  refine holds_ite (holds_bind holds_self fun c => holds_ite (holds_pure _) ?_) (holds_pure _)
  exact holds_bind (h.change (fun _ => rfl) fun _ => .of_eq rfl) fun _ => holds_pure _

theorem requeue_holds (retry : Bool) : F.Holds (requeue retry) := by
  unfold requeue
  refine holds_bind (h.change (fun _ => rfl) fun _ => .of_eq rfl) fun _ => holds_bind holds_self fun c => ?_
  extract_lets rest
  have hrest : ∀ r, F.Holds (rest r) := fun _ => h.change (fun _ => rfl) fun _ => .of_eq rfl
  refine holds_ite ?_ (hrest ⟨⟩)
  refine holds_bind (fun s => h.draw s _) fun messages => ?_
  refine holds_bind (h.commit fun _ => rfl) fun _ => ?_
  exact holds_bind (h.change (fun _ => rfl) fun _ => .of_eq rfl) fun _ => hrest ⟨⟩

theorem closeTurn_holds (provider : String) (extra : Fields) (retry : Bool) :
    F.Holds (closeTurn provider extra retry) := by
  unfold closeTurn
  refine holds_bind h.putDown_holds fun _ => holds_bind (h.requeue_holds retry) fun _ => ?_
  refine holds_bind holds_self fun c => ?_
  extract_lets rest
  have hrest : ∀ r, F.Holds (rest r) := fun _ =>
    holds_bind (h.change (fun _ => rfl) fun _ => .of_eq rfl) fun _ => h.admits.settle fun _ _ => rfl
  refine holds_ite ?_ (hrest ⟨⟩)
  refine holds_bind (h.change (fun _ => rfl) fun _ => .of_eq rfl) fun _ => ?_
  exact holds_bind (h.record (by rintro ⟨⟩) rfl) fun _ => holds_bind (h.note_holds rfl) hrest

theorem failed_holds (provider kind : String) : F.Holds (failed provider kind) := by
  have dial := h.admits.of_unmanned
  unfold failed
  refine holds_bind holds_self fun c => holds_bind (h.closeTurn_holds _ _ _) fun _ => ?_
  refine holds_ite (holds_pure _) (holds_ite (holds_bind (dial.sideline_holds _ _) fun left => ?_) ?_)
  · exact holds_ite (holds_pure _) (holds_pure _)
  · exact holds_pure _

theorem recoveryMessage_holds (stage : RecoveryStage) (text : String) (fresh : Bool) :
    F.Holds (recoveryMessage stage text fresh) := by
  have queued (fresh : Bool) : F.Holds (queueRecovery stage text fresh) := by
    unfold queueRecovery
    refine holds_bind h.newId_holds fun _ => holds_bind (h.note_holds rfl) fun _ => ?_
    refine holds_bind holds_self fun c => holds_bind (h.saveRecovery_holds _ _ _) fun _ => ?_
    exact holds_bind (h.change (fun _ => rfl) fun _ => .of_eq rfl) fun _ => h.become_holds _
  have cleaned : F.Holds startClean := by
    unfold startClean
    refine holds_bind holds_self fun c => holds_bind (h.closeTurn_holds _ _ _) fun _ => ?_
    refine holds_bind holds_self fun d => holds_bind (h.change (fun _ => rfl) fun _ => .clear (.of_eq rfl)) fun _ => ?_
    exact h.admits.stopAll_holds _
  unfold recoveryMessage
  refine holds_ite (holds_bind cleaned fun _ => ?_) ?_
  · exact holds_bind (queued _) fun _ => holds_pure _
  · exact holds_bind (queued _) fun _ => holds_pure _

theorem recoveryFailed_holds (why : String) : F.Holds (recoveryFailed why) := by
  unfold recoveryFailed
  refine holds_bind holds_self fun c => holds_bind (h.closeTurn_holds _ _ _) fun _ => ?_
  refine holds_bind (h.saveRecovery_holds _ _ _) fun _ => ?_
  refine holds_bind (h.record (by rintro ⟨⟩) rfl) fun _ => ?_
  exact holds_bind h.admits.refresh_holds fun _ => holds_pure _

theorem finishTurn_holds : F.Holds finishTurn := by
  unfold finishTurn
  refine holds_bind (h.change (fun _ => rfl) fun _ => .of_eq rfl) fun _ => holds_bind holds_self fun c => ?_
  refine holds_ite (holds_bind (h.change (fun _ => rfl) fun _ => .of_eq rfl) fun _ => h.busy_holds _) ?_
  refine holds_bind h.admits.markTold_holds fun _ => holds_ite ?_ ?_
  · exact holds_bind (h.change (fun _ => rfl) fun _ => .of_eq rfl) fun _ => h.busy_holds _
  · refine holds_bind h.admits.stale_holds fun _ => holds_ite (h.busy_holds _) ?_
    exact holds_pure _

theorem launchOnce_holds : F.Holds launchOnce := by
  unfold launchOnce
  refine holds_bind holds_self fun c => holds_ite (holds_pure _) ?_
  refine holds_bind h.launched fun _ => holds_ite (holds_pure _) ?_
  exact holds_bind h.admits.ready_holds fun _ => holds_ite (holds_pure _) (holds_pure _)

theorem enqueue_holds (text : String) : F.Holds (enqueue text) := by
  unfold enqueue
  refine holds_bind h.newId_holds fun _ => holds_bind (h.commit fun _ => rfl) fun _ => ?_
  refine holds_bind (h.change (fun _ => rfl) fun _ => .of_eq rfl) fun _ => ?_
  refine holds_bind (h.become_holds _) fun _ => ?_
  exact holds_bind (h.note_holds rfl) fun _ => holds_pure _

theorem refused_holds (why : String) : F.Holds (refused why) := by
  unfold refused
  refine holds_bind holds_self fun c => holds_ite ?_ (holds_ite (holds_pure _) ?_)
  · refine holds_bind (h.record (by rintro ⟨⟩) rfl) fun _ => holds_ite ?_ (holds_ite ?_ (holds_pure _))
    · exact holds_bind (h.change (fun _ => rfl) fun _ => .of_eq rfl) fun _ => holds_pure _
    · exact holds_bind (h.change (fun _ => rfl) fun _ => .of_eq rfl) fun _ => holds_pure _
  · refine holds_bind (h.record (by rintro ⟨⟩) rfl) fun _ => ?_
    exact holds_ite (holds_pure _) (holds_pure _)

/-- Every call that is not marked stays within the frame. -/
theorem run_holds {call : Call} (plain : call.isMarked = false) : F.Holds (run call) := by
  cases call with
  | launchOnce => exact h.launchOnce_holds
  | enqueue text => exact h.enqueue_holds text
  | dispatchQueued => exact h.admits.dispatchQueued_holds
  | flush => exact h.admits.flush_holds
  | refused why => exact h.refused_holds why
  | attempt why next => exact h.admits.of_unmanned.attempt_holds why next
  | failed provider kind => exact h.failed_holds provider kind
  | recoverContext delivered => exact h.recoverContext_holds delivered
  | startHandoff => exact holds_bind holds_self fun _ => holds_pure _
  | recoveryMessage stage text fresh => exact h.recoveryMessage_holds stage text fresh
  | recoveryEnded end_ => exact h.recoveryEnded_holds end_
  | recoveryFailed why => exact h.recoveryFailed_holds why
  | resumeRecovery => exact h.resumeRecovery_holds
  | finishTurn => exact h.finishTurn_holds
  | settleIdle => exact h.settleIdle_holds
  | publish => exact h.publish
  | _ => cases plain

end Tends
end SiliconOmni
