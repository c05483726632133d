import SiliconOmni.Chat.Quiet

/-! What the conductor does to runners and to its dial stays within every frame that admits the
steps it is made of; in particular it is quiet. -/
namespace SiliconOmni
open Lib Frame

/-- The chat less its parked runners and its dial. -/
def Chat.dialed (c : Chat) : Chat :=
  { c with parked := [], current := none, announced := [], benched := [] }

/-- The chat less everything about any runner, but for the turns they last owned. -/
def Chat.unmanned (c : Chat) : Chat :=
  { c.dialed with
    runner := none, runnerEpoch := none, nextRunnerEpoch := 0, syncCeiling := none }

/-- The attached runner and its epoch, the parked ones, and the next epoch to be drawn. -/
def Chat.crew (c : Chat) : Option Handle × Option ℕ × Entries Parked × ℕ :=
  (c.runner, c.runnerEpoch, c.parked, c.nextRunnerEpoch)

/-- `d` has no runner that `c` has not, and each of them is where it was in `c`. -/
structure Chat.Fewer (c d : Chat) : Prop where
  seat : d.runner = none ∨ (d.runner = c.runner ∧ d.runnerEpoch = c.runnerEpoch)
  lot : ∀ entry ∈ d.parked, entry ∈ c.parked
  next : d.nextRunnerEpoch = c.nextRunnerEpoch

namespace Chat.Fewer
variable {c d e : Chat}

theorem of_eq (h : d.crew = c.crew) : c.Fewer d := by
  simp only [Chat.crew, Prod.mk.injEq] at h
  obtain ⟨runner, epoch, parked, next⟩ := h
  exact ⟨.inr ⟨runner, epoch⟩, fun entry member => parked ▸ member, next⟩

/-- Without the attached runner. -/
theorem detach (h : c.Fewer d) (runner : e.runner = none) (parked : e.parked = d.parked)
    (next : e.nextRunnerEpoch = d.nextRunnerEpoch) : c.Fewer e :=
  ⟨.inl runner, fun entry member => h.lot entry (parked ▸ member), next.trans h.next⟩

/-- Without the parked ones. -/
theorem clear (h : c.Fewer d) : c.Fewer { d with parked := [] } :=
  ⟨h.seat, by simp, h.next⟩

/-- Without one of the parked runners. -/
theorem remove (h : c.Fewer d) (name : String) :
    c.Fewer { d with parked := d.parked.remove name } :=
  ⟨h.seat, fun entry member => h.lot entry (List.mem_filter.mp member).1, h.next⟩

end Chat.Fewer

/-- The frames that allow questions, quiet observations, changes that `view` does not show and that
bring in no runner, new metadata about native sessions, and bookkeeping in the log. -/
structure Admits {β : Type} (F : Frame Conf) (view : Chat → β) : Prop where
  asks {α : Type} (question : Env → ℕ → α) : F.Holds (asks question)
  notes {os : List Obs} (quiet : ∀ o ∈ os, o.isQuiet) : F.Holds (notes os)
  change {f : Chat → Chat} (same : ∀ c, view (f c) = view c) (fewer : ∀ c : Chat, c.Fewer (f c)) :
    F.Holds (change f)
  settle {f : Chat → Snapshot → Snapshot} (same : ∀ c state, (f c state).seq = state.seq) :
    F.Holds (SiliconOmni.change fun c => c.settle (f c))
  tryCommit {edit : MetaData → MetaData} (natives : OnlyNatives edit) : F.Holds (tryCommit edit)
  halt {α : Type} (action error : String) :
    F.Holds (persistenceFailed action error : Conductor α)
  record {event : Event} (book : event.isBookkeeping) (turn : event.turn = -1) :
    F.Holds (record event)

/-- Such a frame that also allows runners to be built, attached and put aside. -/
structure Mans (F : Frame Conf) : Prop extends Admits F Chat.unmanned where
  man {f : Chat → Chat} (same : ∀ c, (f c).unmanned = c.unmanned) : F.Holds (SiliconOmni.change f)
  build (s : Conf) : F.live s { s with built := s.built + 1 }
  remember : F.Holds rememberRunnerTurn
  number (epoch : ℕ) : F.Holds (SiliconOmni.change fun c =>
    { c with
      nextRunnerEpoch := epoch + 1
      epochTurns := Function.update c.epochTurns epoch (some c.turn) })

namespace Admits
variable {β γ : Type} {F : Frame Conf} {view : Chat → β}

/-- A frame that allows changes a coarse view does not show allows those a finer one does not. -/
theorem finer {f : β → γ} (h : Admits F fun c => f (view c)) : Admits F view :=
  { h with change := fun same => h.change fun c => congrArg f (same c) }

theorem of_unmanned (h : Admits F Chat.unmanned) : Admits F Chat.dialed :=
  h.finer (f := fun c =>
    { c with runner := none, runnerEpoch := none, nextRunnerEpoch := 0, syncCeiling := none })

theorem holds_self : F.Holds self := F.refl

section steps
variable (h : Admits F view)
include h

theorem note {o : Obs} (quiet : o.isQuiet) : F.Holds (note o) := by
  have one : F.Holds (SiliconOmni.notes [o]) := h.notes (by simpa using quiet)
  exact one

theorem stop_holds (runner : Handle) : F.Holds (stop runner) := h.note rfl

theorem stopAll_holds (runners : List Handle) : F.Holds (stopAll runners) := h.notes (by
  intro o ho
  obtain ⟨_, _, rfl⟩ := List.mem_map.mp (List.mem_reverse.mp ho)
  rfl)

theorem become_holds (status : Status) : F.Holds (become status) :=
  h.settle (f := fun _ state => { state with status }) fun _ _ => rfl

theorem refresh_holds : F.Holds refresh := h.settle fun _ _ => rfl

theorem commit_holds {action : String} {edit : MetaData → MetaData} (natives : OnlyNatives edit) :
    F.Holds (commit action edit) := by
  unfold commit
  refine holds_bind (h.tryCommit natives) fun answer => ?_
  split
  · exact holds_pure _
  · exact h.halt _ _

theorem blocked_holds (why : String) : F.Holds (blocked why) := by
  unfold blocked
  exact holds_bind (h.record rfl rfl) fun _ => h.become_holds _

theorem runnerAlive_holds : F.Holds runnerAlive := by
  unfold runnerAlive
  refine holds_bind holds_self fun c => ?_
  split
  · exact h.asks _
  · exact holds_pure _

theorem tunable_holds (rung : Pick) : F.Holds (tunable rung) := by
  unfold tunable
  refine holds_bind holds_self fun c => ?_
  split
  · exact holds_pure _
  · refine holds_bind h.runnerAlive_holds fun alive => ?_
    exact holds_ite (holds_pure _) (holds_pure _)

theorem retune_holds (runner : Handle) (rung : Pick) : F.Holds (retune runner rung) := by
  unfold retune
  refine holds_bind (h.asks _) fun took => ?_
  exact holds_bind (h.note rfl) fun _ => holds_pure _

theorem markTold_holds : F.Holds markTold := by
  unfold markTold
  refine holds_bind holds_self fun c => ?_
  split
  · exact h.commit_holds (markSynced_onlyNatives _ _)
  · exact holds_pure _

theorem dismiss_holds (runner : Handle) : F.Holds (dismiss runner) := by
  unfold dismiss
  refine holds_bind holds_self fun c => ?_
  extract_lets stopping going
  have hstopping : ∀ r, F.Holds (stopping r) := fun _ => h.stop_holds _
  have hgoing : ∀ r, F.Holds (going r) := by
    intro r
    refine holds_bind (h.asks _) fun native => holds_ite ?_ (hstopping ⟨⟩)
    refine holds_bind (h.tryCommit (bind_onlyNatives _ _)) fun bound => ?_
    split
    · exact hstopping ⟨⟩
    · refine holds_bind (h.stop_holds _) fun _ => ?_
      exact holds_bind (h.halt _ _) fun _ => hstopping ⟨⟩
  exact holds_ite (holds_bind (h.note rfl) fun _ => hgoing ⟨⟩) (hgoing ⟨⟩)

variable [Host]

theorem rung_holds : F.Holds rung := by
  unfold rung
  refine holds_bind holds_self fun c => ?_
  exact holds_bind (h.asks _) fun registry => holds_pure _

theorem stale_holds : F.Holds stale := by
  unfold stale
  refine holds_bind holds_self fun c => ?_
  split
  · exact holds_pure _
  · refine holds_bind h.rung_holds fun rung => ?_
    split
    · exact holds_bind holds_self fun c => holds_pure _
    · exact holds_pure _

theorem ready_holds : F.Holds ready := by
  unfold ready
  refine holds_bind h.runnerAlive_holds fun alive => holds_ite ?_ (holds_pure _)
  exact holds_bind h.stale_holds fun stale => holds_pure _

theorem flush_holds : F.Holds flush := by
  unfold flush
  refine holds_bind h.ready_holds fun ready => holds_ite (holds_pure _) ?_
  refine holds_bind holds_self fun c => holds_ite ?_ (holds_pure _)
  refine holds_bind h.runnerAlive_holds fun alive => holds_ite ?_ (holds_pure _)
  exact holds_bind (h.blocked_holds _) fun _ => holds_pure _

theorem dispatchQueued_holds : F.Holds dispatchQueued := by
  unfold dispatchQueued
  refine holds_bind h.runnerAlive_holds fun alive => holds_ite ?_ (holds_pure _)
  refine holds_bind holds_self fun c => holds_ite (holds_pure _) ?_
  exact holds_bind h.stale_holds fun stale => holds_ite (holds_pure _) (holds_pure _)

end steps

section dial
variable (h : Admits F Chat.dialed)
include h

theorem retuneInPlace_holds (rung : Pick) : F.Holds (retuneInPlace rung) := by
  unfold retuneInPlace
  refine holds_bind (h.tunable_holds rung) fun tunable => holds_ite ?_ (holds_pure _)
  refine holds_bind holds_self fun c => ?_
  split
  · exact holds_pure _
  · refine holds_bind (h.retune_holds _ _) fun took => holds_ite ?_ (holds_pure _)
    refine holds_bind (h.change (fun _ => rfl) fun _ => .of_eq rfl) fun _ => ?_
    refine holds_bind (h.record rfl rfl) fun _ => ?_
    exact holds_bind (h.refresh_holds) fun _ => holds_pure _

theorem movedOn_holds (name why : String) : F.Holds (movedOn name why) := by
  unfold movedOn
  refine holds_bind holds_self fun c => ?_
  extract_lets rest
  have hrest : ∀ r, F.Holds (rest r) := fun r =>
    holds_bind holds_self fun c =>
      holds_bind (h.record rfl rfl) fun _ => h.refresh_holds
  split
  · refine holds_bind (h.change (fun _ => rfl) fun c => .remove (.of_eq rfl) _) fun _ => ?_
    exact holds_bind (h.stop_holds _) fun _ => hrest ⟨⟩
  · exact hrest ⟨⟩

theorem anyoneLeft_holds : F.Holds anyoneLeft := by
  unfold anyoneLeft
  refine holds_bind holds_self fun c => holds_ite (holds_pure _) (holds_ite ?_ ?_)
  · exact holds_bind (h.blocked_holds _) fun _ => holds_pure _
  · refine holds_bind (h.change (fun _ => rfl) fun _ => .of_eq rfl) fun _ => ?_
    refine holds_bind (h.refresh_holds) fun _ => ?_
    exact holds_bind (h.blocked_holds _) fun _ => holds_pure _

theorem sideline_holds (name why : String) : F.Holds (sideline name why) := by
  unfold sideline
  refine holds_bind holds_self fun c => holds_ite ?_ (holds_pure _)
  refine holds_bind (h.change (fun _ => rfl) fun _ => .of_eq rfl) fun _ => ?_
  exact holds_bind (h.movedOn_holds _ _) fun _ => h.anyoneLeft_holds

variable [Host]

theorem notStarted_holds (why err : String) (next : List Call) :
    F.Holds (notStarted why err next) := by
  unfold notStarted
  refine holds_bind h.rung_holds fun answer => ?_
  refine holds_bind holds_self fun c => holds_ite ?_ ?_
  · exact holds_bind (h.blocked_holds _) fun _ => holds_pure _
  · refine holds_bind (h.record rfl rfl) fun _ => ?_
    refine holds_bind (h.sideline_holds _ _) fun left => ?_
    exact holds_ite (holds_pure _) (holds_pure _)

theorem attempt_holds (why : String) (next : List Call) : F.Holds (attempt why next) := by
  unfold attempt
  refine holds_bind h.rung_holds fun answer => ?_
  split
  · refine holds_bind (h.retuneInPlace_holds _) fun took => ?_
    exact holds_ite (holds_pure _) (holds_pure _)
  · exact h.notStarted_holds _ _ _

end dial
end Admits

namespace Mans
variable {F : Frame Conf} (h : Mans F)
include h
open Admits

theorem park_holds (runner : Handle) : F.Holds (park runner) := by
  unfold park
  refine holds_bind holds_self fun c => ?_
  refine holds_bind (h.man fun _ => rfl) fun _ => ?_
  refine holds_bind (h.asks _) fun native => ?_
  refine holds_bind holds_self fun d => holds_ite ?_ ?_
  · refine holds_bind (h.stop_holds _) fun _ => ?_
    refine holds_bind (h.tryCommit (bind_onlyNatives _ _)) fun bound => ?_
    refine holds_bind (h.tryCommit (markSynced_onlyNatives _ _)) fun marked => ?_
    split
    · refine holds_bind (h.man fun _ => rfl) fun _ => ?_
      exact holds_bind (h.record rfl rfl) fun _ => holds_pure _
    · exact h.halt _ _
    · exact h.halt _ _
  · extract_lets rest
    have hrest : ∀ r, F.Holds (rest r) := by
      intro r
      refine holds_bind holds_self fun d => holds_bind (h.asks _) fun parkable => ?_
      split
      · refine holds_bind (h.note rfl) fun _ => ?_
        exact h.man fun _ => rfl
      · exact h.stop_holds _
    refine holds_ite ?_ (hrest ⟨⟩)
    refine holds_bind (h.tryCommit (bind_onlyNatives _ _)) fun bound => ?_
    split
    · exact hrest ⟨⟩
    · refine holds_bind (h.stop_holds _) fun _ => ?_
      exact holds_bind (h.halt _ _) fun _ => hrest ⟨⟩

theorem unpark_holds (provider : String) : F.Holds (unpark provider) := by
  unfold unpark
  refine holds_bind holds_self fun c => ?_
  split
  · exact holds_pure _
  · refine holds_bind (h.man fun _ => rfl) fun _ => ?_
    refine holds_bind (h.asks _) fun alive => holds_ite ?_ (holds_pure _)
    refine holds_bind holds_self fun d => holds_bind (h.asks _) fun took => ?_
    refine holds_bind holds_self fun _ => ?_
    refine holds_bind (h.note rfl) fun _ => holds_ite ?_ ?_
    · refine holds_bind (h.asks _) fun seeded => holds_bind (h.note rfl) fun _ => ?_
      refine holds_ite (holds_bind holds_self fun d => ?_) (holds_pure _)
      refine holds_bind (h.tryCommit (markSynced_onlyNatives _ _)) fun marked => ?_
      split
      · exact holds_pure _
      · refine holds_bind (h.stop_holds _) fun _ => ?_
        exact holds_bind (h.halt _ _) fun _ => holds_pure _
    · exact holds_bind (h.stop_holds _) fun _ => holds_pure _

theorem takeParked_holds (provider : String) (wanted : Signature) :
    F.Holds (takeParked provider wanted) := by
  unfold takeParked
  refine holds_bind holds_self fun c => ?_
  split
  · exact holds_pure _
  · refine holds_ite ?_ ?_
    · refine holds_bind (h.man fun _ => rfl) fun _ => ?_
      exact holds_bind (h.stop_holds _) fun _ => holds_pure _
    · exact holds_bind (h.unpark_holds provider) fun _ => holds_pure _

theorem recordLaunch_holds (rung : Pick) (native : String) (fresh : Bool) :
    F.Holds (recordLaunch rung native fresh) := by
  unfold recordLaunch
  refine holds_bind (h.record rfl rfl) fun _ => holds_ite ?_ (holds_pure _)
  exact holds_bind (h.record rfl rfl) fun _ => holds_pure _

theorem recordSwitch_holds (previous : String) (rung : Pick) :
    F.Holds (recordSwitch previous rung) := by
  unfold recordSwitch
  refine holds_ite ?_ (holds_pure _)
  refine holds_bind (h.man fun _ => rfl) fun _ => ?_
  refine holds_ite ?_ (holds_pure _)
  exact holds_bind (h.record rfl rfl) fun _ => holds_pure _

theorem adopt_holds (runner : Handle) (epoch : Option ℕ) (rung : Pick) (fresh : Bool) :
    F.Holds (adopt runner epoch rung fresh) := by
  unfold adopt
  refine holds_bind (h.asks _) fun native => holds_bind (h.asks _) fun seeded => ?_
  refine holds_bind (h.note rfl) fun _ => holds_bind (h.note rfl) fun _ => ?_
  refine holds_bind (h.man fun _ => rfl) fun _ => ?_
  refine holds_bind h.remember fun _ => ?_
  refine holds_bind (h.man fun _ => rfl) fun _ => ?_
  refine holds_bind (h.commit_holds (bind_onlyNatives _ _)) fun _ => ?_
  extract_lets rest
  have hrest : ∀ r, F.Holds (rest r) := fun r =>
    holds_bind (h.recordLaunch_holds _ _ _) fun _ => h.refresh_holds
  refine holds_ite (holds_bind holds_self fun c => ?_) (hrest ⟨⟩)
  exact holds_bind (h.commit_holds (markSynced_onlyNatives _ _)) fun _ => hrest ⟨⟩

variable [Host]

theorem bringUp_holds (rung : Pick) (config : Config) (nativeId : String) (since : ℤ) :
    F.Holds (bringUp rung config nativeId since) := by
  unfold bringUp
  refine holds_bind holds_self fun c => ?_
  refine holds_bind (h.number _) fun _ => ?_
  refine holds_bind holds_get fun s => holds_ite ?_ (holds_pure _)
  refine holds_bind (fun t => h.build t) fun runner => ?_
  refine holds_bind holds_self fun d => holds_bind (h.asks _) fun answer => ?_
  split
  · exact holds_bind holds_self fun _ => holds_bind (h.note rfl) fun _ => holds_pure _
  · exact holds_bind holds_self fun _ => holds_bind (h.note rfl) fun _ => holds_pure _

theorem launchFresh_holds (rung : Pick) (native : Native) : F.Holds (launchFresh rung native) := by
  unfold launchFresh
  refine holds_bind holds_self fun c => ?_
  refine holds_bind (h.bringUp_holds _ _ _ _) fun answer => ?_
  split
  · exact holds_pure _
  · refine holds_bind (h.asks _) fun known => holds_ite ?_ ?_
    · refine holds_bind (h.stop_holds _) fun _ => holds_bind (h.asks _) fun now => ?_
      refine holds_bind (h.record rfl rfl) fun _ => ?_
      refine holds_bind (h.bringUp_holds _ _ _ _) fun again => ?_
      split
      · exact holds_pure _
      · exact holds_bind (h.adopt_holds _ _ _ _) fun _ => holds_pure _
    · exact holds_bind (h.adopt_holds _ _ _ _) fun _ => holds_pure _

theorem launch_holds (rung : Pick) : F.Holds (launch rung) := by
  unfold launch
  refine holds_bind holds_self fun c => ?_
  refine holds_bind (h.takeParked_holds _ _) fun kept => ?_
  split
  next kept epoch matches_ =>
    extract_lets rest
    have hrest : ∀ usable, F.Holds (rest usable) := by
      intro usable
      refine holds_ite ?_ (holds_bind (h.stop_holds _) fun _ => h.launchFresh_holds _ _)
      exact holds_bind (h.adopt_holds _ _ _ _) fun _ => holds_pure _
    refine holds_ite (holds_bind (holds_pure _) fun _ => hrest _) ?_
    exact holds_bind (h.retune_holds _ _) fun _ => hrest _
  next => exact h.launchFresh_holds _ _

theorem replace_holds (rung : Pick) : F.Holds (replace rung) := by
  unfold replace
  refine holds_bind holds_self fun c => ?_
  extract_lets previous rest
  have hrest : ∀ r, F.Holds (rest r) := fun r =>
    holds_bind (h.recordSwitch_holds _ _) fun _ => h.launch_holds rung
  split
  · refine holds_bind (h.man fun _ => rfl) fun _ => ?_
    exact holds_bind (h.park_holds _) fun _ => hrest ⟨⟩
  · exact hrest ⟨⟩

theorem attemptReplace_holds (rung : Pick) (why : String) (next : List Call) :
    F.Holds (attemptReplace rung why next) := by
  unfold attemptReplace
  refine holds_bind (h.replace_holds rung) fun answer => ?_
  split
  · exact holds_pure _
  · exact h.of_unmanned.notStarted_holds _ _ _

end Mans

section quiet
variable {β : Type} {view : Chat → β}

/-- Where nothing in the chat changes, whatever is blind to the files stays the same. -/
theorem quietly_admits (hb : Blind view) : Admits (quietly view) id where
  asks := asks_quiet
  notes := notes_quiet
  change := by
    intro f same _
    have same : ∀ c, f c = c := same
    exact change_quiet (fun c => congrArg view (same c)) (fun c => congrArg Chat.disk (same c))
      (fun c => congrArg Chat.sessionId (same c))
  settle _ := change_quiet (fun c => hb.state c _) (fun _ => rfl) (fun _ => rfl)
  tryCommit natives := tryCommit_quiet hb natives.keepsMessages
  halt := persistenceFailed_quiet
  record book _ := record_quiet hb book

theorem quietly_seated : Admits (quietly Chat.seated) Chat.dialed where
  asks := asks_quiet
  notes := notes_quiet
  change := by
    intro f same _
    have view (c : Chat) : (f c).dialed.seated = c.dialed.seated := congrArg Chat.seated (same c)
    have disk (c : Chat) : (f c).dialed.disk = c.dialed.disk := congrArg Chat.disk (same c)
    have session (c : Chat) : (f c).dialed.sessionId = c.dialed.sessionId :=
      congrArg Chat.sessionId (same c)
    exact change_quiet view disk session
  settle _ := change_quiet (fun _ => rfl) (fun _ => rfl) (fun _ => rfl)
  tryCommit natives := tryCommit_quiet Chat.seated_blind natives.keepsMessages
  halt := persistenceFailed_quiet
  record book _ := record_quiet Chat.seated_blind book

theorem quietly_man {f : Chat → Chat} (same : ∀ c, (f c).unmanned = c.unmanned) :
    (quietly Chat.aside).Holds (change f) := by
  have view (c : Chat) : (f c).unmanned.aside = c.unmanned.aside := congrArg Chat.aside (same c)
  have disk (c : Chat) : (f c).unmanned.disk = c.unmanned.disk := congrArg Chat.disk (same c)
  have session (c : Chat) : (f c).unmanned.sessionId = c.unmanned.sessionId :=
    congrArg Chat.sessionId (same c)
  exact change_quiet view disk session

theorem quietly_aside : Mans (quietly Chat.aside) where
  asks := asks_quiet
  notes := notes_quiet
  change same _ := quietly_man same
  man := quietly_man
  settle _ := change_quiet (fun _ => rfl) (fun _ => rfl) (fun _ => rfl)
  tryCommit natives := tryCommit_quiet Chat.aside_blind natives.keepsMessages
  halt := persistenceFailed_quiet
  record book _ := record_quiet Chat.aside_blind book
  build _ := ⟨rfl, Quiet.of_disk rfl rfl (Nat.le_succ _) rfl ⟨[], rfl, by simp⟩⟩
  remember := change_quiet (fun _ => rfl) (fun _ => rfl) (fun _ => rfl)
  number _ := change_quiet (fun _ => rfl) (fun _ => rfl) (fun _ => rfl)

end quiet
end SiliconOmni
