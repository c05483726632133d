import SiliconOmni.Chat.Calls

/-! Each call does one of the things it can do. -/
namespace SiliconOmni
open Lib Frame

section
variable {α : Type} {s : Conf}

theorem Still.of_same {t : Conf} (place : t.chat.place = s.chat.place)
    (disk : t.chat.disk = s.chat.disk) (ids : t.ids = s.ids) (built : t.built = s.built)
    (session : t.chat.sessionId = s.chat.sessionId) (trace : t.trace = s.trace) : Still s t :=
  ⟨place, Quiet.of_disk disk ids built.ge session ⟨[], trace, by simp⟩⟩

/-- What keeps the place and is quiet leaves the conductor still, or the files as they were. -/
theorem wp_still {m : Conductor α} (h : (quietly Chat.place).Holds m) {Q : α → Conf → Prop}
    {H : Halt → Conf → Prop} (hQ : ∀ a t, Still s t → Q a t)
    (hH : ∀ e t, Quiet s t → H e t) : wp m Q H s :=
  h.wp (fun a t ht => hQ a t ⟨ht.1, ht.2⟩) hH

theorem placed : Admits (quietly Chat.place) id := quietly_admits Chat.place_blind

theorem seated_place {m : Conductor α} (h : (quietly Chat.seated).Holds m) :
    (quietly Chat.place).Holds m :=
  coarser h Chat.place

theorem aside_desk {m : Conductor α} (h : (quietly Chat.aside).Holds m) :
    (quietly Chat.desk).Holds m :=
  coarser h Chat.desk

theorem publish_still : Still s { s with
    trace := (s.chat.unpublished.map Obs.published).reverse ++ s.trace
    chat := { s.chat with unpublished := [] } } := by
  refine ⟨rfl, Quiet.of_disk rfl rfl le_rfl rfl ⟨_, rfl, ?_⟩⟩
  intro o ho
  obtain ⟨_, _, rfl⟩ := List.mem_map.mp (List.mem_reverse.mp ho)
  rfl

end

section
variable [Host] {s : Conf}

theorem notStarted_calls (why err : String) (next : List Call) :
    wp (notStarted why err next) (fun calls _ => calls = [] ∨ calls = [.attempt why next])
      (fun _ _ => True) s := by
  unfold notStarted
  rw [wp_bind]
  refine (placed.rung_holds : (quietly Chat.place).Holds rung).wp (fun answer t _ => ?_) (fun _ _ _ => trivial)
  simp only [wp_bind, wp_self]
  rw [wp_ite]
  constructor
  · intro _
    rw [wp_bind]
    exact wp_still (placed.blocked_holds _) (fun _ _ _ => .inl rfl) fun _ _ _ => trivial
  · intro _
    rw [wp_bind]
    refine wp_still (record_quiet Chat.place_blind rfl) (fun _ _ _ => ?_) fun _ _ _ => trivial
    rw [wp_bind]
    refine wp_still (seated_place (quietly_seated.sideline_holds _ _)) (fun left _ _ => ?_) fun _ _ _ => trivial
    cases left
    · exact .inl rfl
    · exact .inr rfl

theorem launchOnce_ran :
    wp launchOnce (fun calls t => Ran s .launchOnce calls t) (fun _ t => Died s .launchOnce t)
      s := by
  unfold launchOnce
  simp only [wp_bind, wp_self]
  split
  · exact .moved (.pause rfl) (.refl s)
  · have hs : Still s { s with chat := { s.chat with launchedOnce := true } } :=
      .of_same rfl rfl rfl rfl rfl rfl
    simp only [wp_bind, wp_change]
    split
    next hr => exact .moved (.resume hr) hs
    next hr =>
      have idle : s.chat.recovery = none := by simpa using hr
      rw [wp_bind]
      refine wp_still placed.ready_holds (fun ready t ht => ?_) fun _ t ht => ?_
      · cases ready
        · exact .moved (.start idle) (hs.trans ht)
        · exact .moved .launch (hs.trans ht)
      · exact .quietly (hs.quiet.trans ht).ends

theorem dispatchQueued_ran :
    wp dispatchQueued (fun calls t => Ran s .dispatchQueued calls t)
      (fun _ t => Died s .dispatchQueued t) s := by
  unfold dispatchQueued
  rw [wp_bind]
  refine wp_still placed.runnerAlive_holds (fun alive t ht => ?_) fun _ t ht => .quietly ht.ends
  rw [wp_ite]
  constructor
  · intro _
    simp only [wp_bind, wp_self]
    rw [wp_ite]
    constructor
    · exact fun _ => .moved .flush ht
    · intro _
      rw [wp_bind]
      refine wp_still placed.stale_holds (fun stale u hu => ?_) fun _ u hu => ?_
      · cases stale
        · exact .moved .flush (ht.trans hu)
        · exact .moved (.bring _) (ht.trans hu)
      · exact .quietly (ht.quiet.trans hu).ends
  · exact fun _ => .moved (.bring _) ht

theorem flush_ran :
    wp flush (fun calls t => Ran s .flush calls t) (fun _ t => Died s .flush t) s := by
  unfold flush
  rw [wp_bind]
  refine wp_still placed.ready_holds (fun ready t ht => ?_) fun _ t ht => .quietly ht.ends
  rw [wp_ite]
  constructor
  · exact fun _ => .moved .deliver ht
  · intro _
    simp only [wp_bind, wp_self]
    rw [wp_ite]
    constructor
    · intro _
      rw [wp_bind]
      refine wp_still placed.runnerAlive_holds (fun alive u hu => ?_) fun _ u hu => ?_
      · rw [wp_ite]
        constructor
        · intro _
          rw [wp_bind]
          refine wp_still (placed.blocked_holds _) (fun _ v hv => ?_) fun _ v hv => ?_
          · exact .moved (.pause rfl) (ht.trans (hu.trans hv))
          · exact .quietly (ht.quiet.trans (hu.quiet.trans hv)).ends
        · exact fun _ => .moved (.pause rfl) (ht.trans hu)
      · exact .quietly (ht.quiet.trans hu).ends
    · exact fun _ => .moved (.pause rfl) ht

theorem notStarted_ran {why err : String} {next : List Call} {r : Conf} {call : Call}
    (h : ∀ calls t, (calls = [] ∨ calls = [.attempt why next]) → Still s t → Ran r call calls t)
    (hH : ∀ t, Quiet s t → Died r call t) :
    wp (notStarted why err next) (fun calls t => Ran r call calls t) (fun _ t => Died r call t)
      s := by
  have hq := seated_place (quietly_seated.notStarted_holds why err next) s
  exact wp_mono (wp_and (notStarted_calls why err next) hq)
    (fun calls t ht => h calls t ht.1 ⟨ht.2.1, ht.2.2⟩) fun _ t ht => hH t ht.2

theorem attempt_ran (why : String) (next : List Call) :
    wp (attempt why next) (fun calls t => Ran s (.attempt why next) calls t)
      (fun _ t => Died s (.attempt why next) t) s := by
  unfold attempt
  rw [wp_bind]
  refine wp_still placed.rung_holds (fun answer t ht => ?_) fun _ t ht => .quietly ht.ends
  split
  · rw [wp_bind]
    refine wp_still (seated_place (quietly_seated.retuneInPlace_holds _)) (fun took u hu => ?_) fun _ u hu => ?_
    · cases took
      · exact .moved (.replace _) (ht.trans hu)
      · exact .moved .proceed (ht.trans hu)
    · exact .quietly (ht.quiet.trans hu).ends
  · refine notStarted_ran (fun calls u hc hu => ?_) fun u hu => ?_
    · rcases hc with rfl | rfl
      · exact .moved (.pause rfl) (ht.trans hu)
      · exact .moved .again (ht.trans hu)
    · exact .quietly (ht.quiet.trans hu).ends

theorem attemptReplace_ran (rung : Pick) (why : String) (next : List Call) :
    wp (attemptReplace rung why next) (fun calls t => Ran s (.replace rung why next) calls t)
      (fun _ t => Died s (.replace rung why next) t) s := by
  unfold attemptReplace
  rw [wp_bind]
  refine (aside_desk (quietly_aside.replace_holds rung)).wp (fun answer t ht => ?_) fun _ t ht =>
    .quietly ht.ends
  split
  · exact .replaced (.inl rfl) ht.1 ht.2
  · refine notStarted_ran (fun calls u hc hu => ?_) fun u hu => ?_
    · exact .replaced (.inr hc) (hu.desk.trans ht.1) (ht.2.trans hu.quiet)
    · exact .quietly (ht.2.trans hu).ends

theorem applyChange_quiet (change : Change) :
    (quietly Chat.place).Holds (applyChange change) := by
  have commit (key : String) (value : Value) (action : String) :
      (quietly Chat.place).Holds (saveSetting key value action) :=
    commit_quiet Chat.place_blind (setSetting_keepsMessages _ _)
  cases change <;> unfold applyChange
  case cwd path =>
    refine holds_bind self_quiet fun c => holds_bind (commit _ _ _) fun _ => ?_
    exact holds_bind (change_quiet (fun _ => rfl) (fun _ => rfl) (fun _ => rfl))
      fun _ => holds_pure _
  all_goals
    refine holds_bind (commit _ _ _) fun _ => ?_
    exact holds_bind (change_quiet (fun _ => rfl) (fun _ => rfl) (fun _ => rfl))
      fun _ => holds_pure _

theorem apply_ran (changes : List Change) :
    wp (apply changes) (fun calls t => Ran s (.apply changes) calls t)
      (fun _ t => Died s (.apply changes) t) s := by
  cases changes with
  | nil => exact .moved (.pause rfl) (.refl s)
  | cons change rest =>
    unfold apply
    rw [wp_bind]
    refine wp_still (applyChange_quiet change) (fun what t ht => ?_) fun _ t ht =>
      .quietly ht.ends
    simp only [wp_bind]
    refine wp_still (record_quiet Chat.place_blind rfl) (fun _ u hu => ?_) fun _ u hu => ?_
    · exact .moved .apply (ht.trans (hu.trans (.of_same rfl rfl rfl rfl rfl rfl)))
    · exact .quietly (ht.quiet.trans hu).ends

theorem settleIdle_ran :
    wp settleIdle (fun calls t => Ran s .settleIdle calls t) (fun _ t => Died s .settleIdle t)
      s := by
  unfold settleIdle
  simp only [wp_bind, wp_self]
  split
  · exact .moved (.pause rfl) (.of_same rfl rfl rfl rfl rfl rfl)
  · exact .moved (.pause rfl) (.refl s)

theorem startHandoff_ran :
    wp startHandoff (fun calls t => Ran s .startHandoff calls t)
      (fun _ t => Died s .startHandoff t) s := by
  unfold startHandoff
  simp only [wp_bind, wp_self, wp_pure]
  exact .moved (.handoff _) (.refl s)

theorem resumeRecovery_ran :
    wp resumeRecovery (fun calls t => Ran s .resumeRecovery calls t)
      (fun _ t => Died s .resumeRecovery t) s := by
  unfold resumeRecovery
  simp only [wp_bind, wp_self]
  split
  · exact .moved (.pause rfl) (.refl s)
  next recovery hr =>
    rw [wp_ite]
    constructor
    · exact fun _ => .moved .rotate (.refl s)
    intro hstage
    rw [wp_ite]
    constructor
    · exact fun _ => .moved .retry (.refl s)
    intro hgone
    have gone : ∀ message ∈ s.chat.outbox, message.id ≠ recovery.messageId := by
      simpa using hgone
    split
    · exact .moved .retry (.refl s)
    split
    · rw [wp_ite]
      constructor
      · exact fun _ => .moved .rotate (.refl s)
      · intro _
        simp only [wp_bind, wp_change]
        exact .refolded hr hstage gone
          (Took.gave ⟨rfl, rfl, rfl, (List.append_nil _).symm, rfl, rfl, rfl⟩ rfl)
    · exact .moved .rotate (.refl s)

theorem enqueue_ran (text : String) :
    wp (enqueue text) (fun calls t => Ran s (.enqueue text) calls t)
      (fun _ t => Died s (.enqueue text) t) s := by
  refine wp_enqueue (fun t ht => .enqueued (ht.gave rfl)) fun _ t ht => ?_
  rcases ht with ht | ht
  · exact .quietly (ht.after (s.drawn_later 1)).ends
  · exact .enqueued ht.ends

theorem deliver_ran :
    wp deliver (fun calls t => Ran s .deliver calls t) (fun _ t => Died s .deliver t) s := by
  refine wp_deliver (.moved (.pause rfl) (.refl s)) ?_ ?_ ?_ ?_
  · intro runner message rest why t delivering ht
    refine .moved (.refuse runner message rest why delivering) ⟨?_, ?_⟩
    · exact Prod.ext ht.desk ht.runner
    · refine ⟨⟨[], ?_, trivial, by simp⟩, ?_, ?_, ht.ids, ht.built.ge, ht.session,
        ⟨_, ht.trace, ?_⟩⟩
      · exact ht.log
      · exact congrArg MetaData.pending ht.data
      · exact congrArg MetaData.top ht.data
      · simp [Obs.isQuiet]
  · exact fun runner message rest t delivering ht => .written delivering (ht.gave rfl)
  · exact fun runner message rest delivery t delivering taken ht =>
      .delivered delivering taken (ht.gave rfl)
  · rintro runner message rest delivery e t delivering (ht | ht | ht)
    · exact .quietly ht.ends
    · exact .opened delivering ht.ends
    · exact .delivered delivering ht.ends

theorem refused_ran (why : String) :
    wp (refused why) (fun calls t => Ran s (.refused why) calls t)
      (fun _ t => Died s (.refused why) t) s := by
  have idle_of (h : ¬s.chat.recovery.isSome = true) : s.chat.recovery = none := by simpa using h
  unfold refused
  simp only [wp_bind, wp_self]
  rw [wp_ite]
  constructor
  · intro _
    rw [wp_bind]
    refine wp_still (record_quiet Chat.place_blind rfl) (fun _ t ht => ?_) fun _ t ht =>
      .quietly ht.ends
    have gave : Gave s { t with chat := { t.chat with turnFailed := some .contextLimit } }
        (s.turned { s.chat.desk with turnFailed := some .contextLimit } [] []) :=
      (Gave.of_still ht).turned (fun d => { d with turnFailed := some .contextLimit }) rfl rfl
        (Quiet.of_disk rfl rfl le_rfl rfl ⟨[], rfl, by simp⟩)
    rw [wp_ite]
    constructor
    · exact fun hr => .refusedFull hr gave
    intro hr
    rw [wp_ite]
    constructor
    · exact fun open_ => .refusedMidTurn (idle_of hr) open_ gave
    · exact fun between => .moved (.full (idle_of hr) (by simpa using between)) ht
  · intro _
    rw [wp_ite]
    constructor
    · exact fun hr => .moved (.abandon hr) (.refl s)
    · intro hr
      rw [wp_bind]
      refine wp_still (record_quiet Chat.place_blind rfl) (fun error t ht => ?_) fun _ t ht =>
        .quietly ht.ends
      rw [wp_ite]
      exact ⟨fun _ => .moved (.lostLogin (idle_of hr) _) ht,
        fun _ => .moved (.fail (idle_of hr) _ _) ht⟩

theorem absorb_ran (epoch : ℕ) (report : Report) :
    wp (absorb epoch report) (fun calls t => Ran s (.absorb epoch report) calls t)
      (fun _ t => Died s (.absorb epoch report) t) s := by
  refine wp_absorb ?_ ?_ ?_ ?_ ?_
  · intro t ht
    refine .moved (.pause rfl) ⟨Prod.ext ht.desk ht.runner, ?_⟩
    exact ⟨⟨[], ht.log, trivial, by simp⟩, congrArg MetaData.pending ht.data,
      congrArg MetaData.top ht.data, ht.ids, ht.built.ge, ht.session, [], ht.trace, by simp⟩
  · intro e t he hne ht
    refine .late he (fun h => hne (by rw [he]; exact congrArg ReportType.eventType h)) ?_
    exact ⟨ht.desk, ht.runner, congrArg MetaData.pending ht.data, congrArg MetaData.top ht.data,
      ⟨[], by rw [List.append_nil]; exact ht.log, trivial, by simp⟩, ⟨[], ht.trace, by simp⟩,
      ht.ids, ht.built.ge, ht.session⟩
  · intro e calls desk obs t he attached hne hr ht
    refine .reacted he attached (fun h => hne (by rw [he]; exact congrArg ReportType.eventType h))
      hr ?_
    exact ⟨ht.desk, ht.runner, congrArg MetaData.pending ht.data, congrArg MetaData.top ht.data,
      ⟨[], by rw [List.append_nil]; exact ht.log, trivial, by simp⟩, ⟨[], ht.trace, by simp⟩,
      ht.ids, ht.built.ge, ht.session⟩
  · intro message rest opening t _ attached confirming ht
    refine .confirmed attached confirming ?_
    exact ⟨ht.desk, ht.runner, congrArg MetaData.pending ht.data, congrArg MetaData.top ht.data,
      ⟨[], by rw [List.append_nil]; exact ht.log, trivial, by simp⟩, ⟨[], ht.trace, by simp⟩,
      ht.ids, ht.built.ge, ht.session⟩
  · rintro e t (⟨late, other, ht | ht⟩ | ⟨attached, message, rest, opening, confirming, ht | ht | ht⟩)
    · exact .quietly ht.ends
    · exact .heard other ht.ends
    · exact .quietly ht.ends
    · exact .confirming confirming ht.ends attached
    · exact .confirmed confirming ht.ends attached

/-- However closing a turn halts, it leaves one of the files it may leave. -/
theorem closeTurn_died {call : Call} {provider : String} {extra : Fields} {retry : Bool} {t : Conf}
    (told : retry = true → call.givesUp) (ht : let drawn := s.drawn (s.retries retry).length
      Leaves drawn t s.chat.disk ∨
      Leaves drawn t (s.chat.disk.edit (·.retry (s.retries retry))) ∨
      s.chat.inTurn ∧ s.chat.turnRecorded ∧
        Leaves drawn t ((s.chat.disk.edit (·.retry (s.retries retry))).append
          (s.chat.closing provider extra))) : Died s call t := by
  rcases ht with ht | ht | ⟨-, recorded, ht⟩
  · exact .quietly (ht.after (s.drawn_later _)).ends
  · exact .retried told ht.ends
  · exact .closing told recorded ht.ends

/-- After a turn is closed, what happens to its provider changes nothing else. -/
theorem closed_ran (why : String) {m : Conductor (List Call)} {call : Call} {provider : String}
    {extra : Fields} {retry : Bool}
    (call_eq : (∃ p k, call = .failed p k) ∨ ∃ p, call = .unauthenticated p)
    (plain : extra.lookup "late" = none) (hm : (quietly Chat.place).Holds m)
    (hcalls : ∀ s, wp m (fun calls _ => calls = [] ∨ calls = [.attempt why [.flush]])
      (fun _ _ => True) s) :
    wp (closeTurn provider extra retry)
      (fun _ => wp m (fun calls t => Ran s call calls t) (fun _ t => Died s call t))
      (fun _ t => Died s call t) s := by
  have told : retry = true → call.givesUp := by
    rcases call_eq with ⟨_, _, rfl⟩ | ⟨_, rfl⟩ <;> exact fun _ => rfl
  refine wp_closeTurn (fun t ht => ?_) fun _ t ht => closeTurn_died told ht
  refine wp_mono (wp_and (hcalls t) (hm t)) (fun calls u hu => ?_) fun _ u hu => ?_
  · exact .closed call_eq hu.1 ((ht.gave rfl).then_ ⟨hu.2.1, hu.2.2⟩) plain
  · exact .closed told (ht.gave rfl) hu.2.ends

theorem failed_ran (provider kind : String) :
    wp (failed provider kind) (fun calls t => Ran s (.failed provider kind) calls t)
      (fun _ t => Died s (.failed provider kind) t) s := by
  unfold failed
  simp only [wp_bind, wp_self]
  refine closed_ran "provider failed" (.inl ⟨_, _, rfl⟩) rfl ?_ ?_
  · refine holds_ite (holds_pure _) (holds_ite ?_ (holds_pure _))
    exact holds_bind (seated_place (quietly_seated.sideline_holds _ _)) fun left =>
      holds_ite (holds_pure _) (holds_pure _)
  · intro s
    split
    · exact .inl rfl
    split
    · rw [wp_bind]
      refine wp_still (seated_place (quietly_seated.sideline_holds _ _)) (fun left _ _ => ?_) fun _ _ _ => trivial
      cases left
      · exact .inl rfl
      · exact .inr rfl
    · exact .inr rfl

theorem unauthenticated_ran (provider : String) :
    wp (unauthenticated provider) (fun calls t => Ran s (.unauthenticated provider) calls t)
      (fun _ t => Died s (.unauthenticated provider) t) s := by
  unfold unauthenticated
  simp only [wp_bind, wp_self]
  refine closed_ran "provider lost its login" (.inr ⟨_, rfl⟩) rfl ?_ ?_
  · refine holds_ite (holds_pure _) (holds_ite (holds_pure _) ?_)
    refine holds_bind (commit_quiet Chat.place_blind (setSetting_keepsMessages _ _)) fun _ => ?_
    refine holds_bind (change_quiet (fun _ => rfl) (fun _ => rfl) (fun _ => rfl)) fun _ => ?_
    refine holds_bind (seated_place (quietly_seated.movedOn_holds _ _)) fun _ => ?_
    exact holds_bind (seated_place quietly_seated.anyoneLeft_holds) fun left =>
      holds_ite (holds_pure _) (holds_pure _)
  · intro s
    split
    · exact .inl rfl
    split
    · exact .inr rfl
    rw [wp_bind]
    refine wp_still (commit_quiet Chat.place_blind (setSetting_keepsMessages _ _))
      (fun _ _ _ => ?_) fun _ _ _ => trivial
    simp only [wp_bind, wp_change]
    refine wp_still (seated_place (quietly_seated.movedOn_holds _ _)) (fun _ _ _ => ?_) fun _ _ _ => trivial
    rw [wp_bind]
    refine wp_still (seated_place quietly_seated.anyoneLeft_holds) (fun left _ _ => ?_) fun _ _ _ => trivial
    cases left
    · exact .inl rfl
    · exact .inr rfl

theorem recoverContext_ran (delivered : Bool) :
    wp (recoverContext delivered) (fun calls t => Ran s (.recoverContext delivered) calls t)
      (fun _ t => Died s (.recoverContext delivered) t) s := by
  unfold recoverContext
  simp only [wp_bind, wp_self]
  apply wp_saveRecovery
  · intro t ht
    have failed : Gave s { t with chat := { t.chat with turnFailed := none } } _ :=
      (ht.gave rfl).turned (fun d => { d with turnFailed := none }) rfl rfl
        (Quiet.of_disk rfl rfl le_rfl rfl ⟨[], rfl, by simp⟩)
    split
    next runner hr =>
      have hrunner : s.chat.runner.isSome := by rw [hr]; rfl
      simp only [wp_bind, wp_change, wp_asks, wp_note]
      rw [wp_ite]
      constructor
      · intro took
        simp only [wp_bind, wp_change, wp_become]
        refine wp_still (record_quiet Chat.place_blind rfl) (fun _ u hu => ?_) fun _ u hu => ?_
        · refine .compacting (by rfl) hrunner (failed.turned
            (fun d => { d with compactionDeadline := true, inTurn := true }) hu.desk hu.runner ?_)
          refine Quiet.trans ?_ hu.quiet
          exact Quiet.of_disk rfl rfl le_rfl rfl ⟨[_], rfl, by simp [Obs.isQuiet]⟩
        · have hl := ht.leaves (by simp [Conf.saved]) rfl
          simp only [Conf.saved, List.append_nil] at hl
          refine .saved (by rfl) (hl.quietly (Quiet.trans ?_ hu))
          exact Quiet.of_disk rfl rfl le_rfl rfl ⟨[_], rfl, by simp [Obs.isQuiet]⟩
      · intro _
        refine .notCompacting (by rfl) (failed.turned id rfl rfl ?_)
        exact Quiet.of_disk rfl rfl le_rfl rfl ⟨[_], rfl, by simp [Obs.isQuiet]⟩
    next => exact .notCompacting (by rfl) failed
  · rintro e t (ht | ht)
    · exact .quietly ht.ends
    · exact .saved rfl ht.ends

/-- The parked runners are stopped with the turn. -/
theorem startClean_gave {Q : Unit → Conf → Prop} {H : Halt → Conf → Prop}
    (hQ : ∀ t provider extra, Gave s t (s.closed provider extra false) →
      extra.lookup "late" = none → Q () t)
    (hH : ∀ e t, (∀ call, Died s call t) → H e t) : wp startClean Q H s := by
  unfold startClean
  simp only [wp_bind, wp_self]
  refine wp_closeTurn (fun t ht => ?_) fun e t ht => hH e t fun _ => closeTurn_died (by simp) ht
  simp only [wp_bind, wp_self, wp_change, wp_stopAll]
  refine hQ _ _ _ ((ht.gave rfl).then_ ⟨rfl, Quiet.of_disk rfl rfl le_rfl rfl ⟨_, rfl, ?_⟩⟩) rfl
  intro o ho
  obtain ⟨_, _, rfl⟩ := List.mem_map.mp (List.mem_reverse.mp ho)
  rfl

theorem recoveryMessage_ran (stage : RecoveryStage) (text : String) (fresh : Bool) :
    wp (recoveryMessage stage text fresh)
      (fun calls t => Ran s (.recoveryMessage stage text fresh) calls t)
      (fun _ t => Died s (.recoveryMessage stage text fresh) t) s := by
  unfold recoveryMessage
  cases fresh with
  | true =>
    simp only [↓reduceIte, wp_bind]
    refine startClean_gave (fun u provider extra closed plain => ?_) fun _ t ht => ht _
    rw [wp_bind]
    refine wp_queueRecovery (fun t ht => ?_) fun _ t ht => ?_
    · exact .queuedFresh closed (ht.gave rfl) plain
    · rcases ht with ht | ht
      · exact .drawingFresh closed ht.ends
      · exact .queuedFresh closed ht.ends
  | false =>
    simp only [Bool.false_eq_true, ↓reduceIte, wp_bind]
    refine wp_queueRecovery (fun t ht => ?_) fun _ t ht => ?_
    · exact .queued (ht.gave rfl)
    · rcases ht with ht | ht
      · exact .drawing ht.ends
      · exact .queued ht.ends

theorem recoveryFailed_ran (why : String) :
    wp (recoveryFailed why) (fun calls t => Ran s (.recoveryFailed why) calls t)
      (fun _ t => Died s (.recoveryFailed why) t) s := by
  unfold recoveryFailed
  simp only [wp_bind, wp_self]
  refine wp_closeTurn (fun u hu => ?_) fun _ t ht => closeTurn_died (by simp) ht
  have closed := hu.gave rfl
  rw [wp_bind]
  refine wp_saveRecovery (fun t ht => ?_) fun _ t ht => ?_
  · simp only [wp_bind]
    refine wp_still (record_quiet Chat.place_blind rfl) (fun _ v hv => ?_) fun _ v hv => ?_
    · exact .gaveUp closed
        ((ht.gave rfl).then_ (hv.trans (.of_same rfl rfl rfl rfl rfl rfl))) rfl
    · have hl := ht.leaves (by simp [Conf.saved]) rfl
      simp only [Conf.saved, List.append_nil] at hl
      exact .gaveUp closed (hl.quietly hv)
  · rcases ht with ht | ht
    · exact .closed (by simp) closed ht.ends
    · exact .gaveUp closed ht.ends

theorem finishTurn_ran :
    wp finishTurn (fun calls t => Ran s .finishTurn calls t) (fun _ t => Died s .finishTurn t)
      s := by
  have quiet : Quiet s { s with chat := { s.chat with unanswered := s.chat.unanswered.tail } } :=
    Quiet.of_disk rfl rfl le_rfl rfl ⟨[], rfl, by simp⟩
  have dropped : Gave s { s with chat := { s.chat with unanswered := s.chat.unanswered.tail } }
      (s.turned { s.chat.desk with unanswered := s.chat.unanswered.tail } [] []) :=
    (Gave.of_still (Still.refl s)).turned
      (fun d => { d with unanswered := d.unanswered.tail }) rfl rfl quiet
  unfold finishTurn
  simp only [wp_bind, wp_self, wp_change]
  rw [wp_ite]
  constructor
  · intro later
    simp only [wp_bind, wp_change, wp_become]
    refine .nextTurn later (dropped.turned
      (fun d => { d with nextTurns := d.nextTurns - 1, inTurn := true, turnRecorded := true })
      rfl rfl ?_)
    exact Quiet.of_disk rfl rfl le_rfl rfl ⟨[], rfl, by simp⟩
  · intro hlast
    have last : s.chat.nextTurns = 0 := Nat.eq_zero_of_not_pos hlast
    rw [wp_bind]
    refine wp_still (placed.markTold_holds) (fun _ t ht => ?_) fun _ t ht =>
      .quietly (quiet.trans ht).ends
    have marked := dropped.then_ ht
    rw [wp_ite]
    constructor
    · intro awaiting
      simp only [wp_bind, wp_change, wp_become]
      refine .awaited last awaiting (marked.turned (fun d => { d with inTurn := true }) rfl rfl ?_)
      exact Quiet.of_disk rfl rfl le_rfl rfl ⟨[], rfl, by simp⟩
    · intro hnone
      have awaiting : s.chat.awaiting = [] := by simpa using hnone
      rw [wp_bind]
      refine wp_still placed.stale_holds (fun stale u hu => ?_) fun _ u hu =>
        .quietly (quiet.trans (ht.quiet.trans hu)).ends
      cases stale
      · exact .finished last awaiting (.inl rfl) (marked.then_ hu)
      · exact .finished last awaiting (.inr rfl)
          (marked.then_ (hu.trans (.of_same rfl rfl rfl rfl rfl rfl)))

theorem recoveryEnded_ran (end_ : Event) :
    wp (recoveryEnded end_) (fun calls t => Ran s (.recoveryEnded end_) calls t)
      (fun _ t => Died s (.recoveryEnded end_) t) s := by
  -- the desk is cleared before anything is saved
  let c : Chat := { s.chat with
    inTurn := false, turnRecorded := false, unanswered := [], turnFailed := none }
  have cleared : Gave s { s with chat := c } (s.turned s.chat.desk.cleared [] []) :=
    (Gave.of_still (Still.refl s)).turned Desk.cleared rfl rfl
      (Quiet.of_disk rfl rfl le_rfl rfl ⟨[], rfl, by simp⟩)
  have later : Later s { s with chat := c } := ⟨le_rfl, le_rfl, rfl, [], rfl, by simp⟩
  have saved {recovery : Recovery} {next : Option Recovery} {first : List Call}
      (active : s.chat.recovery = some recovery)
      (advances : Advances s.chat recovery next first) :
      wp (saveRecovery next none none)
        (fun _ t => (∀ calls u, Advances s.chat recovery next calls → Still t u →
          Ran s (.recoveryEnded end_) calls u) ∧
            ∀ u, Quiet t u → Died s (.recoveryEnded end_) u)
        (fun _ t => Died s (.recoveryEnded end_) t) { s with chat := c } := by
    refine wp_saveRecovery (fun t ht => ⟨fun calls u hcalls hu => ?_, fun u hu => ?_⟩)
      fun _ t ht => ?_
    · refine .advanced active hcalls (Gave.then_ ?_ hu)
      exact ⟨ht.desk, ht.runner, congrArg MetaData.pending ht.data, congrArg MetaData.top ht.data,
        ⟨[], ht.log.trans (by simp [Conf.saved, c]), trivial, by simp⟩, ⟨[], ht.trace, by simp⟩,
        ht.ids, ht.built.ge, ht.session⟩
    · have hl := (ht.leaves (by simp [Conf.saved]) rfl).after later
      simp only [Conf.saved, List.append_nil] at hl
      exact .advanced active advances (hl.quietly hu)
    · rcases ht with ht | ht
      · exact .quietly (ht.after later).ends
      · exact .advanced active advances (ht.after later).ends
  unfold recoveryEnded
  simp only [wp_bind, wp_self, wp_change]
  split
  next idle => exact .nothingToEnd idle cleared
  next recovery active =>
    have proceed {calls : List Call} (h : Proceeds s.chat recovery calls) :
        Ran s (.recoveryEnded end_) calls { s with chat := c } := .proceeded active h cleared
    split
    next stage =>
      split
      · exact proceed (.compactionFailed stage)
      split
      next texts => exact proceed (.repeatTurn stage texts)
      next texts =>
        have texts : recovery.retry = "" := by simpa using texts
        split
        next message rest outbox =>
          rw [wp_bind]
          exact wp_mono (saved active (.retryQueued stage texts message rest outbox))
            (fun _ t ht => ht.1 _ t (.retryQueued stage texts message rest outbox) (.refl t)) fun _ _ ht => ht
        next outbox =>
          rw [wp_bind]
          exact wp_mono (saved active (.compacted stage texts outbox))
            (fun _ t ht => ht.1 _ t (.compacted stage texts outbox) (.refl t)) fun _ _ ht => ht
    next stage =>
      split
      next full => exact proceed (.stillFull full.1 full.2)
      split
      · exact proceed (.giveUp _ stage)
      split
      next handoff => exact proceed (.continue_ handoff)
      next other =>
        split
        next message rest continuing outbox =>
          rw [wp_bind]
          exact wp_mono (saved active (.resumeQueued (.inl continuing) message rest outbox))
            (fun _ t ht => ht.1 _ t (.resumeQueued (.inl continuing) message rest outbox) (.refl t)) fun _ _ ht => ht
        next message rest resuming outbox =>
          rw [wp_bind]
          exact wp_mono (saved active (.resumeQueued (.inr resuming) message rest outbox))
            (fun _ t ht => ht.1 _ t (.resumeQueued (.inr resuming) message rest outbox) (.refl t)) fun _ _ ht => ht
        next hcontinuing hresuming =>
          have outbox : recovery.stage = .retrying ∨ s.chat.outbox = [] := by
            cases hs : recovery.stage <;> cases ho : s.chat.outbox <;> simp_all
          rw [wp_bind]
          refine wp_mono (saved active (.complete stage other outbox (.inl rfl)))
            (fun _ t ht => ?_) fun _ _ ht => ht
          rw [wp_bind]
          refine wp_still placed.runnerAlive_holds (fun alive u hu => ?_) fun _ u hu => ?_
          · cases alive
            · exact ht.1 _ u (.complete stage other outbox (.inr rfl)) hu
            · exact ht.1 _ u (.complete stage other outbox (.inl rfl)) hu
          · exact ht.2 u hu

omit [Host] in
theorem release_place {Q : Unit → Conf → Prop} {H : Halt → Conf → Prop}
    (hQ : ∀ t, t.chat.place = (s.chat.desk, none) → Quiet s t → Q () t)
    (hH : ∀ e t, Quiet s t → H e t) : wp release Q H s := by
  unfold release
  simp only [wp_bind, wp_self]
  split
  next runner hr =>
    have hnone : Quiet s { s with chat := { s.chat with runner := none } } :=
      Quiet.of_disk rfl rfl le_rfl rfl ⟨[], rfl, by simp⟩
    rw [wp_bind, wp_change]
    exact (placed.dismiss_holds runner).wp
      (fun _ t ht => hQ t ht.1 (hnone.trans ht.2)) fun e t ht => hH e t (hnone.trans ht)
  next hr => exact hQ s (Prod.ext rfl hr) (Quiet.refl s)

theorem shutdown_ran :
    wp shutdown (fun calls t => Ran s .shutdown calls t) (fun _ t => Died s .shutdown t) s := by
  have stopping : Quiet s { s with chat := { s.chat with stopping := true } } :=
    Quiet.of_disk rfl rfl le_rfl rfl ⟨[], rfl, by simp⟩
  unfold shutdown
  simp only [wp_bind, wp_change]
  refine release_place (fun t place hq => ?_) fun _ t hq => .quietly (stopping.trans hq).ends
  simp only [wp_bind, wp_self, wp_change, wp_stopAll]
  have parked : Still t { t with
      trace := ((t.chat.parked.map (·.2.runner)).map Obs.stopped).reverse ++ t.trace
      chat := { t.chat with parked := [] } } := by
    refine ⟨rfl, Quiet.of_disk rfl rfl le_rfl rfl ⟨_, rfl, ?_⟩⟩
    intro o ho
    obtain ⟨_, _, rfl⟩ := List.mem_map.mp (List.mem_reverse.mp ho)
    rfl
  have hq := stopping.trans hq
  have gave : Gave s t { s.turned { s.chat.desk with stopping := true } [] [] with
      rest := { s.chat.offDesk with runner := none } } :=
    ⟨congrArg Prod.fst place, congrArg Prod.snd place, hq.pending, hq.top,
      by simpa [Conf.turned] using hq.log, hq.trace, hq.ids, hq.built, hq.session⟩
  exact .shutting (gave.then_ parked)

omit [Host] in
theorem closeLast_gave {Q : Unit → Conf → Prop} {H : Halt → Conf → Prop}
    (hQ : ∀ t, Gave s t
      { s.turned s.chat.desk
          (if s.chat.inTurn ∧ s.chat.turnRecorded then [s.chat.stopEnd] else [])
          (if s.chat.inTurn ∧ s.chat.turnRecorded then [.closed s.chat.stopEnd.seq] else []) with
        rest := { s.chat.offDesk with runnerEpoch := none } } → Q () t)
    (hH : ∀ e t, Ends s t s.chat.disk ∨
      s.chat.turnRecorded ∧ Ends s t (s.chat.disk.append s.chat.stopEnd) → H e t) :
    wp closeLast Q H { s with chat := { s.chat with runnerEpoch := none } } := by
  have later : Later s { s with chat := { s.chat with runnerEpoch := none } } :=
    ⟨le_rfl, le_rfl, rfl, [], rfl, by simp⟩
  unfold closeLast
  simp only [wp_bind, wp_self]
  by_cases hopen : s.chat.inTurn = true ∧ s.chat.turnRecorded = true
  · simp only [if_pos hopen] at hQ ⊢
    rw [wp_bind]
    apply wp_record
    · exact hQ _ ⟨rfl, rfl, rfl, rfl, ⟨[], (List.append_nil _).symm, trivial, by simp⟩,
        ⟨[], rfl, by simp⟩, rfl, le_rfl, rfl⟩
    · rintro e t (ht | ht)
      · exact hH e t (.inl (ht.leaves.after later).ends)
      · exact hH e t (.inr ⟨hopen.2, (ht.leaves.after later).ends⟩)
  · simp only [if_neg hopen] at hQ ⊢
    exact hQ _ ⟨rfl, rfl, rfl, rfl, ⟨[], by simp [Conf.turned], trivial, by simp⟩,
      ⟨[], rfl, by simp⟩, rfl, le_rfl, rfl⟩

theorem stopped_ran :
    wp stopped (fun calls t => Ran s .stopped calls t) (fun _ t => Died s .stopped t) s := by
  unfold stopped
  simp only [wp_bind, wp_change]
  refine closeLast_gave (fun t ht => ?_) fun _ t ht => ?_
  · simp only [wp_bind, wp_change]
    have gave : Gave s { t with chat := { t.chat with
        inTurn := false
        turnRecorded := false
        nextTurns := 0
        outbox := t.chat.awaiting ++ t.chat.outbox
        awaiting := [] } } s.stopping :=
      ht.turned (fun d => { d with
        inTurn := false
        turnRecorded := false
        nextTurns := 0
        outbox := d.awaiting ++ d.outbox
        awaiting := [] }) rfl rfl (Quiet.of_disk rfl rfl le_rfl rfl ⟨[], rfl, by simp⟩)
    refine wp_still (record_quiet Chat.place_blind rfl) (fun _ u hu => ?_) fun _ u hu => ?_
    · simp only [wp_bind, wp_become, wp_pure]
      exact .stopped rfl (gave.then_ (hu.trans (.of_same rfl rfl rfl rfl rfl rfl)))
    · exact .stoppedClosed gave hu.ends
  · rcases ht with ht | ⟨recorded, ht⟩
    · exact .quietly ht
    · exact .stopped recorded ht

/-- Whatever a call does, it is one of the things that call can do. -/
theorem run_ran (call : Call) :
    wp (run call) (fun calls t => Ran s call calls t) (fun _ t => Died s call t) s := by
  cases call with
  | launchOnce => exact launchOnce_ran
  | enqueue text => exact enqueue_ran text
  | dispatchQueued => exact dispatchQueued_ran
  | flush => exact flush_ran
  | deliver => exact deliver_ran
  | refused why => exact refused_ran why
  | attempt why next => exact attempt_ran why next
  | replace rung why next => exact attemptReplace_ran rung why next
  | absorb epoch report => exact absorb_ran epoch report
  | unauthenticated provider => exact unauthenticated_ran provider
  | failed provider kind => exact failed_ran provider kind
  | recoverContext delivered => exact recoverContext_ran delivered
  | startHandoff => exact startHandoff_ran
  | recoveryMessage stage text fresh => exact recoveryMessage_ran stage text fresh
  | recoveryEnded end_ => exact recoveryEnded_ran end_
  | recoveryFailed why => exact recoveryFailed_ran why
  | resumeRecovery => exact resumeRecovery_ran
  | finishTurn => exact finishTurn_ran
  | settleIdle => exact settleIdle_ran
  | apply changes => exact apply_ran changes
  | shutdown => exact shutdown_ran
  | stopped => exact stopped_ran
  | publish => exact .moved (.pause rfl) publish_still

end
end SiliconOmni
