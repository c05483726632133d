import SiliconOmni.Chat.DeskSteps

/-! What hearing a runner makes of the conductor's state. -/
namespace SiliconOmni
open Lib

/-- The END of a turn clears what is open. -/
def Desk.ended (d : Desk) : Desk := { d with inTurn := false, turnRecorded := false }

/-- How the conductor reacts to an event of the attached runner that is already in the log: the
calls that follow, and what it makes of its desk and the trace. -/
inductive Reacted (d : Desk) (autoremove : Bool) (e : Event) :
    List Call → Desk → List Obs → Prop where
  | drained (stopping : d.stopping) (other : e.eventType ≠ .end_) :
      Reacted d autoremove e [] d []
  | drainedEnd (stopping : d.stopping) (isEnd : e.eventType = .end_) :
      Reacted d autoremove e [] { d.ended with nextTurns := 0 } [.ended e.seq]
  | heard (failure : Option ErrorKind) (live : d.stopping = false) (other : e.eventType ≠ .end_) :
      Reacted d autoremove e [] { d with turnFailed := failure } []
  | fatalCompacting (live : d.stopping = false) (other : e.eventType ≠ .end_) (r : Recovery)
      (active : d.recovery = some r) (stage : r.stage = .compacting) :
      Reacted d autoremove e [.startHandoff] { d with turnFailed := some e.kind } []
  | fatalRecovering (live : d.stopping = false) (other : e.eventType ≠ .end_) (r : Recovery)
      (active : d.recovery = some r) (stage : r.stage ≠ .compacting) :
      Reacted d autoremove e [.recoveryFailed e.error] { d with turnFailed := some e.kind } []
  | lostLogin (live : d.stopping = false) (other : e.eventType ≠ .end_) (idle : d.recovery = none) :
      Reacted d autoremove e [.unauthenticated e.provider] d []
  | crashed (live : d.stopping = false) (other : e.eventType ≠ .end_) (idle : d.recovery = none) :
      Reacted d autoremove e [.failed e.provider "crash"] d []
  | endedRecovering (live : d.stopping = false) (isEnd : e.eventType = .end_) (r : Recovery)
      (active : d.recovery = some r) :
      Reacted d autoremove e [.recoveryEnded e] d.ended
        (if r.stage = .compacting then [] else [.ended e.seq])
  | endedFull (live : d.stopping = false) (isEnd : e.eventType = .end_) (idle : d.recovery = none)
      (full : d.turnFailed = some .contextLimit) :
      Reacted d autoremove e [.recoverContext true] { d.ended with turnFailed := none }
        [.ended e.seq]
  | endedFailed (live : d.stopping = false) (isEnd : e.eventType = .end_)
      (idle : d.recovery = none) (kind : ErrorKind) (failed : d.turnFailed = some kind)
      (removing : autoremove) :
      Reacted d autoremove e [.failed e.provider kind.name] { d.ended with turnFailed := none }
        [.ended e.seq]
  | endedDone (live : d.stopping = false) (isEnd : e.eventType = .end_) (idle : d.recovery = none) :
      Reacted d autoremove e [.finishTurn] { d.ended with turnFailed := none } [.ended e.seq]

theorem Reacted.isPlain {d d' : Desk} {autoremove : Bool} {e : Event} {calls : List Call}
    {obs : List Obs} (h : Reacted d autoremove e calls d' obs) : ∀ o ∈ obs, o.isPlain := by
  cases h with
  | endedRecovering => split <;> simp [Obs.isPlain]
  | _ => simp [Obs.isPlain]

section
variable {s : Conf} {H : Halt → Conf → Prop}

/-- A step that only reacts leaves the files and the runners alone. -/
theorem took_of_reacted {t : Conf} {desk : Desk} {obs : List Obs} (hd : t.chat.desk = desk)
    (hm : t.chat.meta_.data = s.chat.meta_.data) (hr : t.chat.offDesk = s.chat.offDesk)
    (hl : t.chat.store.events = s.chat.store.events) (ht : t.trace = obs ++ s.trace)
    (hi : t.ids = s.ids) (hb : t.built = s.built) :
    Took s t { desk, data := s.chat.meta_.data, rest := s.chat.offDesk, obs } :=
  ⟨hd, hm, hr, by rw [hl]; exact (List.append_nil _).symm, ht, hi, hb⟩

theorem took_self {desk : Desk} (hd : s.chat.desk = desk) :
    Took s s { desk, data := s.chat.meta_.data, rest := s.chat.offDesk } :=
  took_of_reacted hd rfl rfl rfl rfl rfl rfl

variable {Q : List Call → Conf → Prop} {e : Event}

theorem wp_reactToEnd (live : s.chat.stopping = false) (isEnd : e.eventType = .end_)
    (h : ∀ calls desk obs t, Reacted s.chat.desk s.chat.autoremove e calls desk obs →
      Took s t { desk, data := s.chat.meta_.data, rest := s.chat.offDesk, obs } → Q calls t) :
    wp (reactToEnd e) Q H s := by
  unfold reactToEnd
  simp only [wp_bind, wp_self, wp_notes, wp_change]
  by_cases hr : s.chat.recovery.isSome = true
  · rw [if_pos hr, wp_pure]
    obtain ⟨r, hr⟩ := Option.isSome_iff_exists.mp hr
    refine h _ _ _ _ (.endedRecovering live isEnd r hr)
      (took_of_reacted rfl rfl rfl rfl ?_ rfl rfl)
    simp only [Chat.compacting, hr, Option.any_some, decide_eq_true_eq]
  · rw [if_neg hr]
    have hr : s.chat.recovery = none := by simpa using hr
    have hobs : (if s.chat.compacting = true then [] else [Obs.ended e.seq]) =
        [Obs.ended e.seq] := by
      simp [Chat.compacting, hr]
    rw [hobs]
    simp only [wp_bind, wp_change]
    split
    next hf =>
      rw [wp_pure]
      exact h _ _ _ _ (.endedFull live isEnd hr hf) (took_of_reacted rfl rfl rfl rfl rfl rfl rfl)
    next kind _ hf =>
      split <;> rw [wp_pure]
      next ha =>
        exact h _ _ _ _ (.endedFailed live isEnd hr kind hf ha)
          (took_of_reacted rfl rfl rfl rfl rfl rfl rfl)
      next =>
        exact h _ _ _ _ (.endedDone live isEnd hr) (took_of_reacted rfl rfl rfl rfl rfl rfl rfl)
    next =>
      rw [wp_pure]
      exact h _ _ _ _ (.endedDone live isEnd hr) (took_of_reacted rfl rfl rfl rfl rfl rfl rfl)

theorem wp_reactToError (live : s.chat.stopping = false) (other : e.eventType ≠ .end_)
    (h : ∀ calls desk obs t, Reacted s.chat.desk s.chat.autoremove e calls desk obs →
      Took s t { desk, data := s.chat.meta_.data, rest := s.chat.offDesk, obs } → Q calls t) :
    wp (reactToError e) Q H s := by
  have heard : Q [] s := h _ _ _ _ (.heard s.chat.turnFailed live other) (took_self rfl)
  have failing (kind : ErrorKind) :
      Q [] { s with chat := { s.chat with turnFailed := some kind } } :=
    h _ _ _ _ (.heard (some kind) live other) (took_of_reacted rfl rfl rfl rfl rfl rfl rfl)
  unfold reactToError
  simp only [wp_bind, wp_self]
  split
  next r hr =>
    split
    · simp only [wp_bind, wp_change]
      split
      · split <;> rw [wp_pure]
        next hst =>
          exact h _ _ _ _ (.fatalCompacting live other r hr hst)
            (took_of_reacted rfl rfl rfl rfl rfl rfl rfl)
        next hst =>
          exact h _ _ _ _ (.fatalRecovering live other r hr hst)
            (took_of_reacted rfl rfl rfl rfl rfl rfl rfl)
      · exact failing _
    · exact heard
  next hr =>
    split
    · exact failing _
    · exact h _ _ _ _ (.lostLogin live other hr) (took_self rfl)
    · exact h _ _ _ _ (.crashed live other hr) (took_self rfl)
    · split
      · exact failing _
      · exact heard
    · split
      · exact failing _
      · exact heard
    · exact heard

theorem wp_react
    (h : ∀ calls desk obs t, Reacted s.chat.desk s.chat.autoremove e calls desk obs →
      Took s t { desk, data := s.chat.meta_.data, rest := s.chat.offDesk, obs } → Q calls t) :
    wp (react e) Q H s := by
  unfold react
  simp only [wp_bind, wp_self]
  by_cases hs : s.chat.stopping = true
  · rw [if_pos hs]
    split
    next he =>
      exact h _ _ _ _ (.drainedEnd hs (by simpa [Event.is] using he))
        (took_of_reacted rfl rfl rfl rfl rfl rfl rfl)
    next he => exact h _ _ _ _ (.drained hs (by simpa [Event.is] using he)) (took_self rfl)
  · rw [if_neg hs]
    have live : s.chat.stopping = false := Bool.eq_false_of_not_eq_true hs
    split
    next hm =>
      have other : e.eventType ≠ .end_ := by
        intro he
        rw [he] at hm
        cases hm
      exact h _ _ _ _ (.heard none live other) (took_of_reacted rfl rfl rfl rfl rfl rfl rfl)
    split
    next he => exact wp_reactToEnd live (by simpa [Event.is] using he) h
    next he =>
      have other : e.eventType ≠ .end_ := by simpa [Event.is] using he
      split
      · exact wp_reactToError live other h
      · exact h _ _ _ _ (.heard s.chat.turnFailed live other) (took_self rfl)

end

/-- What a confirmed delivery does. -/
def Conf.confirmed (s : Conf) (message : PendingMessage) (rest : List PendingMessage)
    (event : Event) (opening : EventType) : Delta :=
  let logged := s.chat.logged (s.chat.confirmation event message opening)
  { desk := { s.chat.desk with
      awaiting := rest
      unanswered := remembered s.chat.unanswered message.text (opening = .start)
      turn := max s.chat.turn logged.turn
      turnRecorded := true
      inTurn := true }
    data := s.chat.meta_.data.complete message.id
    rest := s.chat.offDesk
    events := [logged]
    obs := s.chat.confirming opening logged.seq }

/-- The state of the conductor when an acknowledgement confirms its oldest unconfirmed write. -/
structure Conf.Confirming (s : Conf) (event : Event) (message : PendingMessage)
    (rest : List PendingMessage) (opening : EventType) : Prop where
  awaiting : s.chat.awaiting = message :: rest
  text : message.text = event.text
  opens : event.confirmedAs = some opening

theorem Event.confirmedAs_isOpening {event : Event} {opening : EventType}
    (h : event.confirmedAs = some opening) : opening = .start ∨ opening = .injected := by
  unfold confirmedAs at h
  split at h
  · exact .inl (Option.some.inj h).symm
  · exact .inr (Option.some.inj h).symm
  · cases h

theorem Chat.confirming_isPlain (c : Chat) (opening : EventType) (seq : ℤ) :
    ∀ o ∈ c.confirming opening seq, o.isPlain := by
  unfold confirming
  split
  · split <;> simp [Obs.isPlain]
  · simp

section
variable {s : Conf} {H : Halt → Conf → Prop}

theorem wp_confirm {Q : List Call → Conf → Prop} {event : Event}
    (hidle : Q [] s)
    (hdone : ∀ message rest opening t, s.Confirming event message rest opening →
      Took s t (s.confirmed message rest event opening) → Q [] t)
    (hhalt : ∀ message rest opening e t, s.Confirming event message rest opening →
      (let logged := s.chat.logged (s.chat.confirmation event message opening)
       Leaves s t s.chat.disk ∨ Leaves s t (s.chat.disk.append logged) ∨
        Leaves s t ((s.chat.disk.append logged).edit (·.complete message.id))) → H e t) :
    wp (confirm event) Q H s := by
  unfold confirm
  simp only [wp_bind, wp_self]
  split
  next message rest opening ha ho =>
    split
    next ht =>
      have hc : s.Confirming event message rest opening := ⟨ha, ht, ho⟩
      rw [wp_bind]
      apply wp_record
      · simp only [wp_bind, wp_notes, wp_change, rememberRunnerTurn, completeMessage]
        apply wp_commit
        · intro calls
          exact hdone message rest opening _ hc ⟨rfl, rfl, rfl, rfl, rfl, rfl, rfl⟩
        · intro e t ht
          refine hhalt message rest opening e t hc ?_
          have hnot := s.chat.confirming_isPlain opening (s.chat.store.seq + 1)
          rcases ht with ht | ht
          · exact .inr (.inl (ht.leaves.after ⟨le_rfl, le_rfl, rfl, _, rfl, hnot⟩))
          · exact .inr (.inr (ht.leaves.after ⟨le_rfl, le_rfl, rfl, _, rfl, hnot⟩))
      · intro e t ht
        refine hhalt message rest opening e t hc ?_
        rcases ht with ht | ht
        · exact .inl ht.leaves
        · exact .inr (.inl ht.leaves)
    next => exact hidle
  next => exact hidle

theorem heard_epoch (epoch : ℕ) (report : Report) : (report.heard epoch).epoch = some epoch := by
  unfold Event.epoch Report.heard
  simp [Value.asNat]

theorem lookup_admitted (event : Event) (late : Bool) {key : String} (hl : key ≠ "late")
    (hg : key ≠ GENERATION) (he : key ≠ RUNNER_EPOCH) :
    (event.admitted late).extra.lookup key = event.extra.lookup key := by
  unfold Event.admitted
  cases late
  · simp only [Bool.false_eq_true, ↓reduceIte]
    rw [Entries.lookup_remove_ne _ he, Entries.lookup_remove_ne _ hg]
  · simp only [↓reduceIte]
    rw [Entries.lookup_insert_ne _ _ hl, Entries.lookup_remove_ne _ he,
      Entries.lookup_remove_ne _ hg]

theorem wp_straggler {Q : Bool → Conf → Prop} {event : Event}
    (hlate : ∀ calls, Q true { s with calls })
    (hcurrent : ∀ calls, s.chat.runnerEpoch = event.epoch ∨ event.epoch = none →
      Q false { s with calls }) :
    wp (straggler event) Q H s := by
  unfold straggler
  simp only [wp_bind, wp_self]
  split
  · exact hlate s.calls
  next he =>
    have he : s.chat.runnerEpoch = event.epoch ∨ event.epoch = none := by
      by_cases hn : event.epoch = none
      · exact .inr hn
      · left
        by_contra hne
        exact he ⟨Option.isSome_iff_ne_none.mpr hn, hne⟩
    split
    · exact hcurrent s.calls he
    · split
      · exact hlate s.calls
      · simp only [wp_bind, wp_asks]
        split
        next theirs ours _ _ =>
          rw [wp_pure]
          cases hd : decide (theirs ≠ ours)
          · exact hcurrent _ he
          · exact hlate _
        · exact hcurrent _ he

variable [Host]

/-- A report as the conductor takes it in: against its own turn, and marked if it is late. -/
def Chat.takenIn (c : Chat) (epoch : ℕ) (report : Report) (late : Bool) : Event :=
  ((report.heard epoch).reclassified.returned c).admitted late

theorem takenIn_messageId (c : Chat) (epoch : ℕ) (report : Report) (late : Bool) :
    (c.takenIn epoch report late).messageId = none := by
  unfold Event.messageId Chat.takenIn
  rw [lookup_admitted _ _ (by decide) (by decide) (by decide)]
  show ((Entries.insert report.extra RUNNER_EPOCH _).lookup MESSAGE_ID).bind _ = none
  rw [Entries.lookup_insert_ne _ _ (by decide), report.unmarked.1]
  rfl

theorem takenIn_late (c : Chat) (epoch : ℕ) (report : Report) (late : Bool) :
    (c.takenIn epoch report late).late = late := by
  have hlook : (c.takenIn epoch report late).extra.lookup "late" =
      if late then some (.bool true) else none := by
    unfold Chat.takenIn Event.admitted
    cases late
    · simp only [Bool.false_eq_true, ↓reduceIte]
      rw [Entries.lookup_remove_ne _ (by decide), Entries.lookup_remove_ne _ (by decide)]
      show (Entries.insert report.extra RUNNER_EPOCH _).lookup "late" = none
      rw [Entries.lookup_insert_ne _ _ (by decide), report.unmarked.2]
    · simp
  unfold Event.late Event.flag
  rw [hlook]
  cases late <;> rfl

theorem takenIn_recordable (c : Chat) (epoch : ℕ) (report : Report) (late : Bool) :
    (c.takenIn epoch report late).Recordable where
  v := rfl
  named := by
    show report.type.eventType.name ≠ ""
    cases report.type <;> decide
  session := rfl

theorem wp_repeated {Q : Bool → Conf → Prop} {event : Event}
    (hseen : Q true s)
    (hnew : ∀ announced, Q false { s with chat := { s.chat with announced } }) :
    wp (repeated event) Q H s := by
  unfold repeated
  split
  · simp only [wp_bind, wp_self]
    split
    · exact hseen
    · exact hnew _
  · exact hnew s.chat.announced

/-- What hearing an event that takes no effect leaves behind. -/
def Conf.ignored (s t : Conf) : Delta where
  desk := s.chat.desk
  data := s.chat.meta_.data
  rest := { s.chat.offDesk with announced := t.chat.announced }

theorem wp_absorb {Q : List Call → Conf → Prop} {epoch : ℕ} {report : Report}
    (hquiet : ∀ t, Took s t (s.ignored t) → Q [] t)
    (hlate : ∀ e t, e = s.chat.logged (s.chat.takenIn epoch report true) →
      e.eventType ≠ .confirmed →
      Took s t { s.ignored t with
        rest := { s.chat.offDesk with
          announced := t.chat.announced, syncCeiling := s.chat.ceilingAfter e }
        events := [e] } → Q [] t)
    (hreact : ∀ e calls desk obs t, e = s.chat.logged (s.chat.takenIn epoch report false) →
      s.chat.runnerEpoch = some epoch → e.eventType ≠ .confirmed →
      Reacted s.chat.desk s.chat.autoremove e calls desk obs →
      Took s t { s.ignored t with
        desk, events := [e], obs := obs ++ s.chat.runner.toList.map (.shared · e.seq) } →
      Q calls t)
    (hconfirm : ∀ message rest opening t, report.type = .confirmed →
      s.chat.runnerEpoch = some epoch →
      s.Confirming (s.chat.takenIn epoch report false) message rest opening →
      Took s t { s.confirmed message rest (s.chat.takenIn epoch report false) opening with
        rest := { s.chat.offDesk with announced := t.chat.announced } } → Q [] t)
    (hhalt : ∀ e t, (∃ late, report.type ≠ .confirmed ∧ (Leaves s t s.chat.disk ∨
        Leaves s t (s.chat.disk.append (s.chat.logged (s.chat.takenIn epoch report late))))) ∨
      (s.chat.runnerEpoch = some epoch ∧ ∃ message rest opening,
        s.Confirming (s.chat.takenIn epoch report false) message rest opening ∧
        let logged := s.chat.logged
          (s.chat.confirmation (s.chat.takenIn epoch report false) message opening)
        Leaves s t s.chat.disk ∨ Leaves s t (s.chat.disk.append logged) ∨
          Leaves s t ((s.chat.disk.append logged).edit (·.complete message.id))) → H e t) :
    wp (absorb epoch report) Q H s := by
  have none_added : s.chat.store.events = s.chat.store.events ++ [] := (List.append_nil _).symm
  unfold absorb
  simp only [wp_bind, wp_self]
  apply wp_straggler
  · intro calls
    simp only [wp_bind]
    apply wp_repeated
    · exact hquiet _ ⟨rfl, rfl, rfl, none_added, rfl, rfl, rfl⟩
    intro announced
    simp only [Bool.false_eq_true, ↓reduceIte]
    split
    · exact hquiet _ ⟨rfl, rfl, rfl, none_added, rfl, rfl, rfl⟩
    next hc =>
      have hne : report.type.eventType ≠ .confirmed := fun h => hc (decide_eq_true h)
      simp only [wp_bind]
      apply wp_record
      · exact hlate _ _ rfl hne ⟨rfl, rfl, rfl, rfl, rfl, rfl, rfl⟩
      · intro e t ht
        refine hhalt e t (.inl ⟨true, ?_, ?_⟩)
        · intro h
          rw [h] at hne
          exact hne rfl
        · exact ht.imp (fun h => h.leaves.after ⟨le_rfl, le_rfl, rfl, [], rfl, by simp⟩)
            (fun h => h.leaves.after ⟨le_rfl, le_rfl, rfl, [], rfl, by simp⟩)
  · intro calls hepoch
    have hepoch : s.chat.runnerEpoch = some epoch := by
      have hs : Event.epoch ((report.heard epoch).reclassified.returned s.chat) = some epoch :=
        heard_epoch epoch report
      rw [hs] at hepoch
      exact hepoch.resolve_right (by simp)
    simp only [wp_bind]
    apply wp_repeated
    · exact hquiet _ ⟨rfl, rfl, rfl, none_added, rfl, rfl, rfl⟩
    intro announced
    simp only [Bool.false_eq_true, ↓reduceIte]
    split
    next hc =>
      have confirms : report.type = .confirmed := by
        have heq : report.type.eventType = .confirmed := of_decide_eq_true hc
        cases htype : report.type <;> rw [htype] at heq <;> first | rfl | cases heq
      apply wp_confirm
      · exact hquiet _ ⟨rfl, rfl, rfl, none_added, rfl, rfl, rfl⟩
      · intro message rest opening t hc ht
        have hann : t.chat.announced = announced := congrArg (·.announced) ht.rest
        refine hconfirm message rest opening t confirms hepoch ⟨hc.awaiting, hc.text, hc.opens⟩ ?_
        rw [hann]
        exact ⟨ht.desk, ht.data, ht.rest, ht.log, ht.trace, ht.ids, ht.built⟩
      · intro message rest opening e t hc ht
        refine hhalt e t (.inr ⟨hepoch, message, rest, opening, ⟨hc.awaiting, hc.text, hc.opens⟩, ?_⟩)
        have hl {disk : Disk} (h : Leaves { s with
            calls, chat := { s.chat with announced } } t disk) : Leaves s t disk :=
          h.after ⟨le_rfl, le_rfl, rfl, [], rfl, by simp⟩
        exact ht.imp hl (fun h => h.imp hl hl)
    next hc =>
      have hne : report.type.eventType ≠ .confirmed := fun h => hc (decide_eq_true h)
      simp only [wp_bind]
      apply wp_record
      · simp only [wp_bind, wp_self, wp_notes]
        apply wp_react
        intro calls desk obs t hr ht
        have hann : t.chat.announced = announced := congrArg (·.announced) ht.rest
        refine hreact _ calls desk obs t rfl hepoch hne hr ?_
        refine ⟨ht.desk, ht.data, ?_, ht.log.trans ?_, ht.trace.trans ?_, ht.ids, ht.built⟩
        · show t.chat.offDesk = { s.chat.offDesk with announced := t.chat.announced }
          rw [hann]
          exact ht.rest
        · exact List.append_nil _
        · exact (List.append_assoc _ _ _).symm
      · intro e t ht
        refine hhalt e t (.inl ⟨false, ?_, ?_⟩)
        · intro h
          rw [h] at hne
          exact hne rfl
        · exact ht.imp (fun h => h.leaves.after ⟨le_rfl, le_rfl, rfl, [], rfl, by simp⟩)
            (fun h => h.leaves.after ⟨le_rfl, le_rfl, rfl, [], rfl, by simp⟩)

end
end SiliconOmni
