import SiliconOmni.Chat.Authority
import SiliconOmni.Lib.Calls

/-! A wake is handled in finitely many calls, with at most one native compaction and one handoff. -/
namespace SiliconOmni
open Lib Frame

/-- What is left, of one compaction and one handoff, once a call was made. -/
def Call.spend (budget : ℕ) : Call → Option ℕ
  | .recoverContext _ => if 2 ≤ budget then some 1 else none
  | .startHandoff => if 1 ≤ budget then some 0 else none
  | _ => some budget

/-- How far a message refused by a full session can still take recovery: to a compaction and a
handoff, to a handoff, or nowhere. -/
def Desk.attempts (d : Desk) : ℕ :=
  match d.recovery with
  | none => 2
  | some recovery => if recovery.stage = .retrying then 1 else 0

theorem Desk.attempts_le (d : Desk) : d.attempts ≤ 2 := by
  unfold attempts
  split
  · exact le_rfl
  · split <;> omega

/-- The calls that leave the desk as it is. -/
def Call.keepsDesk : Call → Bool
  | .launchOnce | .dispatchQueued | .flush | .attempt _ _ | .replace _ _ _ | .startHandoff
  | .apply _ | .settleIdle | .publish => true
  | _ => false

/-- The calls that begin by closing the turn of a provider that failed. -/
def Call.closes : Call → Bool
  | .failed _ _ | .unauthenticated _ => true
  | _ => false

theorem Call.closes_of {call : Call}
    (h : (∃ p k, call = .failed p k) ∨ ∃ p, call = .unauthenticated p) : call.closes := by
  rcases h with ⟨_, _, rfl⟩ | ⟨_, rfl⟩ <;> rfl

section
variable [Host]

theorem Ran.desk_eq {s t : Conf} {call : Call} {calls : List Call} (ran : Ran s call calls t)
    (h : call.keepsDesk) : t.chat.desk = s.chat.desk := by
  cases ran with
  | moved _ still => exact still.desk
  | replaced _ desk _ => exact desk
  | closed call_eq _ _ => rcases call_eq with ⟨_, _, rfl⟩ | ⟨_, rfl⟩ <;> cases h
  | _ => cases h

/-- From `s` the calls are all made in the end, within the budget. -/
abbrev Settles (budget : ℕ) (calls : List Call) (s : Conf) : Prop :=
  Finishes run Call.spend budget calls s

/-- A conductor that keeps to its dial, with at most `attempts` and so many providers left. -/
structure Calm (attempts usable : ℕ) (s : Conf) : Prop where
  routed : Routed .whole Manned s
  attempts : s.chat.desk.attempts ≤ attempts
  usable : s.chat.usable.length ≤ usable

section flushing
variable {b u : ℕ} {s : Conf} {next : List Call}

/-- Any call that ends with nothing more to do. -/
theorem Settles.last {call : Call} (covered : call.spend b = some b)
    (h : wp (run call) (fun calls _ => calls = []) (fun _ _ => True) s) : Settles b [call] s := by
  refine .step covered (wp_mono h ?_ fun _ _ => id)
  rintro calls t rfl
  exact .done

theorem settles_idle (b : ℕ) (s : Conf) : Settles b [.settleIdle] s := by
  refine .last rfl (wp_mono (run_ran .settleIdle) (fun calls t ran => ?_) fun _ _ _ => trivial)
  cases ran with
  | moved leads => cases leads; rfl
  | closed call_eq => cases Call.closes_of call_eq

theorem settles_publish (b : ℕ) (s : Conf) : Settles b [.publish] s :=
  .last rfl rfl

/-- To flush is to deliver, or to do nothing. -/
theorem settles_flush (h : Calm b u s)
    (deliver : ∀ t, Calm b u t → t.chat.fed → Settles b [.deliver] t) : Settles b [.flush] s := by
  let same (providers benched : List String) : Prop :=
    Manned providers benched ∧ dialed providers benched = s.chat.usable
  have hs : Routed .whole same s := h.routed.dial ⟨h.routed.wheel.dial, rfl⟩
  refine .step rfl (wp_mono (wp_and (flush_routed hs) (run_ran .flush)) ?_ fun _ _ _ => trivial)
  rintro calls t ⟨⟨routed, left⟩, ran⟩
  rcases left with rfl | ⟨rfl, fed⟩
  · exact .done
  refine deliver t ⟨routed.dial routed.wheel.dial.1, ?_, ?_⟩ fed
  · rw [ran.desk_eq rfl]
    exact h.attempts
  · have kept : t.chat.usable = s.chat.usable := routed.wheel.dial.2
    rw [kept]
    exact h.usable

/-- Rounds of `attempt` end: each has a provider less to try, or goes on with `next`. -/
theorem settles_attempt (why : String)
    (go : ∀ t, Calm b u t → Settles b next t) (h : Calm b u s) :
    Settles b [.attempt why next] s := by
  induction u using Nat.strong_induction_on generalizing s with
  | _ u ih =>
    have again (t : Conf) (routed : Routed .whole Manned t) (desk : t.chat.desk = s.chat.desk)
        (fewer : t.chat.usable.length < s.chat.usable.length) :
        Settles b [.attempt why next] t := by
      have hlt : t.chat.usable.length < u := by have := h.usable; omega
      refine ih _ hlt (fun v hv => go v ⟨hv.routed, hv.attempts, ?_⟩) ⟨routed, ?_, le_rfl⟩
      · exact hv.usable.trans hlt.le
      · rw [desk]
        exact h.attempts
    have onward (t : Conf) (routed : Routed .whole Manned t) (desk : t.chat.desk = s.chat.desk)
        (usable : t.chat.usable = s.chat.usable) : Settles b (next ++ []) t := by
      rw [List.append_nil]
      refine go t ⟨routed, ?_, usable ▸ h.usable⟩
      rw [desk]
      exact h.attempts
    refine .step rfl (wp_mono
      (wp_and (attempt_routed why next h.routed) (run_ran (.attempt why next))) ?_
      fun _ _ _ => trivial)
    rintro calls t ⟨⟨routed, left⟩, ran⟩
    have desk := ran.desk_eq rfl
    rcases left with rfl | ⟨rfl, usable⟩ | ⟨rfl, fewer⟩ | ⟨rung, rfl, on, usable⟩
    · exact .done
    · exact onward t routed desk usable
    · exact again t routed desk fewer
    · refine .step rfl (wp_mono (wp_and (attemptReplace_routed why next routed on)
        (run_ran (.replace rung why next))) ?_ fun _ _ _ => trivial)
      rintro calls v ⟨⟨routed', left⟩, ran'⟩
      have desk' := (ran'.desk_eq rfl).trans desk
      rcases left with rfl | ⟨rfl, usable'⟩ | ⟨rfl, fewer⟩
      · exact .done
      · exact onward v routed' desk' (usable'.trans usable)
      · exact again v routed' desk' (usable ▸ fewer)

theorem settles_dispatchQueued (h : Calm b u s)
    (flush : ∀ t, Calm b u t → Settles b [.flush] t) : Settles b [.dispatchQueued] s := by
  let same (providers benched : List String) : Prop :=
    Manned providers benched ∧ dialed providers benched = s.chat.usable
  have hs : Routed .whole same s := h.routed.dial ⟨h.routed.wheel.dial, rfl⟩
  have routed : wp dispatchQueued (fun _ t => Routed .whole same t) (fun _ _ => True) s :=
    wp_routed dispatchQueued_routed hs (fun _ _ => id) fun _ _ _ => trivial
  refine .step rfl (wp_mono (wp_and routed (run_ran .dispatchQueued)) ?_ fun _ _ _ => trivial)
  rintro calls t ⟨routed, ran⟩
  have calm : Calm b u t := by
    refine ⟨routed.dial routed.wheel.dial.1, ?_, ?_⟩
    · rw [ran.desk_eq rfl]
      exact h.attempts
    · have kept : t.chat.usable = s.chat.usable := routed.wheel.dial.2
      rw [kept]
      exact h.usable
  cases ran with
  | moved leads =>
    cases leads with
    | pause hp => cases hp
    | flush => exact flush t calm
    | bring why => exact settles_attempt why flush calm
  | closed call_eq => cases Call.closes_of call_eq

end flushing

section refusing
variable {b u : ℕ} {s : Conf}

/-- Any call that keeps the routing, told by what it can do. -/
theorem wp_ran {call : Call} {Q : List Call → Conf → Prop} (h : Routed .whole Manned s)
    (cleared : call.Cleared s.chat)
    (hQ : ∀ calls t, Routed .whole Manned t → Ran s call calls t → Q calls t) :
    wp (run call) Q (fun _ _ => True) s :=
  wp_mono (wp_and (run_routed h cleared (.inl rfl)) (run_ran call))
    (fun calls t ht => hQ calls t ht.1.1 ht.2) fun _ _ _ => trivial

/-- A handoff queues its message, and hands it over. -/
theorem settles_startHandoff (h : Routed .whole Manned s) (some_ : 1 ≤ b)
    (dispatch : ∀ t, Routed .whole Manned t → t.chat.desk.attempts = 0 →
      Settles 0 [.dispatchQueued] t) : Settles b [.startHandoff] s := by
  have covered : Call.spend b .startHandoff = some 0 := if_pos some_
  refine .step covered (wp_ran h trivial ?_)
  intro calls t routed ran
  cases ran with
  | closed call_eq => cases Call.closes_of call_eq
  | moved leads =>
    cases leads with
    | pause hp => cases hp
    | handoff text =>
      refine .step rfl (wp_ran routed trivial ?_)
      intro calls v routed' ran'
      cases ran' with
      | closed call_eq => cases Call.closes_of call_eq
      | moved leads => cases leads with | pause hp => cases hp
      | queuedFresh closed gave =>
        refine dispatch v routed' ?_
        rw [gave.desk]
        rfl

/-- Recovery that finds the session full asks for one compaction, and else hands off. -/
theorem settles_recoverContext (delivered : Bool) (h : Routed .whole Manned s) (both : 2 ≤ b)
    (dispatch : ∀ t, Routed .whole Manned t → t.chat.desk.attempts = 0 →
      Settles 0 [.dispatchQueued] t) : Settles b [.recoverContext delivered] s := by
  have covered : Call.spend b (.recoverContext delivered) = some 1 := if_pos both
  refine .step covered (wp_ran h trivial ?_)
  intro calls t routed ran
  cases ran with
  | closed call_eq => cases Call.closes_of call_eq
  | moved leads => cases leads with | pause hp => cases hp
  | compacting => exact .done
  | notCompacting => exact settles_startHandoff routed le_rfl dispatch

theorem settles_recoveryFailed (why : String) (b : ℕ) (s : Conf) :
    Settles b [.recoveryFailed why] s := by
  refine .last rfl (wp_mono (run_ran _) (fun calls t ran => ?_) fun _ _ _ => trivial)
  cases ran with
  | closed call_eq => cases Call.closes_of call_eq
  | moved leads => cases leads with | pause hp => cases hp
  | gaveUp => rfl

omit [Host] in
/-- A session of recovery's own that is full as well is handed off once more at most. -/
theorem recoveryEnded_full (end_ : Event) (full : s.chat.turnFailed = some .contextLimit)
    (stage : ∀ recovery, s.chat.recovery = some recovery → recovery.stage ≠ .compacting) :
    wp (recoveryEnded end_) (fun calls _ => calls = [] ∨ (∃ why, calls = [.recoveryFailed why]) ∨
      calls = [.startHandoff] ∧ s.chat.desk.attempts = 1) (fun _ _ => True) s := by
  unfold recoveryEnded
  simp only [wp_bind, wp_self, wp_change, full]
  split
  · exact .inl rfl
  next recovery hr =>
    have other := stage recovery hr
    rw [if_neg other, wp_ite]
    constructor
    · intro retrying
      refine .inr (.inr ⟨rfl, ?_⟩)
      have hd : s.chat.desk.recovery = some recovery := hr
      unfold Desk.attempts
      rw [hd]
      exact if_pos retrying.1
    · intro _
      exact .inr (.inl ⟨_, rfl⟩)

/-- A refused send is blamed on the runner that refused it. -/
theorem refused_blames (why : String) {runner : Handle} (attached : s.chat.runner = some runner) :
    wp (refused why) (fun calls t => ∀ p, (calls = [.unauthenticated p] ∨
      ∃ kind, calls = [.failed p kind]) → t.chat.blamed p = runner.name) (fun _ _ => True) s := by
  have named (t : Conf) (ht : t.chat.runner = some runner) :
      ∀ p, (p = "" ∨ p = runner.name) → t.chat.blamed p = runner.name := by
    intro p hp
    unfold Chat.blamed
    rw [ht]
    rcases hp with rfl | rfl
    · rfl
    · exact ite_eq_right_iff.mpr fun _ => rfl
  unfold refused
  simp only [wp_bind, wp_self, attached, Option.map_some, Option.getD_some]
  rw [wp_ite]
  constructor
  · intro _
    rw [wp_bind]
    refine wp_record ?_ fun _ _ _ => trivial
    split
    · intro p hp
      simp at hp
    · split <;> intro p hp <;> simp at hp
  · intro _
    split
    · intro p hp
      simp at hp
    · rw [wp_bind]
      refine wp_record ?_ fun _ _ _ => trivial
      split <;> intro p hp <;> simp at hp
      · obtain rfl := hp
        refine named _ attached _ (.inr ?_)
        show (s.chat.stamp _).provider = _
        unfold Chat.stamp
        rw [attached]
        exact ite_eq_right_iff.mpr fun _ => rfl
      · exact named _ attached _ (.inr hp.symm)

/-- A refused send is given up, or someone else is tried, or recovery goes one stage further. -/
theorem settles_refused (why : String) {runner : Handle} (h : Calm b u s)
    (attached : s.chat.runner = some runner) (on : runner.name ∈ s.chat.usable)
    (stage : ∀ recovery, s.chat.recovery = some recovery → recovery.stage ≠ .compacting)
    (fewer : ∀ u' < u, ∀ t, Calm b u' t → Settles b [.flush] t)
    (dispatch : 1 ≤ b → ∀ t, Routed .whole Manned t → t.chat.desk.attempts = 0 →
      Settles 0 [.dispatchQueued] t) : Settles b [.refused why] s := by
  let same (providers benched : List String) : Prop :=
    Manned providers benched ∧ dialed providers benched = s.chat.usable
  have hs : Routed .whole same s := h.routed.dial ⟨h.routed.wheel.dial, rfl⟩
  have routed : wp (refused why) (fun _ t => Routed .whole same t) (fun _ _ => True) s :=
    wp_routed (refused_routed why) hs (fun _ _ => id) fun _ _ _ => trivial
  refine .step rfl (wp_mono (wp_and (wp_and routed (refused_blames why attached))
    (run_ran (.refused why))) ?_ fun _ _ _ => trivial)
  rintro calls t ⟨⟨routed, blames⟩, ran⟩
  have calm : Routed .whole Manned t := routed.dial routed.wheel.dial.1
  have usable : t.chat.usable = s.chat.usable := routed.wheel.dial.2
  -- whoever is blamed was on the dial, so the next round has one provider less to try
  have moving (call : Call) (reason : String) (desk : t.chat.desk = s.chat.desk)
      (covered : call.spend b = some b) (closing : wp (run call)
        (fun calls v => Routed .whole Manned v ∧ (calls = [] ∨ calls = [.attempt reason [.flush]] ∧
          v.chat.usable.length < t.chat.usable.length)) (fun _ _ => True) t)
      (closes : call.closes) : Settles b [call] t := by
    refine .step covered (wp_mono (wp_and closing (run_ran call)) ?_ fun _ _ _ => trivial)
    rintro calls v ⟨⟨routed, rfl | ⟨rfl, less⟩⟩, ran⟩
    · exact .done
    have hlt : v.chat.usable.length < u := by
      have := h.usable
      rw [usable] at less
      omega
    have attempts : v.chat.desk.attempts = s.chat.desk.attempts := by
      rw [← desk]
      cases ran with
      | moved leads => cases leads <;> cases closes
      | closed _ _ gave =>
        rw [gave.desk]
        rfl
      | _ => cases closes
    exact settles_attempt _ (fewer _ hlt) ⟨routed, attempts ▸ h.attempts, le_rfl⟩
  cases ran with
  | closed call_eq => cases Call.closes_of call_eq
  | refusedMidTurn => exact .done
  | moved leads still =>
    cases leads with
    | pause hp => cases hp
    | full idle between =>
      have both : 2 ≤ b := by
        have := h.attempts
        have hd : s.chat.desk.recovery = none := idle
        unfold Desk.attempts at this
        rwa [hd] at this
      exact settles_recoverContext false calm both (dispatch (by omega))
    | abandon active => exact settles_recoveryFailed _ _ _
    | lostLogin idle provider =>
      refine moving _ "provider lost its login" still.desk rfl (wp_mono (unauthenticated_routed provider calm) ?_
        fun _ _ _ => trivial) rfl
      refine fun calls v hv => ⟨hv.1, hv.2.imp id fun left => ⟨left.1, left.2 ?_⟩⟩
      rw [blames provider (.inl rfl), usable]
      exact on
    | fail idle provider kind =>
      refine moving _ "provider failed" still.desk rfl (wp_mono (failed_routed provider kind calm) ?_
        fun _ _ _ => trivial) rfl
      refine fun calls v hv => ⟨hv.1, hv.2.imp id fun left => ⟨left.1, left.2 ?_⟩⟩
      rw [blames provider (.inr ⟨kind, rfl⟩), usable]
      exact on
  | refusedFull active gave =>
    have full : t.chat.turnFailed = some .contextLimit := congrArg Desk.turnFailed gave.desk
    have recovery : t.chat.recovery = s.chat.recovery := congrArg Desk.recovery gave.desk
    have ended := recoveryEnded_full (Event.new .end_) full (by rwa [recovery])
    have routed' : wp (recoveryEnded (Event.new .end_)) (fun _ v => Routed .whole Manned v)
        (fun _ _ => True) t :=
      wp_routed (recoveryEnded_routed _) calm (fun _ _ => id) fun _ _ _ => trivial
    refine .step rfl (wp_mono (wp_and ended routed') ?_ fun _ _ _ => trivial)
    rintro calls v ⟨rfl | ⟨why', rfl⟩ | ⟨rfl, left⟩, calm'⟩
    · exact .done
    · exact settles_recoveryFailed _ _ _
    · have one : 1 ≤ b := by
        have := h.attempts
        have same : t.chat.desk.attempts = s.chat.desk.attempts := by rw [gave.desk]; rfl
        omega
      exact settles_startHandoff calm' one (dispatch one)

end refusing

section delivering
variable {s : Conf}

/-- Delivering ends: a round takes a message off the queue, tries someone else with one provider
less, or takes recovery a stage further. -/
theorem settles_deliver (b u n : ℕ) (h : Calm b u s) (fed : s.chat.fed)
    (queued : s.chat.outbox.length ≤ n) : Settles b [.deliver] s := by
  induction b using Nat.strong_induction_on generalizing u n s with
  | _ b further =>
  induction u using Nat.strong_induction_on generalizing n s with
  | _ u fewer =>
  induction n using Nat.strong_induction_on generalizing s with
  | _ n shorter =>
  have flush (b' u' : ℕ) (t : Conf) (ht : Calm b' u' t) (lower : b' < b ∨ b' = b ∧ u' < u) :
      Settles b' [.flush] t := by
    refine settles_flush ht fun v hv hfed => ?_
    rcases lower with hb | ⟨rfl, hu⟩
    · exact further b' hb u' _ hv hfed le_rfl
    · exact fewer u' hu _ hv hfed le_rfl
  refine .step rfl (wp_mono (wp_and (deliver_routed h.routed fed) (run_ran .deliver)) ?_
    fun _ _ _ => trivial)
  rintro calls t ⟨⟨routed, fed', usable⟩, ran⟩
  have again (outbox : t.chat.outbox.length < s.chat.outbox.length)
      (recovery : t.chat.desk.attempts = s.chat.desk.attempts) : Settles b [.deliver] t := by
    refine shorter t.chat.outbox.length (by omega) ⟨routed, ?_, ?_⟩ fed' le_rfl
    · exact recovery ▸ h.attempts
    · exact usable ▸ h.usable
  cases ran with
  | closed call_eq => cases Call.closes_of call_eq
  | written delivering gave =>
    have outbox : t.chat.outbox = _ := congrArg Desk.outbox gave.desk
    refine again ?_ (by rw [gave.desk]; rfl)
    rw [outbox, delivering.outbox]
    exact Nat.lt_succ_self _
  | delivered delivering taken gave =>
    have outbox : t.chat.outbox = _ := congrArg Desk.outbox gave.desk
    refine again ?_ (by rw [gave.desk]; rfl)
    rw [outbox, delivering.outbox]
    exact Nat.lt_succ_self _
  | moved leads still =>
    cases leads with
    | pause => exact .done
    | refuse runner message rest why delivering =>
      have attached : t.chat.runner = some runner := still.runner.trans delivering.runner
      refine settles_refused why ⟨routed, still.desk ▸ h.attempts, usable ▸ h.usable⟩ attached
        (fed' runner attached) ?_ (fun u' hu v hv => flush b u' v hv (.inr ⟨rfl, hu⟩)) ?_
      · intro recovery hr compacting
        have hs : s.chat.recovery = some recovery :=
          (congrArg Desk.recovery still.desk).symm.trans hr
        have free := delivering.free
        unfold Chat.holdsBack at free
        rw [hs] at free
        simp [compacting] at free
      · intro one v hv none_
        exact settles_dispatchQueued ⟨hv, none_.le, le_rfl⟩ fun x hx =>
          flush 0 _ x hx (.inl one)

end delivering

section wakes
variable {s : Conf}

/-- From any state a run leads to, the queue is handed over within one compaction and one
handoff. -/
theorem settles_flush_any (h : Routed .whole Manned s) : Settles 2 [.flush] s :=
  settles_flush ⟨h, s.chat.desk.attempts_le, le_rfl⟩ fun _ ht fed =>
    settles_deliver 2 _ _ ht fed le_rfl

theorem settles_dispatchQueued_any (h : Routed .whole Manned s) : Settles 2 [.dispatchQueued] s :=
  settles_dispatchQueued ⟨h, s.chat.desk.attempts_le, le_rfl⟩ fun _ ht =>
    settles_flush_any ht.routed

theorem settles_startHandoff_any (h : Routed .whole Manned s) : Settles 2 [.startHandoff] s := by
  refine settles_startHandoff h (by omega) fun t ht none_ => ?_
  refine settles_dispatchQueued ⟨ht, none_.le, le_rfl⟩ fun v hv => ?_
  exact settles_flush hv fun x hx fed => settles_deliver 0 _ _ hx fed le_rfl

theorem settles_recoverContext_any (delivered : Bool) (h : Routed .whole Manned s) :
    Settles 2 [.recoverContext delivered] s := by
  refine settles_recoverContext delivered h le_rfl fun t ht none_ => ?_
  refine settles_dispatchQueued ⟨ht, none_.le, le_rfl⟩ fun v hv => ?_
  exact settles_flush hv fun x hx fed => settles_deliver 0 _ _ hx fed le_rfl

theorem settles_attempt_any (why : String) {next : List Call}
    (go : ∀ t, Routed .whole Manned t → Settles 2 next t) (h : Routed .whole Manned s) :
    Settles 2 [.attempt why next] s :=
  settles_attempt why (fun t ht => go t ht.routed) ⟨h, s.chat.desk.attempts_le, le_rfl⟩

theorem settles_finishTurn_any (h : Routed .whole Manned s) : Settles 2 [.finishTurn] s := by
  have flushing (t : Conf) (ht : Routed .whole Manned t) : Settles 2 [.flush, .settleIdle] t :=
    (settles_flush_any ht).append fun c v => settles_idle c v
  refine .step rfl (wp_ran h trivial ?_)
  intro calls t routed ran
  cases ran with
  | closed call_eq => cases Call.closes_of call_eq
  | moved leads => cases leads with | pause hp => cases hp
  | nextTurn => exact .done
  | awaited => exact .done
  | finished _ _ calls_eq =>
    rcases calls_eq with rfl | rfl
    · exact flushing t routed
    · exact settles_attempt_any _ flushing routed

theorem settles_recoveryMessage_any (stage : RecoveryStage) (text : String) (fresh : Bool)
    (h : Routed .whole Manned s) : Settles 2 [.recoveryMessage stage text fresh] s := by
  refine .step rfl (wp_ran h trivial ?_)
  intro calls t routed ran
  cases ran with
  | closed call_eq => cases Call.closes_of call_eq
  | moved leads => cases leads with | pause hp => cases hp
  | queued => exact settles_dispatchQueued_any routed
  | queuedFresh => exact settles_dispatchQueued_any routed

theorem settles_recoveryEnded_any (end_ : Event) (h : Routed .whole Manned s) :
    Settles 2 [.recoveryEnded end_] s := by
  refine .step rfl (wp_ran h trivial ?_)
  intro calls t routed ran
  cases ran with
  | closed call_eq => cases Call.closes_of call_eq
  | moved leads => cases leads with | pause hp => cases hp
  | nothingToEnd => exact .done
  | proceeded _ proceeds =>
    cases proceeds with
    | compactionFailed => exact settles_startHandoff_any routed
    | repeatTurn => exact settles_recoveryMessage_any _ _ _ routed
    | stillFull => exact settles_startHandoff_any routed
    | giveUp => exact settles_recoveryFailed _ _ _
    | continue_ => exact settles_recoveryMessage_any _ _ _ routed
  | advanced _ advances =>
    cases advances with
    | retryQueued => exact settles_dispatchQueued_any routed
    | compacted => exact settles_finishTurn_any routed
    | resumeQueued => exact settles_dispatchQueued_any routed
    | complete _ _ _ calls_eq =>
      rcases calls_eq with rfl | rfl
      · exact settles_finishTurn_any routed
      · exact settles_attempt_any _ (fun _ ht => settles_finishTurn_any ht) routed

theorem settles_closing_any {call : Call} (closes : call.closes) (h : Routed .whole Manned s) :
    Settles 2 [call] s := by
  have covered : call.spend 2 = some 2 := by cases call <;> first | rfl | cases closes
  have cleared : call.Cleared s.chat := by cases call <;> trivial
  refine .step covered (wp_ran h cleared ?_)
  intro calls t routed ran
  cases ran with
  | closed _ calls_eq =>
    rcases calls_eq with rfl | rfl
    · exact .done
    · exact settles_attempt_any _ (fun _ ht => settles_flush_any ht) routed
  | moved leads => cases leads <;> first | exact .done | cases closes
  | _ => cases closes

/-- What the conductor does about one event of a runner. -/
theorem settles_absorb_any (epoch : ℕ) (report : Report) (h : Routed .whole Manned s) :
    Settles 2 [.absorb epoch report] s := by
  refine .step rfl (wp_ran h trivial ?_)
  intro calls t routed ran
  cases ran with
  | closed call_eq => cases Call.closes_of call_eq
  | moved leads => cases leads with | pause => exact .done
  | late => exact .done
  | confirmed => exact .done
  | reacted _ _ _ reacted =>
    cases reacted with
    | drained => exact .done
    | drainedEnd => exact .done
    | heard => exact .done
    | fatalCompacting => exact settles_startHandoff_any routed
    | fatalRecovering => exact settles_recoveryFailed _ _ _
    | lostLogin => exact settles_closing_any rfl routed
    | crashed => exact settles_closing_any rfl routed
    | endedRecovering => exact settles_recoveryEnded_any _ routed
    | endedFull => exact settles_recoverContext_any _ routed
    | endedFailed => exact settles_closing_any rfl routed
    | endedDone => exact settles_finishTurn_any routed

theorem settles_launchOnce_any (h : Routed .whole Manned s) : Settles 2 [.launchOnce] s := by
  refine .step rfl (wp_ran h trivial ?_)
  intro calls t routed ran
  cases ran with
  | closed call_eq => cases Call.closes_of call_eq
  | moved leads =>
    cases leads with
    | pause => exact .done
    | launch => exact settles_flush_any routed
    | start => exact settles_attempt_any _ (fun _ ht => settles_flush_any ht) routed
    | resume =>
      refine .step rfl (wp_ran routed trivial ?_)
      intro calls v routed' ran'
      cases ran' with
      | closed call_eq => cases Call.closes_of call_eq
      | refolded => exact settles_recoveryEnded_any _ routed'
      | moved leads =>
        cases leads with
        | pause => exact .done
        | rotate => exact settles_startHandoff_any routed'
        | retry => exact settles_attempt_any _ (fun _ ht => settles_flush_any ht) routed'

theorem settles_apply_any (changes : List Change) (h : Routed .whole Manned s) :
    Settles 2 [.apply changes] s := by
  induction changes generalizing s with
  | nil =>
    refine .step rfl (wp_ran h trivial ?_)
    intro calls t _ ran
    cases ran with
    | closed call_eq => cases Call.closes_of call_eq
    | moved leads => cases leads with | pause => exact .done
  | cons change rest ih =>
    refine .step rfl (wp_ran h trivial ?_)
    intro calls t routed ran
    cases ran with
    | closed call_eq => cases Call.closes_of call_eq
    | moved leads =>
      cases leads with
      | pause => exact .done
      | apply => exact ih routed

omit [Host] in
theorem Reacted.of_stopping {d d' : Desk} {autoremove : Bool} {e : Event} {calls : List Call}
    {obs : List Obs} (h : Reacted d autoremove e calls d' obs) (stopping : d.stopping) :
    calls = [] ∧ d'.stopping := by
  cases h with
  | drained => exact ⟨rfl, stopping⟩
  | drainedEnd => exact ⟨rfl, stopping⟩
  | _ => simp_all

/-- While it is being stopped the conductor only takes in what it hears. -/
theorem settles_drained (b : ℕ) (drained : List (ℕ × Report)) (h : Routed .whole Manned s)
    (stopping : s.chat.desk.stopping) :
    Settles b (drained.map (fun (epoch, report) => .absorb epoch report) ++ [.stopped, .publish])
      s := by
  induction drained generalizing s with
  | nil =>
    refine .step rfl (wp_ran h trivial ?_)
    intro calls t _ ran
    cases ran with
    | closed call_eq => cases Call.closes_of call_eq
    | moved leads => cases leads with | pause hp => cases hp
    | stopped => exact settles_publish _ _
  | cons event rest ih =>
    obtain ⟨epoch, report⟩ := event
    refine .step rfl (wp_ran h trivial ?_)
    intro calls t routed ran
    cases ran with
    | closed call_eq => cases Call.closes_of call_eq
    | moved leads still => cases leads with | pause => exact ih routed (still.desk ▸ stopping)
    | late _ _ gave => exact ih routed (gave.desk ▸ stopping)
    | confirmed _ _ gave => exact ih routed (by rw [gave.desk]; exact stopping)
    | reacted _ _ _ reacted gave =>
      obtain ⟨rfl, still⟩ := reacted.of_stopping stopping
      exact ih routed (gave.desk ▸ still)

theorem settles_wake (wake : Wake) (h : Routed .whole Manned s) : Settles 2 wake.calls s := by
  have publishing (b : ℕ) (t : Conf) : Settles b [.publish] t := settles_publish b t
  have enqueued (text : String) {rest : List Call}
      (then_ : ∀ t, Routed .whole Manned t → Settles 2 rest t) :
      Settles 2 (.enqueue text :: rest) s := by
    refine .step rfl (wp_ran h trivial ?_)
    intro calls t routed ran
    cases ran with
    | closed call_eq => cases Call.closes_of call_eq
    | moved leads => cases leads with | pause hp => cases hp
    | enqueued => exact then_ t routed
  cases wake with
  | launch => exact (settles_launchOnce_any h).append publishing
  | launchReady => exact (settles_launchOnce_any h).append publishing
  | send text =>
    exact enqueued text fun t ht => (settles_dispatchQueued_any ht).append publishing
  | sendDurable text =>
    refine enqueued text fun t ht => .step rfl (wp_ran ht trivial ?_)
    intro calls v routed ran
    cases ran with
    | closed call_eq => cases Call.closes_of call_eq
    | moved leads =>
      cases leads with
      | pause => exact (settles_dispatchQueued_any routed).append publishing
  | heard epoch report => exact (settles_absorb_any epoch report h).append publishing
  | set change => exact (settles_apply_any _ h).append publishing
  | configure changes => exact (settles_apply_any _ h).append publishing
  | stop drained =>
    refine .step rfl (wp_ran h trivial ?_)
    intro calls t routed ran
    cases ran with
    | closed call_eq => cases Call.closes_of call_eq
    | moved leads => cases leads with | pause hp => cases hp
    | shutting gave => exact settles_drained 2 drained routed (by rw [gave.desk]; rfl)

end wakes
def Obs.isCompacted : Obs → Bool
  | compacted _ _ => true
  | _ => false

/-- How often a native compaction was asked for. -/
def compactions (trace : List Obs) : ℕ := trace.countP Obs.isCompacted

omit [Host] in
theorem compactions_of_guarded {s : Conf} {past : List Obs} (h : s.Guarded ⟨past, false⟩) :
    compactions s.trace = compactions past := by
  obtain ⟨os, trace, passes⟩ := h
  unfold compactions
  rw [trace, List.countP_append]
  have none_ : os.countP Obs.isCompacted = 0 := by
    refine List.countP_eq_zero.mpr fun o ho hc => ?_
    have pass := passes o ho
    cases o with
    | compacted => cases pass
    | _ => cases hc
  rw [none_, Nat.zero_add]

omit [Host] in
theorem compactions_published (events : List Event) (trace : List Obs) :
    compactions ((events.map Obs.published).reverse ++ trace) = compactions trace := by
  have none_ : (events.map Obs.published).reverse.countP Obs.isCompacted = 0 := by
    refine List.countP_eq_zero.mpr fun o ho hc => ?_
    obtain ⟨_, _, rfl⟩ := List.mem_map.mp (List.mem_reverse.mp ho)
    cases hc
  unfold compactions
  rw [List.countP_append, none_, Nat.zero_add]

section compacting
variable {s : Conf} {D : List String → List String → Prop}

omit [Host] in
/-- From any moment on, a watch that lets no compaction be asked for. -/
theorem Routed.fromNow {w : Watch} (h : Routed w D s) : Routed ⟨s.trace, false⟩ D s :=
  ⟨⟨[], rfl, by simp⟩, h.wheel⟩

omit [Host] in
theorem recoverContext_compactions (delivered : Bool) (h : Routed .whole Manned s) :
    wp (recoverContext delivered)
      (fun _ t => compactions t.trace ≤ compactions s.trace + 1)
      (fun _ t => compactions t.trace ≤ compactions s.trace + 1) s := by
  unfold recoverContext
  rw [wp_bind, wp_self, wp_bind]
  refine wp_routed (saveRecovery_routed _ _ _) h.fromNow (fun _ t ht => ?_) fun _ t ht => ?_
  · have same := compactions_of_guarded ht.trace
    rw [wp_bind, wp_change]
    split
    next runner _ =>
      simp only [wp_bind, wp_asks, wp_note]
      have asked : Routed ⟨.compacted runner
          ((t.env.compact t.calls runner).toOption = some true) :: t.trace, false⟩ Manned
          { t with
            calls := t.calls + 1
            trace := .compacted runner ((t.env.compact t.calls runner).toOption = some true)
              :: t.trace
            chat := { t.chat with turnFailed := none } } := ⟨⟨[], rfl, by simp⟩, ht.wheel⟩
      have once : compactions (.compacted runner
          ((t.env.compact t.calls runner).toOption = some true) :: t.trace) =
            compactions s.trace + 1 := by
        rw [← same]
        exact List.countP_cons_of_pos rfl
      rw [wp_ite]
      constructor
      · intro _
        rw [wp_bind, wp_change]
        refine wp_routed (holds_bind (settle_routed _) fun _ => holds_bind (record_routed _)
          fun _ => holds_pure _) (asked.same (t := { t with
            calls := t.calls + 1
            trace := .compacted runner ((t.env.compact t.calls runner).toOption = some true)
              :: t.trace
            chat := { t.chat with
              turnFailed := none, compactionDeadline := true, inTurn := true } }) rfl rfl)
          (fun _ v hv => ?_) fun _ v hv => ?_
        · exact ((compactions_of_guarded hv.trace).trans once).le
        · exact ((compactions_of_guarded hv).trans once).le
      · exact fun _ => once.le
    next => exact same.le.trans (Nat.le_succ _)
  · exact (compactions_of_guarded ht).le.trans (Nat.le_succ _)

end compacting

def Call.isHandoff : Call → Bool
  | .startHandoff => true
  | _ => false

def Call.isRecoverContext : Call → Bool
  | .recoverContext _ => true
  | _ => false

omit [Host] in
/-- Calls a budget covers are at most one handoff, and at most one recovery before it. -/
theorem covered_once {calls : List Call} {b c : ℕ} (h : calls.foldlM Call.spend b = some c) :
    calls.countP Call.isHandoff ≤ min b 1 ∧ calls.countP Call.isRecoverContext ≤ b - 1 := by
  induction calls generalizing b with
  | nil => simp
  | cons call rest ih =>
    obtain ⟨b', covered, more⟩ := Option.bind_eq_some_iff.mp h
    obtain ⟨handoffs, recoveries⟩ := ih more
    cases call with
    | startHandoff =>
      simp only [Call.spend, Option.ite_none_right_eq_some, Option.some.injEq] at covered
      rw [List.countP_cons_of_pos rfl, List.countP_cons_of_neg (by decide)]
      omega
    | recoverContext delivered =>
      simp only [Call.spend, Option.ite_none_right_eq_some, Option.some.injEq] at covered
      rw [List.countP_cons_of_neg (by simp [Call.isHandoff]), List.countP_cons_of_pos rfl]
      omega
    | _ =>
      obtain rfl := Option.some.inj covered
      exact ⟨handoffs, recoveries⟩

/-- The moves that start a wake: one that arrives, and the deadline of a compaction. -/
def Move.wakes : Move → Bool
  | .receive _ _ | .deadline _ => true
  | _ => false

namespace System

/-- Run up to `n` of the calls there are to make: which they were, and what is left then. -/
def drive : ℕ → System → List Call × System
  | 0, s => ([], s)
  | n + 1, s =>
      match s.stack, s.advance with
      | call :: _, some t => (call :: (drive n t).1, (drive n t).2)
      | _, _ => ([], s)

/-- Calls that finish are made by finitely many moves. -/
theorem drive_finishes {b : ℕ} {stack : List Call} {conf : Conf} (h : Settles b stack conf) :
    ∃ n, ((drive n ⟨conf, stack, false⟩).2.stack = [] ∨
        (drive n ⟨conf, stack, false⟩).2.ended = true) ∧
      ∃ c, (drive n ⟨conf, stack, false⟩).1.foldlM Call.spend b = some c := by
  induction h with
  | done => exact ⟨0, .inl rfl, _, rfl⟩
  | @call b c call rest s covered _ ih =>
    have once {t : System} (advance : (⟨s, call :: rest, false⟩ : System).advance = some t) (n : ℕ) :
        drive (n + 1) ⟨s, call :: rest, false⟩ = (call :: (drive n t).1, (drive n t).2) := by
      rw [drive, advance]
    cases hrun : run call s with
    | ok more t =>
      have advance : (⟨s, call :: rest, false⟩ : System).advance =
          some ⟨t, more ++ rest, (more ++ rest).isEmpty && t.chat.stopping⟩ := by
        unfold System.advance
        dsimp only
        rw [hrun]
      by_cases hended : ((more ++ rest).isEmpty && t.chat.stopping) = true
      · rw [hended] at advance
        refine ⟨1, ?_, c, ?_⟩
        · rw [once advance]
          exact .inr rfl
        · rw [once advance]
          simpa [drive] using covered
      · rw [Bool.eq_false_of_not_eq_true hended] at advance
        obtain ⟨n, settled, d, hd⟩ := ih more t hrun
        refine ⟨n + 1, ?_, d, ?_⟩
        · rw [once advance]
          exact settled
        · rw [once advance, List.foldlM_cons, covered]
          exact hd
    | error e t =>
      have advance : ∃ u, (⟨s, call :: rest, false⟩ : System).advance = some u ∧
          u.ended = true := by
        unfold System.advance
        dsimp only
        rw [hrun]
        cases e
        · exact ⟨_, rfl, rfl⟩
        · exact ⟨_, rfl, rfl⟩
      obtain ⟨u, advance, ended⟩ := advance
      refine ⟨1, ?_, c, ?_⟩
      · rw [once advance]
        exact .inr ended
      · rw [once advance]
        simpa [drive] using covered

/-- Only `recoverContext` asks for a compaction, and once. -/
theorem advance_compactions {s t : System} {call : Call} {rest : List Call} (h : Reachable s)
    (stack : s.stack = call :: rest) (advance : s.advance = some t) :
    compactions t.conf.trace ≤
      compactions s.conf.trace + if call.isRecoverContext then 1 else 0 := by
  obtain ⟨conf, _, ended⟩ := s
  dsimp only at stack
  subst stack
  unfold System.advance at advance
  cases ended with
  | true => simp at advance
  | false =>
    have authority := ((authority_invariant fun _ _ => True).holds h).live rfl
    have counted : wp (run call)
        (fun _ t => compactions t.trace ≤
          compactions conf.trace + if call.isRecoverContext then 1 else 0)
        (fun _ t => compactions t.trace ≤
          compactions conf.trace + if call.isRecoverContext then 1 else 0) conf := by
      by_cases hr : ∃ delivered, call = .recoverContext delivered
      · obtain ⟨delivered, rfl⟩ := hr
        exact recoverContext_compactions delivered authority.routed
      · have allowed : ∀ delivered, call ≠ .recoverContext delivered := by
          exact fun delivered he => hr ⟨delivered, he⟩
        refine wp_mono (run_routed authority.routed.fromNow authority.primed.1 (.inr allowed)) ?_ ?_
        · exact fun _ t ht =>
            (compactions_of_guarded ht.1.trace).le.trans (Nat.le_add_right _ _)
        · exact fun _ t ht => (compactions_of_guarded ht).le.trans (Nat.le_add_right _ _)
    unfold wp at counted
    dsimp only at advance counted
    cases hrun : run call conf with
    | ok more u =>
      rw [hrun] at advance counted
      cases advance
      exact counted
    | error e u =>
      rw [hrun] at advance counted
      cases e with
      | failed =>
        cases advance
        exact (compactions_published _ _).le.trans counted
      | cut =>
        cases advance
        exact counted

theorem drive_compactions (n : ℕ) {s : System} (h : Reachable s) :
    compactions (drive n s).2.conf.trace ≤
      compactions s.conf.trace + (drive n s).1.countP Call.isRecoverContext := by
  induction n generalizing s with
  | zero => exact le_rfl
  | succ n ih =>
    rw [drive]
    split
    next call rest t stack advance =>
      have one := advance_compactions h stack advance
      have more := ih (s := t) (.step (m := .advance) h trivial advance)
      rw [List.countP_cons]
      dsimp only
      omega
    next => exact le_rfl

/-- A wake is always handled in finitely many calls, whatever the runners and the registry answer,
and while it is handled one native compaction and one handoff are tried at most. -/
theorem wake_finishes {s u : System} {m : Move} (h : Reachable s) (wakes : m.wakes)
    (step : s.step m = some u) :
    ∃ n, ((drive n u).2.stack = [] ∨ (drive n u).2.ended = true) ∧
      (drive n u).1.countP Call.isHandoff ≤ 1 ∧
        compactions (drive n u).2.conf.trace ≤ compactions s.conf.trace + 1 := by
  have reach : Reachable u := .step h trivial step
  have settles : u.ended = false ∧ u.conf.trace = s.conf.trace ∧ Settles 2 u.stack u.conf := by
    have routed (live : u.ended = false) : Routed .whole Manned u.conf :=
      (((authority_invariant fun _ _ => True).holds reach).live live).routed
    obtain ⟨conf, stack, ended⟩ := s
    cases m with
    | receive wake env =>
      dsimp only [System.step] at step
      split at step
      next waiting =>
        obtain ⟨⟨-, rfl⟩, -⟩ : (stack = [] ∧ ended = false) ∧ _ := by
          simpa [System.waiting] using waiting.1
        cases step
        exact ⟨rfl, rfl, settles_wake wake (routed rfl)⟩
      next => cases step
    | deadline env =>
      dsimp only [System.step] at step
      split at step
      next due =>
        obtain ⟨-, rfl, -⟩ : stack = [] ∧ ended = false ∧ _ := by simpa using due
        cases step
        exact ⟨rfl, rfl,
          (settles_startHandoff_any (routed rfl)).append fun c t => settles_publish c t⟩
      next => cases step
    | _ => cases wakes
  obtain ⟨live, trace, settles⟩ := settles
  obtain ⟨conf, stack, ended⟩ := u
  dsimp only at live trace settles
  subst live
  obtain ⟨n, finished, c, covered⟩ := drive_finishes settles
  obtain ⟨handoffs, recoveries⟩ := covered_once covered
  refine ⟨n, finished, handoffs, ?_⟩
  have counted := drive_compactions n reach
  dsimp only at counted
  rw [trace] at counted
  omega

end System
end

section samples
attribute [local instance] Host.ascii

/-- A world in which every session is full. -/
def Env.full : Env := { Env.ascii with send := fun _ _ => .error "context limit" }

/-- One message into a full session tries a compaction and then a handoff, and ends. -/
theorem System.wake_finishes_full :
    ∃ s u : System, s.step (.receive (.sendDurable "go on") Env.full) = some u ∧
      ∃ n, ((drive n u).2.stack = [] ∨ (drive n u).2.ended = true) ∧
        (drive n u).1.countP Call.isHandoff ≤ 1 ∧
          compactions (drive n u).2.conf.trace ≤ compactions s.conf.trace + 1 := by
  have run : ∃ s, System.after "chat" ["claude-code"] Env.full [] = some s ∧
      ∃ u, s.step (.receive (.sendDurable "go on") Env.full) = some u := by
    exact ⟨_, rfl, _, Option.eq_some_of_isSome (by decide +kernel)⟩
  obtain ⟨s, hs, u, hu⟩ := run
  exact ⟨s, u, hu, System.wake_finishes (System.reachable_after hs) rfl hu⟩

end samples
end SiliconOmni
