import SiliconOmni.Chat.Authority
import SiliconOmni.Chat.Tending

/-! Nothing changes in the middle of a turn: the attached runner is left alone until its turn ends,
and no message is handed to one that the settings have moved away from. -/
namespace SiliconOmni
open Lib Frame

/-- The runner is retuned, set aside, interrupted or put down. -/
def Obs.disturbs (runner : Handle) : Obs → Bool
  | .retuned other _ _ _ | .parked other | .stopped other | .interrupted other => other = runner
  | _ => false

/-- An END, or an error the runner will not retry past by itself. -/
def Report.steers (report : Report) : Bool :=
  report.type = .end_ || (report.type = .error && !(report.heard 0).willRetry)

/-- What may move the attached runner in the middle of its turn: its own word that the turn is over, a
stop, and the launch barrier where recovery was already taken up before it. -/
def Wake.steers (c : Chat) : Wake → Bool
  | .stop _ => true
  | .heard epoch report => c.runnerEpoch = some epoch && report.steers
  | .launch | .launchReady => !c.launchedOnce && c.recovery.isSome
  | _ => false

/-- Who is attached, whether the conductor has been launched or told to stop, and how far recovery is. -/
def Chat.stance (c : Chat) : Option Handle × Option ℕ × Bool × Bool × Option Recovery :=
  (c.runner, c.runnerEpoch, c.launchedOnce, c.stopping, c.recovery)

/-- `t` comes after `s` with the same runner, undisturbed, and the turn still open. -/
structure Gentle (s t : Conf) : Prop where
  stance : t.chat.stance = s.chat.stance
  inTurn : s.chat.inTurn = true → t.chat.inTurn = true
  env : t.env = s.env
  trace : ∃ os, t.trace = os ++ s.trace ∧ ∀ o ∈ os, ∀ runner, o.disturbs runner = false

namespace Gentle
variable {s t u : Conf}

theorem of_same (stance : t.chat.stance = s.chat.stance)
    (inTurn : s.chat.inTurn = true → t.chat.inTurn = true) (env : t.env = s.env)
    (trace : t.trace = s.trace) : Gentle s t := ⟨stance, inTurn, env, [], trace, by simp⟩

theorem refl (s : Conf) : Gentle s s := of_same rfl id rfl rfl

theorem trans (h : Gentle s t) (h' : Gentle t u) : Gentle s u where
  stance := h'.stance.trans h.stance
  inTurn := h'.inTurn ∘ h.inTurn
  env := h'.env.trans h.env
  trace := by
    obtain ⟨os, ho, hos⟩ := h.trace
    obtain ⟨ps, hp, hps⟩ := h'.trace
    refine ⟨ps ++ os, by rw [hp, ho, List.append_assoc], fun o hm => ?_⟩
    rcases List.mem_append.mp hm with hm | hm
    · exact hps o hm
    · exact hos o hm

theorem runner (h : Gentle s t) : t.chat.runner = s.chat.runner := congrArg (·.1) h.stance

theorem epoch (h : Gentle s t) : t.chat.runnerEpoch = s.chat.runnerEpoch :=
  congrArg (·.2.1) h.stance

theorem launched (h : Gentle s t) : t.chat.launchedOnce = s.chat.launchedOnce :=
  congrArg (·.2.2.1) h.stance

theorem recovery (h : Gentle s t) : t.chat.recovery = s.chat.recovery :=
  congrArg (·.2.2.2.2) h.stance

end Gentle

/-- Steps that leave the attached runner and the open turn alone. -/
def gently : Frame Conf where
  live := Gentle
  halted _ _ := True
  refl := Gentle.refl
  trans := Gentle.trans
  trans_halted _ _ := trivial

section steps
variable {α : Type} {s t : Conf}

theorem change_gently {f : Chat → Chat} (same : ∀ c, (f c).stance = c.stance)
    (inTurn : ∀ c, c.inTurn = true → (f c).inTurn = true) : gently.Holds (change f) :=
  fun s => .of_same (same s.chat) (inTurn s.chat) rfl rfl

theorem notes_gently {os : List Obs} (gentle : ∀ o ∈ os, ∀ runner, o.disturbs runner = false) :
    gently.Holds (notes os) := fun _ => ⟨rfl, id, rfl, os, rfl, gentle⟩

theorem note_gently {o : Obs} (gentle : ∀ runner, o.disturbs runner = false) : gently.Holds (note o) :=
  fun _ => ⟨rfl, id, rfl, [o], rfl, by simpa using gentle⟩

theorem asks_gently (question : Env → ℕ → α) : gently.Holds (asks question) :=
  fun _ => .of_same rfl id rfl rfl

theorem become_gently (status : Status) : gently.Holds (become status) :=
  fun _ => .of_same rfl id rfl rfl

theorem busy_gently (calls : List Call) : gently.Holds (do become .busy; return calls) :=
  holds_bind (become_gently _) fun _ => holds_pure _

theorem commit_gently (action : String) (edit : MetaData → MetaData) :
    gently.Holds (commit action edit) := fun _ =>
  wp_commit (fun _ => .of_same rfl id rfl rfl) fun _ _ _ => trivial

theorem record_gently (event : Event) : gently.Holds (record event) := fun _ =>
  wp_record (.of_same rfl id rfl rfl) fun _ _ _ => trivial

theorem remember_gently : gently.Holds rememberRunnerTurn :=
  change_gently (fun _ => rfl) fun _ => id

theorem confirming_gentle (c : Chat) (opening : EventType) (seq : ℤ) :
    ∀ o ∈ c.confirming opening seq, ∀ runner, o.disturbs runner = false := by
  unfold Chat.confirming
  split
  · split <;> simp [Obs.disturbs]
  · simp

theorem confirm_gently (event : Event) : gently.Holds (confirm event) := by
  unfold confirm
  refine holds_bind Admits.holds_self fun c => ?_
  split
  · refine holds_ite ?_ (holds_pure _)
    refine holds_bind (record_gently _) fun event => ?_
    refine holds_bind (notes_gently (confirming_gentle c _ _)) fun _ => ?_
    refine holds_bind (change_gently (fun _ => rfl) fun _ => id) fun _ => ?_
    refine holds_bind remember_gently fun _ => holds_bind (commit_gently _ _) fun _ => ?_
    refine holds_bind (change_gently (fun _ => rfl) fun _ => id) fun _ => ?_
    refine holds_bind (change_gently (fun _ => rfl) fun _ => id) fun _ => ?_
    refine holds_bind (change_gently (fun _ => rfl) fun _ _ => rfl) fun _ => ?_
    exact busy_gently _
  · exact holds_pure _

theorem deliver_gently : gently.Holds deliver := by
  have sent (runner : Handle) (message : PendingMessage) (delivery : Option Delivery) (dial : List String) :
      gently.Holds (note (.sent runner message delivery dial)) :=
    note_gently fun _ => rfl
  unfold deliver
  refine holds_bind Admits.holds_self fun c => ?_
  split
  · refine holds_ite (holds_pure _) (holds_bind (asks_gently _) fun answer => ?_)
    refine holds_bind (sent _ _ _ _) fun _ => ?_
    split
    · exact holds_pure _
    · refine holds_bind (change_gently (fun _ => rfl) fun _ _ => rfl) fun _ => ?_
      exact busy_gently _
    · refine holds_bind (record_gently _) fun event => ?_
      refine holds_bind (notes_gently ?_) fun _ => ?_
      · split <;> simp [Obs.disturbs]
      refine holds_bind (change_gently (fun _ => rfl) fun _ => id) fun _ => ?_
      refine holds_bind remember_gently fun _ => holds_bind (commit_gently _ _) fun _ => ?_
      refine holds_bind (change_gently (fun _ => rfl) fun _ => id) fun _ => ?_
      refine holds_bind (change_gently (fun _ => rfl) fun _ _ => rfl) fun _ => ?_
      exact busy_gently _
  · exact holds_pure _

variable [Host]

theorem enqueue_gently (text : String) : gently.Holds (enqueue text) := by
  unfold enqueue
  refine holds_bind (fun _ => .of_same rfl id rfl rfl) fun _ => holds_bind (commit_gently _ _) fun _ => ?_
  refine holds_bind (change_gently (fun _ => rfl) fun _ => id) fun _ => ?_
  refine holds_bind (become_gently _) fun _ => ?_
  exact holds_bind (note_gently fun _ => rfl) fun _ => holds_pure _

theorem apply_gently (changes : List Change) : gently.Holds (apply changes) := by
  have set_ {key : String} {value : Value} {action : String} {f : Chat → Chat} {answer : String × Fields}
      (same : ∀ c, (f c).stance = c.stance) (inTurn : ∀ c, c.inTurn = true → (f c).inTurn = true) :
      gently.Holds (do saveSetting key value action; change f; return answer) :=
    holds_bind (commit_gently _ _) fun _ => holds_bind (change_gently same inTurn) fun _ => holds_pure _
  cases changes with
  | nil => exact holds_pure _
  | cons first rest =>
    refine holds_bind ?_ fun answer => holds_bind (record_gently _) fun _ => ?_
    · cases first with
      | cwd path => exact holds_bind Admits.holds_self fun c => set_ (fun _ => rfl) fun _ => id
      | _ => exact set_ (fun _ => rfl) fun _ => id
    · exact holds_bind (fun _ => .of_same rfl id rfl rfl) fun _ => holds_pure _

omit [Host] in
theorem publish_gently : gently.Holds (do publish; return ([] : List Call)) := by
  intro s
  refine ⟨rfl, id, rfl, _, rfl, fun o member runner => ?_⟩
  obtain ⟨_, -, rfl⟩ := List.mem_map.mp (List.mem_reverse.mp member)
  rfl

omit [Host] in
/-- An event that is neither an END nor a failure makes the conductor do nothing more. -/
theorem react_gently {event : Event} (open_ : event.eventType ≠ .end_)
    (retried : ¬(event.is .error ∧ !event.willRetry)) :
    wp (react event) (fun calls t => Gentle s t ∧ calls = []) (fun _ _ => True) s := by
  have notEnd : event.is .end_ = false := decide_eq_false open_
  unfold react
  simp only [wp_bind, wp_self, notEnd, Bool.false_eq_true, if_false, retried]
  split
  · exact ⟨.refl s, rfl⟩
  · split
    · simp only [wp_bind, wp_change, wp_become]
      exact ⟨.of_same rfl id rfl rfl, rfl⟩
    · exact ⟨.refl s, rfl⟩

/-- Whether a report will be retried past does not change on its way in. -/
theorem logged_willRetry (c : Chat) (epoch : ℕ) (report : Report) (late : Bool) :
    (c.logged (c.takenIn epoch report late)).willRetry = (report.heard 0).willRetry := by
  have same (n : ℕ) : (Entries.insert report.extra RUNNER_EPOCH (.number n)).lookup "willRetry" =
      report.extra.lookup "willRetry" := Entries.lookup_insert_ne _ _ (by decide)
  have kept : (c.logged (c.takenIn epoch report late)).extra.lookup "willRetry" =
      report.extra.lookup "willRetry" :=
    (lookup_admitted _ _ (by decide) (by decide) (by decide)).trans (same epoch)
  unfold Event.willRetry Event.flag
  rw [kept, show (report.heard 0).extra.lookup "willRetry" = report.extra.lookup "willRetry" from same 0]

theorem absorb_gently {epoch : ℕ} {report : Report}
    (mild : s.chat.runnerEpoch = some epoch → report.steers = false) :
    wp (absorb epoch report) (fun calls t => Gentle s t ∧ calls = []) (fun _ _ => True) s := by
  unfold absorb
  simp only [wp_bind, wp_self]
  apply wp_straggler
  · intro calls
    rw [wp_bind]
    apply wp_repeated
    · exact ⟨.of_same rfl id rfl rfl, rfl⟩
    intro announced
    simp only [Bool.false_eq_true, ↓reduceIte]
    split
    · exact ⟨.of_same rfl id rfl rfl, rfl⟩
    · simp only [wp_bind]
      exact wp_record ⟨.of_same rfl id rfl rfl, rfl⟩ fun _ _ _ => trivial
  · intro calls attached
    have attached : s.chat.runnerEpoch = some epoch := by
      have named : Event.epoch ((report.heard epoch).reclassified.returned s.chat) = some epoch :=
        heard_epoch epoch report
      rw [named] at attached
      exact attached.resolve_right (by simp)
    have mild := mild attached
    rw [wp_bind]
    apply wp_repeated
    · exact ⟨.of_same rfl id rfl rfl, rfl⟩
    intro announced
    simp only [Bool.false_eq_true, ↓reduceIte]
    split
    · have nothing (event : Event) (u : Conf) :
          wp (confirm event) (fun calls _ => calls = []) (fun _ _ => True) u :=
        wp_confirm rfl (fun _ _ _ _ _ _ => rfl) fun _ _ _ _ _ _ _ => trivial
      refine wp_mono (wp_and (confirm_gently _ _) (nothing _ _)) (fun calls t ht => ⟨?_, ht.2⟩) fun _ _ _ => trivial
      refine Gentle.trans ?_ ht.1
      exact .of_same rfl id rfl rfl
    · simp only [wp_bind]
      refine wp_record ?_ fun _ _ _ => trivial
      simp only [wp_bind, wp_self, wp_notes]
      have open_ : report.type.eventType ≠ .end_ := by
        intro heq
        have ends : report.type = .end_ := by
          cases htype : report.type <;> rw [htype] at heq <;> first | rfl | cases heq
        simp [Report.steers, ends] at mild
      have retried (event : Event) (type : event.eventType = report.type.eventType)
          (same : event.willRetry = (report.heard 0).willRetry) :
          ¬(event.is .error ∧ !event.willRetry) := by
        rintro ⟨error, fails⟩
        have errs : report.type = .error := by
          have heq : report.type.eventType = .error := type ▸ of_decide_eq_true error
          cases htype : report.type <;> rw [htype] at heq <;> first | rfl | cases heq
        rw [same] at fails
        simp [Report.steers, errs, fails] at mild
      have shared (runner : Option Handle) (seq : ℤ) :
          ∀ o ∈ runner.toList.map (Obs.shared · seq), ∀ other, o.disturbs other = false := by
        intro o member other
        obtain ⟨_, -, rfl⟩ := List.mem_map.mp member
        rfl
      refine wp_mono (react_gently open_ (retried _ rfl ?_)) (fun calls t ht => ⟨?_, ht.2⟩) fun _ _ _ => trivial
      · exact logged_willRetry s.chat epoch report false
      · refine Gentle.trans ?_ ht.1
        exact ⟨rfl, id, rfl, _, rfl, shared _ _⟩

/-- The calls that a wake makes in the middle of a turn. -/
def Call.Mild (c : Chat) : Call → Prop
  | .enqueue _ | .dispatchQueued | .flush | .deliver | .apply _ | .publish => True
  | .launchOnce => c.launchedOnce = true
  | .absorb epoch report => c.runnerEpoch = some epoch → report.steers = false
  -- a full context is left to the END that the turn still owes
  | .refused why => classify why = .contextLimit ∧ c.recovery = none
  | _ => False

/-- A conductor in the middle of a turn of this runner, which is alive. -/
structure MidTurn (runner : Handle) (s : Conf) (stack : List Call) : Prop where
  attached : s.chat.runner = some runner
  inTurn : s.chat.inTurn = true
  alive : ∀ n, s.env.alive n runner = true
  mild : ∀ call ∈ stack, call.Mild s.chat

/-- The runner has just turned a message down, not because its context is full, or in the middle of a
recovery. -/
def Refused (runner : Handle) (t : Conf) (stack : List Call) : Prop :=
  (∃ m dial, t.trace.head? = some (.sent runner m none dial)) ∧
    ∃ why, stack.head? = some (.refused why) ∧
      (classify why ≠ .contextLimit ∨ t.chat.recovery.isSome = true)

/-- What is running is what the settings ask for, by what the registry answered in this wake. -/
def Conf.InForce (s : Conf) : Prop :=
  ∀ signature, s.chat.current = some signature → ∃ n < s.calls, ∃ rung,
    resolve (s.env.registry n) s.chat.ask s.chat.usable = .ok rung ∧
      signature = s.chat.signature rung

omit [Host] in
theorem asked_gentle {n : ℕ} : Gentle s { s with calls := n } := .of_same rfl id rfl rfl

omit [Host] in
theorem wp_runnerAlive {Q : Bool → Conf → Prop} {H : Halt → Conf → Prop}
    (h : ∀ alive n, (∀ runner, s.chat.runner = some runner → alive = s.env.alive s.calls runner) →
      Q alive { s with calls := n }) : wp runnerAlive Q H s := by
  unfold runnerAlive
  rw [wp_bind, wp_self]
  split
  next runner attached =>
    refine h _ _ fun other same => ?_
    rw [Option.some.inj (attached.symm.trans same)]
  next detached =>
    refine h false s.calls fun runner same => ?_
    cases detached.symm.trans same

theorem wp_stale {Q : Bool → Conf → Prop} {H : Halt → Conf → Prop}
    (h : ∀ yes n, (yes = false → ({ s with calls := n } : Conf).InForce) → Q yes { s with calls := n }) :
    wp stale Q H s := by
  unfold stale
  rw [wp_bind, wp_self]
  split
  next nobody =>
    refine h false s.calls fun _ signature running => ?_
    cases nobody.symm.trans running
  next current running =>
    unfold rung
    simp only [wp_bind, wp_self, wp_asks, wp_pure]
    split
    next pick resolved =>
      refine h _ _ fun fits signature same => ⟨_, Nat.lt_succ_self _, pick, resolved, ?_⟩
      obtain rfl := Option.some.inj (running.symm.trans same)
      simpa using fits
    next =>
      refine h true _ ?_
      rintro ⟨⟩

theorem wp_ready {Q : Bool → Conf → Prop} {H : Halt → Conf → Prop}
    (h : ∀ yes n, (yes = true → ({ s with calls := n } : Conf).InForce) → Q yes { s with calls := n }) :
    wp ready Q H s := by
  unfold ready
  rw [wp_bind]
  refine wp_runnerAlive fun alive n _ => ?_
  cases alive with
  | false => exact h false n (by rintro ⟨⟩)
  | true =>
    simp only [if_true, wp_bind]
    exact wp_stale fun yes m fits => h (!yes) m fun ready => fits (by simpa using ready)

/-- Messages are handed over only where what is running is what the settings ask for. -/
theorem flush_gently :
    wp flush (fun calls t => Gentle s t ∧ (calls = [] ∨ (calls = [.deliver] ∧ t.InForce)))
      (fun _ _ => True) s := by
  have blocked_ (why : String) : gently.Holds (blocked why) :=
    holds_bind (record_gently _) fun _ => become_gently _
  unfold flush
  rw [wp_bind]
  refine wp_ready fun yes n inForce => ?_
  cases yes with
  | true => exact ⟨asked_gentle, .inr ⟨rfl, inForce rfl⟩⟩
  | false =>
    simp only [Bool.false_eq_true, if_false, wp_bind, wp_self]
    rw [wp_ite]
    refine ⟨fun _ => ?_, fun _ => ⟨asked_gentle, .inl rfl⟩⟩
    rw [wp_bind]
    refine wp_runnerAlive fun alive m _ => ?_
    rw [wp_ite]
    refine ⟨fun _ => ?_, fun _ => ⟨asked_gentle, .inl rfl⟩⟩
    rw [wp_bind]
    exact wp_mono (blocked_ _ _) (fun _ t ht => ⟨asked_gentle.trans ht, .inl rfl⟩) fun _ _ => id

/-- In the middle of a turn, what is queued goes straight to the runner that is alive. -/
theorem dispatchQueued_gently {runner : Handle} (attached : s.chat.runner = some runner)
    (alive : ∀ n, s.env.alive n runner = true) (open_ : s.chat.inTurn = true) :
    wp dispatchQueued (fun calls t => Gentle s t ∧ calls = [.flush]) (fun _ _ => True) s := by
  unfold dispatchQueued
  rw [wp_bind]
  refine wp_runnerAlive fun yes n answer => ?_
  rw [answer runner attached, alive]
  simp only [if_true, wp_bind, wp_self, open_]
  exact ⟨asked_gentle, rfl⟩

omit [Host] in
/-- A round of `flush` leaves what is running and what is asked for alone. -/
theorem deliver_calls : wp deliver (fun calls t => t.chat.offDesk = s.chat.offDesk ∧
    (calls = [] ∨ calls = [.deliver] ∨ ∃ runner why, s.chat.runner = some runner ∧
      calls = [.refused why] ∧ ∃ m dial, t.trace.head? = some (.sent runner m none dial)))
    (fun _ _ => True) s := by
  refine wp_deliver ⟨rfl, .inl rfl⟩ ?_ ?_ ?_ fun _ _ _ _ _ _ _ _ => trivial
  · intro runner message rest why t delivering took
    refine ⟨took.rest, .inr (.inr ⟨runner, why, delivering.runner, rfl, message, s.chat.usable, ?_⟩)⟩
    rw [took.trace]
    rfl
  · exact fun _ _ _ _ _ took => ⟨took.rest, .inr (.inl rfl)⟩
  · exact fun _ _ _ _ _ _ _ took => ⟨took.rest, .inr (.inl rfl)⟩

/-- Questions are only ever added to those of a wake. -/
def asking : Frame Conf where
  live s t := s.calls ≤ t.calls
  halted _ _ := True
  refl _ := le_rfl
  trans := le_trans
  trans_halted _ _ := trivial

omit [Host] in
theorem commit_asks (action : String) (edit : MetaData → MetaData) :
    asking.Holds (commit action edit) := by
  have halts (why : String) : asking.Holds (persistenceFailed action why : Conductor Unit) :=
    fun _ => trivial
  have once : asking.Holds (asks Env.commit) := fun s => Nat.le_succ s.calls
  have write : asking.Holds (tryCommit edit) := by
    unfold tryCommit
    refine holds_bind (fun _ => le_rfl) fun c => ?_
    split
    · exact holds_pure _
    · refine holds_ite (holds_pure _) (holds_bind once fun answer => ?_)
      split
      · exact holds_bind (fun _ => le_rfl) fun _ => holds_pure _
      · exact holds_pure _
      · exact holds_bind (fun _ => le_rfl) fun _ _ => trivial
  unfold commit
  refine holds_bind write fun answer => ?_
  split
  · exact holds_pure _
  · exact halts _

omit [Host] in
theorem deliver_asks : asking.Holds deliver := by
  have still {f : Chat → Chat} : asking.Holds (change f) := fun _ => le_rfl
  have note_ {os : List Obs} : asking.Holds (notes os) := fun _ => le_rfl
  have busy : asking.Holds (do become .busy; return [Call.deliver]) :=
    holds_bind (fun _ => le_rfl) fun _ => holds_pure _
  unfold deliver
  refine holds_bind (fun _ => le_rfl) fun c => ?_
  split
  · refine holds_ite (holds_pure _) (holds_bind (fun s => Nat.le_succ s.calls) fun answer => ?_)
    refine holds_bind (fun _ => le_rfl) fun _ => ?_
    split
    · exact holds_pure _
    · exact holds_bind still fun _ => busy
    · refine holds_bind (fun s => wp_record (Nat.le_succ s.calls) fun _ _ _ => trivial) fun event => ?_
      refine holds_bind note_ fun _ => holds_bind still fun _ => holds_bind still fun _ => ?_
      refine holds_bind (commit_asks _ _) fun _ => holds_bind still fun _ => ?_
      exact holds_bind still fun _ => busy
  · exact holds_pure _

theorem MidTurn.next {runner : Handle} {call : Call} {calls rest : List Call}
    (h : MidTurn runner s (call :: rest)) (gentle : Gentle s t)
    (mild : ∀ call ∈ calls, call.Mild t.chat) : MidTurn runner t (calls ++ rest) where
  attached := gentle.runner.trans h.attached
  inTurn := gentle.inTurn h.inTurn
  alive := by
    rw [gentle.env]
    exact h.alive
  mild := by
    intro k member
    rcases List.mem_append.mp member with member | member
    · exact mild k member
    · have before := h.mild k (List.mem_cons_of_mem _ member)
      cases k with
      | absorb => exact fun same => before (gentle.epoch ▸ same)
      | launchOnce => exact gentle.launched.trans before
      | refused => exact ⟨before.1, gentle.recovery.trans before.2⟩
      | _ => exact before

/-- The calls that leave nothing to be made but more changes of settings. -/
theorem Ran.settles {call : Call} {calls : List Call} (ran : Ran s call calls t)
    (kind : (∃ text, call = .enqueue text) ∨ (∃ changes, call = .apply changes) ∨ call = .publish) :
    calls = [] ∨ ∃ rest, calls = [.apply rest] := by
  rcases kind with ⟨_, rfl⟩ | ⟨_, rfl⟩ | rfl
  all_goals
    cases ran with
    | moved leads =>
      cases leads <;> first | exact .inl rfl | exact .inr ⟨_, rfl⟩
    | closed call_eq => rcases call_eq with ⟨_, _, h⟩ | ⟨_, h⟩ <;> cases h
    | _ => exact .inl rfl

/-- A turn goes on past a full context: it still owes its END. -/
theorem refused_gently {why : String} (full : classify why = .contextLimit)
    (idle : s.chat.recovery = none) (open_ : s.chat.inTurn = true) :
    wp (refused why) (fun calls t => Gentle s t ∧ calls = []) (fun _ _ => True) s := by
  unfold refused
  simp only [wp_bind, wp_self, full, if_true]
  refine wp_record ?_ fun _ _ _ => trivial
  simp only [idle, Option.isSome_none, Bool.false_eq_true, if_false, open_, if_true, wp_bind]
  exact ⟨.of_same rfl id rfl rfl, rfl⟩

/-- What one call does in the middle of a turn: nothing to the runner, unless that refuses a
message. -/
theorem run_mild {runner : Handle} {call : Call} {rest : List Call}
    (h : MidTurn runner s (call :: rest)) :
    wp (run call)
      (fun calls t => Gentle s t ∧
        (MidTurn runner t (calls ++ rest) ∨ Refused runner t (calls ++ rest)))
      (fun _ _ => True) s := by
  have within {call : Call} (gentle : gently.Holds (run call)) (h : MidTurn runner s (call :: rest))
      (kind : (∃ text, call = .enqueue text) ∨ (∃ changes, call = .apply changes) ∨ call = .publish) :
      wp (run call) (fun calls t => Gentle s t ∧
        (MidTurn runner t (calls ++ rest) ∨ Refused runner t (calls ++ rest))) (fun _ _ => True) s := by
    refine wp_mono (wp_and (gentle s) (run_ran call)) (fun calls t ht => ⟨ht.1, .inl (h.next ht.1 ?_)⟩)
      fun _ _ _ => trivial
    rcases ht.2.settles kind with rfl | ⟨more, rfl⟩ <;> simp [Call.Mild]
  have mild := h.mild call List.mem_cons_self
  cases call with
  | enqueue text => exact within (enqueue_gently text) h (.inl ⟨text, rfl⟩)
  | apply changes => exact within (apply_gently changes) h (.inr (.inl ⟨changes, rfl⟩))
  | publish => exact within publish_gently h (.inr (.inr rfl))
  | dispatchQueued =>
    refine wp_mono (dispatchQueued_gently h.attached h.alive h.inTurn) (fun calls t ht => ?_) fun _ _ => id
    obtain ⟨gentle, rfl⟩ := ht
    exact ⟨gentle, .inl (h.next gentle (by simp [Call.Mild]))⟩
  | flush =>
    refine wp_mono flush_gently (fun calls t ht => ⟨ht.1, .inl (h.next ht.1 ?_)⟩) fun _ _ => id
    rcases ht.2 with rfl | ⟨rfl, -⟩ <;> simp [Call.Mild]
  | deliver =>
    refine wp_mono (wp_and (deliver_gently s) deliver_calls) (fun calls t ht => ⟨ht.1, ?_⟩) fun _ _ _ => trivial
    rcases ht.2.2 with rfl | rfl | ⟨other, why, attached, rfl, refused⟩
    · exact .inl (h.next ht.1 (by simp))
    · exact .inl (h.next ht.1 (by simp [Call.Mild]))
    · obtain rfl := Option.some.inj (h.attached.symm.trans attached)
      by_cases full : classify why = .contextLimit ∧ t.chat.recovery = none
      · exact .inl (h.next ht.1 (by simpa [Call.Mild] using full))
      · refine .inr ⟨refused, why, rfl, ?_⟩
        rw [Option.isSome_iff_ne_none]
        tauto
  | refused why =>
    refine wp_mono (refused_gently mild.1 mild.2 h.inTurn) (fun calls t ht => ?_) fun _ _ => id
    obtain ⟨gentle, rfl⟩ := ht
    exact ⟨gentle, .inl (h.next gentle (by simp))⟩
  | launchOnce =>
    show wp launchOnce _ _ s
    unfold launchOnce
    have launched : s.chat.launchedOnce = true := mild
    simp only [wp_bind, wp_self, launched, if_true]
    exact ⟨.refl s, .inl (h.next (.refl s) (by simp))⟩
  | absorb epoch report =>
    refine wp_mono (absorb_gently mild) (fun calls t ht => ⟨ht.1, .inl (h.next ht.1 ?_)⟩) fun _ _ => id
    rw [ht.2]
    simp
  | _ => exact mild.elim

end steps

/-- Nothing was handed over between `s` and `t`. -/
def Withheld (s t : Conf) : Prop :=
  ∃ os, t.trace = os ++ s.trace ∧ ∀ o ∈ os, o.isHanded = false

theorem Withheld.of_same {s t : Conf} (trace : t.trace = s.trace) : Withheld s t :=
  ⟨[], trace, by simp⟩

theorem Withheld.trans {s t u : Conf} (h : Withheld s t) (h' : Withheld t u) : Withheld s u := by
  obtain ⟨os, ho, hos⟩ := h
  obtain ⟨ps, hp, hps⟩ := h'
  refine ⟨ps ++ os, by rw [hp, ho, List.append_assoc], fun o hm => ?_⟩
  rcases List.mem_append.mp hm with hm | hm
  · exact hps o hm
  · exact hos o hm

theorem Remains.withheld {s t : Conf} {disk : Disk} (h : Remains s t disk) : Withheld s t := by
  obtain ⟨stops, ht, hstops⟩ := h.trace
  refine ⟨stops, ht, fun o member => ?_⟩
  have stop := hstops o member
  cases o <;> first | rfl | cases stop

/-- Steps that hand nothing over, and after which a conductor that was launched still is. -/
def withholding : Frame Conf where
  live s t := (s.chat.launchedOnce = true → t.chat.launchedOnce = true) ∧ Withheld s t
  halted := Withheld
  refl _ := ⟨id, .of_same rfl⟩
  trans h h' := ⟨h'.1 ∘ h.1, h.2.trans h'.2⟩
  trans_halted h h' := h.2.trans h'

section withholding
variable {α : Type} {s t : Conf}

theorem change_withholds {f : Chat → Chat} (same : ∀ c, (f c).launchedOnce = c.launchedOnce) :
    withholding.Holds (change f) :=
  fun s => ⟨fun launched => (same s.chat).trans launched, .of_same rfl⟩

theorem asks_withholds (question : Env → ℕ → α) : withholding.Holds (asks question) :=
  fun _ => ⟨id, .of_same rfl⟩

theorem notes_withholds {os : List Obs} (kept : ∀ o ∈ os, o.isHanded = false) :
    withholding.Holds (notes os) := fun _ => ⟨id, os, rfl, kept⟩

theorem commit_withholds (action : String) (edit : MetaData → MetaData) :
    withholding.Holds (commit action edit) := fun _ =>
  wp_commit (fun _ => ⟨id, .of_same rfl⟩) fun _ _ h => h.elim Remains.withheld Remains.withheld

theorem record_withholds (event : Event) : withholding.Holds (record event) := fun _ =>
  wp_record ⟨id, .of_same rfl⟩ fun _ _ h => h.elim Remains.withheld Remains.withheld

theorem man_withholds {f : Chat → Chat} (same : ∀ c, (f c).unmanned = c.unmanned) :
    withholding.Holds (change f) := by
  have launched (c : Chat) : (f c).unmanned.launchedOnce = c.unmanned.launchedOnce :=
    congrArg Chat.launchedOnce (same c)
  exact change_withholds launched

theorem withholding_mans : Mans withholding where
  asks := asks_withholds
  notes {os} quiet := by
    refine notes_withholds fun o member => ?_
    have quiet := quiet o member
    cases o with
    | sent runner message delivery => cases delivery <;> first | rfl | cases quiet
    | _ => rfl
  change same _ := man_withholds same
  man := man_withholds
  settle _ := change_withholds fun _ => rfl
  tryCommit _ := fun _ =>
    wp_tryCommit (fun _ => ⟨id, .of_same rfl⟩) (fun _ _ => ⟨id, .of_same rfl⟩) fun _ => Remains.withheld
  halt action error := fun s => (s.abandoned_remains s.calls action error).withheld
  record _ _ := record_withholds _
  build _ := ⟨id, .of_same rfl⟩
  remember := change_withholds fun _ => rfl
  number _ := change_withholds fun _ => rfl

theorem tend_withholds {f : Chat → Chat} (same : ∀ c, (f c).untended = c.untended) :
    withholding.Holds (change f) := by
  have launched (c : Chat) : (f c).untended.launchedOnce = c.untended.launchedOnce :=
    congrArg Chat.launchedOnce (same c)
  exact change_withholds launched

theorem publish_withholds : withholding.Holds (do publish; return ([] : List Call)) := by
  refine fun s => ⟨id, _, rfl, fun o member => ?_⟩
  obtain ⟨_, -, rfl⟩ := List.mem_map.mp (List.mem_reverse.mp member)
  rfl

theorem withholding_tends : Tends withholding where
  admits := withholding_mans.toAdmits
  notes := notes_withholds
  change same _ := tend_withholds same
  commit _ := commit_withholds _ _
  launched := fun _ => ⟨fun _ => rfl, .of_same rfl⟩
  draw _ _ := ⟨id, .of_same rfl⟩
  publish := publish_withholds
  record _ _ := record_withholds _

theorem confirm_withholds (event : Event) : withholding.Holds (confirm event) := by
  unfold confirm
  refine holds_bind Admits.holds_self fun c => ?_
  split
  · refine holds_ite ?_ (holds_pure _)
    refine holds_bind (record_withholds _) fun event => holds_bind (notes_withholds ?_) fun _ => ?_
    · unfold Chat.confirming
      split
      · split <;> simp [Obs.isHanded]
      · simp
    refine holds_bind (change_withholds fun _ => rfl) fun _ => ?_
    refine holds_bind withholding_mans.remember fun _ => holds_bind (commit_withholds _ _) fun _ => ?_
    refine holds_bind (change_withholds fun _ => rfl) fun _ => ?_
    refine holds_bind (tend_withholds fun _ => rfl) fun _ => holds_bind (tend_withholds fun _ => rfl) fun _ => ?_
    exact withholding_tends.busy_holds _
  · exact holds_pure _

variable [Host]

theorem absorb_withholds (epoch : ℕ) (report : Report) : withholding.Holds (absorb epoch report) := by
  unfold absorb
  refine holds_bind Admits.holds_self fun c => ?_
  refine holds_bind (withholding_tends.straggler_holds _) fun late => ?_
  refine holds_bind (withholding_tends.repeated_holds _) fun again => holds_ite (holds_pure _) ?_
  refine holds_ite (holds_ite (holds_pure _) (confirm_withholds _)) ?_
  refine holds_bind (record_withholds _) fun event => holds_bind Admits.holds_self fun d => ?_
  refine holds_ite (holds_bind (change_withholds fun _ => rfl) fun _ => holds_pure _) ?_
  refine holds_bind (notes_withholds fun o member => ?_) fun _ => withholding_tends.react_holds _
  obtain ⟨_, -, rfl⟩ := List.mem_map.mp member
  rfl

theorem apply_withholds (changes : List Change) : withholding.Holds (apply changes) := by
  have set_ {key : String} {value : Value} {action : String} {f : Chat → Chat}
      {what : String × Fields} (same : ∀ c, (f c).launchedOnce = c.launchedOnce) :
      withholding.Holds (do saveSetting key value action; change f; return what) :=
    holds_bind (commit_withholds _ _) fun _ => holds_bind (change_withholds same) fun _ => holds_pure _
  have changed (change : Change) : withholding.Holds (applyChange change) := by
    cases change with
    | cwd path => exact holds_bind Admits.holds_self fun c => set_ fun _ => rfl
    | _ => exact set_ fun _ => rfl
  cases changes with
  | nil => exact holds_pure _
  | cons change rest =>
    unfold apply
    refine holds_bind (changed change) fun what => holds_bind (record_withholds _) fun _ => ?_
    exact holds_bind withholding_mans.refresh_holds fun _ => holds_pure _

theorem unauthenticated_withholds (provider : String) :
    withholding.Holds (unauthenticated provider) := by
  have dial := withholding_mans.of_unmanned
  unfold unauthenticated
  refine holds_bind Admits.holds_self fun c => holds_bind (withholding_tends.closeTurn_holds _ _ _) fun _ => ?_
  refine holds_ite (holds_pure _) (holds_ite (holds_pure _) ?_)
  refine holds_bind (commit_withholds _ _) fun _ => holds_bind (change_withholds fun _ => rfl) fun _ => ?_
  refine holds_bind (dial.movedOn_holds _ _) fun _ => ?_
  exact holds_bind dial.anyoneLeft_holds fun left => holds_ite (holds_pure _) (holds_pure _)

/-- Messages leave the conductor in `deliver` alone. -/
theorem run_withholds {call : Call} (other : call ≠ .deliver) : withholding.Holds (run call) := by
  cases call with
  | deliver => exact absurd rfl other
  | absorb epoch report => exact absorb_withholds epoch report
  | apply changes => exact apply_withholds changes
  | unauthenticated provider => exact unauthenticated_withholds provider
  | shutdown => exact withholding_tends.shutdown_holds (change_withholds fun _ => rfl)
  | stopped => exact withholding_tends.stopped_holds (man_withholds fun _ => rfl)
  | replace rung why next => exact withholding_mans.attemptReplace_holds rung why next
  | _ => exact withholding_tends.run_holds rfl

theorem run_lasts (call : Call) :
    wp (run call) (fun _ t => s.chat.launchedOnce = true → t.chat.launchedOnce = true)
      (fun _ _ => True) s := by
  by_cases delivers : call = .deliver
  · subst delivers
    exact wp_mono (deliver_gently s) (fun _ _ ht launched => ht.launched.trans launched) fun _ _ _ => trivial
  · exact wp_mono (run_withholds delivers s) (fun _ _ ht => ht.1) fun _ _ _ => trivial

end withholding

section opening
variable [Host] {s t : Conf} {call : Call} {calls rest : List Call}

/-- The calls of a settings batch and of the launch barrier. -/
def Call.opens : Call → Bool
  | .apply _ | .launchOnce | .publish => true
  | _ => false

/-- The old native session is being handed over. -/
def Chat.HandsOff (c : Chat) : Prop :=
  ∃ recovery, c.recovery = some recovery ∧ recovery.stage = .handoff

/-- The calls by which a session that was opened in the middle of a compaction is handed over. -/
def Call.HandsOff (c : Chat) : Call → Prop
  | .startHandoff | .recoveryFailed _ => True
  | .recoveryMessage stage _ fresh => stage = .handoff ∧ fresh = true
  | .dispatchQueued | .flush | .deliver | .refused _ => c.HandsOff
  | .attempt _ next | .replace _ _ next => next = [.flush] ∧ c.HandsOff
  | .recoveryEnded _ => c.HandsOff ∧ c.turnFailed.isSome = true
  | _ => False

/-- Until it is launched a conductor has nothing to do but to be configured and to hand over what was
being compacted, and no other turn than that of the handoff. -/
structure Unlaunched (s : Conf) (stack : List Call) : Prop where
  turn : s.chat.inTurn = true → s.chat.HandsOff
  head : ∀ call ∈ stack.head?, call.opens ∨ call.HandsOff s.chat
  tail : ∀ call ∈ stack.tail, call.opens

omit [Host] in
theorem Chat.HandsOff.same {c d : Chat} (h : c.HandsOff) (desk : d.desk = c.desk) : d.HandsOff := by
  obtain ⟨recovery, active, stage⟩ := h
  exact ⟨recovery, (congrArg Desk.recovery desk).trans active, stage⟩

omit [Host] in
/-- A call that is done leaves at most one more before the rest. -/
theorem Unlaunched.next (h : Unlaunched s (call :: rest))
    (turn : t.chat.inTurn = true → t.chat.HandsOff)
    (calls_eq : calls = [] ∨ ∃ k, calls = [k] ∧ (k.opens ∨ k.HandsOff t.chat)) :
    Unlaunched t (calls ++ rest) := by
  rcases calls_eq with rfl | ⟨k, rfl, kind⟩
  · refine ⟨turn, fun k first => .inl (h.tail k ?_), fun k later => h.tail k ?_⟩
    · exact List.mem_of_mem_head? first
    · exact List.mem_of_mem_tail later
  · refine ⟨turn, fun other first => ?_, h.tail⟩
    obtain rfl := Option.some.inj first
    exact kind

theorem Ran.configures (ran : Ran s call calls t)
    (kind : (∃ changes, call = .apply changes) ∨ call = .publish) :
    t.chat.desk = s.chat.desk ∧ (calls = [] ∨ ∃ more, calls = [.apply more]) := by
  rcases kind with ⟨_, rfl⟩ | rfl
  all_goals
    cases ran with
    | moved leads still =>
      refine ⟨still.desk, ?_⟩
      cases leads <;> first | exact .inl rfl | exact .inr ⟨_, rfl⟩
    | closed call_eq => rcases call_eq with ⟨_, _, h⟩ | ⟨_, h⟩ <;> cases h

/-- Bringing a runner up and handing it the message of the handoff stay with the handoff. -/
theorem Ran.handsOff (ran : Ran s call calls t) (hands : s.chat.HandsOff)
    (kind : call = .dispatchQueued ∨ call = .flush ∨ call = .deliver ∨ (∃ why, call = .refused why) ∨
      (∃ why, call = .attempt why [.flush]) ∨ ∃ rung why, call = .replace rung why [.flush]) :
    t.chat.recovery = s.chat.recovery ∧ (calls = [] ∨ ∃ k, calls = [k] ∧ k.HandsOff t.chat) := by
  obtain ⟨recovery, active, stage⟩ := hands
  have never {P : Prop} (idle : s.chat.recovery = none) : P := by cases active.symm.trans idle
  have still {t : Conf} (same : t.chat.recovery = s.chat.recovery) : t.chat.HandsOff :=
    ⟨recovery, same.trans active, stage⟩
  cases ran with
  | moved leads quiet =>
    have same : t.chat.recovery = s.chat.recovery := congrArg Desk.recovery quiet.desk
    refine ⟨same, ?_⟩
    cases leads with
    | pause => exact .inl rfl
    | flush => exact .inr ⟨_, rfl, still same⟩
    | bring => exact .inr ⟨_, rfl, rfl, still same⟩
    | deliver => exact .inr ⟨_, rfl, still same⟩
    | refuse => exact .inr ⟨_, rfl, still same⟩
    | abandon => exact .inr ⟨_, rfl, trivial⟩
    | proceed =>
      obtain rfl : _ = [Call.flush] := by simpa using kind
      exact .inr ⟨_, rfl, still same⟩
    | again =>
      obtain rfl : _ = [Call.flush] := by simpa using kind
      exact .inr ⟨_, rfl, rfl, still same⟩
    | replace =>
      obtain rfl : _ = [Call.flush] := by simpa using kind
      exact .inr ⟨_, rfl, rfl, still same⟩
    | full idle => exact never idle
    | lostLogin idle => exact never idle
    | fail idle => exact never idle
    | _ => simp at kind
  | replaced calls_eq desk =>
    have same : t.chat.recovery = s.chat.recovery := congrArg Desk.recovery desk
    obtain rfl : _ = [Call.flush] := by simpa using kind
    refine ⟨same, ?_⟩
    rcases calls_eq with rfl | rfl | rfl
    · exact .inr ⟨_, rfl, still same⟩
    · exact .inl rfl
    · exact .inr ⟨_, rfl, rfl, still same⟩
  | written _ gave =>
    have same : t.chat.recovery = s.chat.recovery := congrArg Desk.recovery gave.desk
    exact ⟨same, .inr ⟨_, rfl, still same⟩⟩
  | delivered _ _ gave =>
    have same : t.chat.recovery = s.chat.recovery := congrArg Desk.recovery gave.desk
    exact ⟨same, .inr ⟨_, rfl, still same⟩⟩
  | refusedFull _ gave =>
    have same : t.chat.recovery = s.chat.recovery := congrArg Desk.recovery gave.desk
    have failed : t.chat.turnFailed = some .contextLimit := congrArg Desk.turnFailed gave.desk
    exact ⟨same, .inr ⟨_, rfl, still same, by rw [failed]; rfl⟩⟩
  | refusedMidTurn idle => exact never idle
  | closed call_eq =>
    rcases call_eq with ⟨_, _, rfl⟩ | ⟨_, rfl⟩ <;> simp at kind
  | _ => simp at kind

theorem launchOnce_launches :
    wp launchOnce (fun _ t => t.chat.launchedOnce = true) (fun _ _ => True) s := by
  unfold launchOnce
  rw [wp_bind, wp_self, wp_ite]
  refine ⟨fun launched => launched, fun _ => ?_⟩
  rw [wp_bind, wp_change]
  have later : withholding.Holds (do
      if s.chat.recovery.isSome then return [.resumeRecovery]
      else if ← ready then return [.flush]
      else return [Call.attempt "starting up" [.flush]]) :=
    holds_ite (holds_pure _) (holds_bind withholding_mans.toAdmits.ready_holds fun _ =>
      holds_ite (holds_pure _) (holds_pure _))
  exact wp_mono (later _) (fun _ _ ht => ht.1 rfl) fun _ _ _ => trivial

omit [Host] in
/-- A handoff whose message is too long for a clean session is given up. -/
theorem recoveryEnded_abandons {end_ : Event} (hands : s.chat.HandsOff)
    (failed : s.chat.turnFailed.isSome = true) :
    wp (recoveryEnded end_) (fun calls t => t.chat.inTurn = false ∧ ∃ why, calls = [.recoveryFailed why])
      (fun _ _ => True) s := by
  obtain ⟨recovery, active, stage⟩ := hands
  unfold recoveryEnded
  simp only [wp_bind, wp_self, wp_change, active, stage, failed, Bool.true_or, if_true, reduceCtorEq,
    if_false, false_and]
  exact ⟨rfl, _, rfl⟩

/-- Before the launch barrier there is only the settings batch, and the handoff of a session that was
opened in the middle of a compaction; after it the conductor is launched. -/
theorem run_opens (h : s.chat.launchedOnce = false → Unlaunched s (call :: rest)) :
    wp (run call) (fun calls t => t.chat.launchedOnce = false → Unlaunched t (calls ++ rest))
      (fun _ _ => True) s := by
  cases launched : s.chat.launchedOnce with
  | true =>
    refine wp_mono (run_lasts call) (fun calls t ht fresh => ?_) fun _ _ => id
    cases (ht launched).symm.trans fresh
  | false =>
    have fresh := h launched
    have configures (kind : (∃ changes, call = .apply changes) ∨ call = .publish) :
        wp (run call) (fun calls t => t.chat.launchedOnce = false → Unlaunched t (calls ++ rest))
          (fun _ _ => True) s := by
      refine wp_mono (run_ran call) (fun calls t ran _ => ?_) fun _ _ _ => trivial
      obtain ⟨desk, more⟩ := ran.configures kind
      refine fresh.next (fun open_ => ?_) (more.imp_right ?_)
      · exact (fresh.turn ((congrArg Desk.inTurn desk).symm.trans open_)).same desk
      · rintro ⟨_, rfl⟩
        exact ⟨_, rfl, .inl rfl⟩
    have hands (off : s.chat.HandsOff) (kind : call = .dispatchQueued ∨ call = .flush ∨
        call = .deliver ∨ (∃ why, call = .refused why) ∨ (∃ why, call = .attempt why [.flush]) ∨
        ∃ rung why, call = .replace rung why [.flush]) :
        wp (run call) (fun calls t => t.chat.launchedOnce = false → Unlaunched t (calls ++ rest))
          (fun _ _ => True) s := by
      refine wp_mono (run_ran call) (fun calls t ran _ => ?_) fun _ _ _ => trivial
      obtain ⟨same, more⟩ := ran.handsOff off kind
      refine fresh.next (fun _ => ?_) (more.imp_right fun ⟨k, calls_eq, kind⟩ => ⟨k, calls_eq, .inr kind⟩)
      obtain ⟨recovery, active, stage⟩ := off
      exact ⟨recovery, same.trans active, stage⟩
    have ends (ran : ∀ calls t, Ran s call calls t → t.chat.inTurn = true → t.chat.HandsOff)
        (more : ∀ calls t, Ran s call calls t → calls = [] ∨ ∃ k, calls = [k] ∧ k.HandsOff t.chat) :
        wp (run call) (fun calls t => t.chat.launchedOnce = false → Unlaunched t (calls ++ rest))
          (fun _ _ => True) s := by
      refine wp_mono (run_ran call) (fun calls t run _ => fresh.next (ran calls t run) ?_)
        fun _ _ _ => trivial
      exact (more calls t run).imp_right fun ⟨k, calls_eq, kind⟩ => ⟨k, calls_eq, .inr kind⟩
    rcases fresh.head call rfl with opens | off
    · cases call with
      | apply changes => exact configures (.inl ⟨changes, rfl⟩)
      | publish => exact configures (.inr rfl)
      | launchOnce =>
        refine wp_mono launchOnce_launches (fun calls t ht again => ?_) fun _ _ => id
        cases ht.symm.trans again
      | _ => cases opens
    · cases call with
      | startHandoff =>
        refine ends (fun calls t ran open_ => ?_) fun calls t ran => ?_
        · cases ran with
          | moved _ still =>
            exact (fresh.turn ((congrArg Desk.inTurn still.desk).symm.trans open_)).same still.desk
          | closed call_eq => rcases call_eq with ⟨_, _, h⟩ | ⟨_, h⟩ <;> cases h
        · cases ran with
          | moved leads =>
            cases leads with
            | pause paused => cases paused
            | handoff text => exact .inr ⟨_, rfl, rfl, rfl⟩
          | closed call_eq => rcases call_eq with ⟨_, _, h⟩ | ⟨_, h⟩ <;> cases h
      | recoveryMessage stage text fresh_ =>
        obtain ⟨rfl, rfl⟩ : stage = .handoff ∧ fresh_ = true := off
        have handed {calls : List Call} {t : Conf}
            (ran : Ran s (.recoveryMessage .handoff text true) calls t) :
            calls = [.dispatchQueued] ∧ t.chat.HandsOff := by
          cases ran with
          | moved leads =>
            cases leads with
            | pause paused => cases paused
          | closed call_eq => rcases call_eq with ⟨_, _, h⟩ | ⟨_, h⟩ <;> cases h
          | queuedFresh closed gave => exact ⟨rfl, _, congrArg Desk.recovery gave.desk, rfl⟩
        refine ends (fun calls t ran _ => (handed ran).2) fun calls t ran => ?_
        exact .inr ⟨_, (handed ran).1, (handed ran).2⟩
      | recoveryFailed why =>
        have closed {calls : List Call} {t : Conf} (ran : Ran s (.recoveryFailed why) calls t) :
            calls = [] ∧ t.chat.inTurn = false := by
          cases ran with
          | moved leads =>
            cases leads with
            | pause paused => cases paused
          | closed call_eq => rcases call_eq with ⟨_, _, h⟩ | ⟨_, h⟩ <;> cases h
          | gaveUp closed gave =>
            have open_ : t.chat.inTurn = _ := congrArg Desk.inTurn gave.desk
            exact ⟨rfl, open_.trans (congrArg Desk.inTurn closed.desk)⟩
        refine ends (fun calls t ran open_ => ?_) fun calls t ran => .inl (closed ran).1
        cases (closed ran).2.symm.trans open_
      | recoveryEnded end_ =>
        refine wp_mono (recoveryEnded_abandons off.1 off.2) (fun calls t ht _ => ?_) fun _ _ => id
        obtain ⟨idle, why, rfl⟩ := ht
        refine fresh.next (fun open_ => ?_) (.inr ⟨_, rfl, .inr trivial⟩)
        cases idle.symm.trans open_
      | dispatchQueued => exact hands off (.inl rfl)
      | flush => exact hands off (.inr (.inl rfl))
      | deliver => exact hands off (.inr (.inr (.inl rfl)))
      | refused why => exact hands off (.inr (.inr (.inr (.inl ⟨why, rfl⟩))))
      | attempt why next =>
        obtain ⟨rfl, off⟩ : next = [.flush] ∧ s.chat.HandsOff := off
        exact hands off (.inr (.inr (.inr (.inr (.inl ⟨why, rfl⟩)))))
      | replace rung why next =>
        obtain ⟨rfl, off⟩ : next = [.flush] ∧ s.chat.HandsOff := off
        exact hands off (.inr (.inr (.inr (.inr (.inr ⟨rung, why, rfl⟩)))))
      | _ => exact off.elim

/-- Only a message that waits for the runner it belongs to makes `flush` go on. -/
theorem Ran.hands (ran : Ran s call calls t) (cleared : call.Cleared s.chat)
    (hands : calls.head? = some .deliver) : call = .flush ∨ call = .deliver := by
  have never (plain : ∀ k ∈ calls, k.Plain) : False := by
    have member := List.mem_of_mem_head? (Option.mem_def.mpr hands)
    exact plain _ member
  cases own : call.isOwn with
  | false => exact (never (ran.plain own)).elim
  | true =>
    cases call with
    | flush => exact .inl rfl
    | deliver => exact .inr rfl
    | attempt why next =>
      have onward : Onward next := cleared
      cases ran with
      | moved leads =>
        cases leads with
        | proceed => exact (never onward.plain).elim
        | _ => cases hands
      | closed call_eq => rcases call_eq with ⟨_, _, h⟩ | ⟨_, h⟩ <;> cases h
    | replace rung why next =>
      have onward : Onward next := cleared.2
      cases ran with
      | moved leads =>
        cases leads
        cases hands
      | replaced calls_eq =>
        rcases calls_eq with rfl | rfl | rfl
        · exact (never onward.plain).elim
        · cases hands
        · cases hands
      | closed call_eq => rcases call_eq with ⟨_, _, h⟩ | ⟨_, h⟩ <;> cases h
    | _ => cases own

theorem Conf.InForce.same (h : s.InForce) (env : t.env = s.env) (calls : s.calls ≤ t.calls)
    (rest : t.chat.offDesk = s.chat.offDesk) : t.InForce := by
  have seen (u : Conf) : u.InForce ↔ ({ u with chat := u.chat.offDesk } : Conf).InForce := Iff.rfl
  have before : ({ s with chat := s.chat.offDesk } : Conf).InForce := (seen s).mp h
  rw [seen, rest]
  intro signature running
  obtain ⟨n, asked, rung, resolved, same⟩ := before signature running
  exact ⟨n, asked.trans_le calls, rung, by rw [env]; exact resolved, same⟩

/-- A conductor and the calls it has still to make: a message is next to be handed over only where
what is running is what the settings ask for. -/
structure Offering (s : Conf) (stack : List Call) : Prop where
  accounted : Accounted s.chat.desk s.books
  inForce : stack.head? = some .deliver → s.InForce

theorem run_offers (cleared : call.Cleared s.chat) (plain : ∀ k ∈ rest, k.Plain)
    (h : Offering s (call :: rest)) :
    wp (run call) (fun calls t => Offering t (calls ++ rest)) (fun _ t => t.books.Sound) s := by
  have finish {Q : List Call → Conf → Prop}
      (fits : wp (run call) Q (fun _ _ => True) s)
      (inForce : ∀ calls t, Ran s call calls t → Q calls t → calls.head? = some .deliver → t.InForce) :
      wp (run call) (fun calls t => Offering t (calls ++ rest)) (fun _ t => t.books.Sound) s := by
    refine wp_mono (wp_and (run_ran call) fits) (fun calls t ht => ⟨accounted_ran h.accounted ht.1, ?_⟩)
      fun _ t ht => sound_died h.accounted ht.1
    intro hands
    cases calls with
    | nil =>
      have member : Call.deliver ∈ rest := List.mem_of_mem_head? (Option.mem_def.mpr hands)
      exact (plain _ member).elim
    | cons k more => exact inForce _ t ht.1 ht.2 hands
  by_cases flushes : call = .flush
  · subst flushes
    refine finish flush_gently fun calls t _ ht hands => ?_
    rcases ht.2 with rfl | ⟨-, inForce⟩
    · cases hands
    · exact inForce
  by_cases delivers : call = .deliver
  · subst delivers
    have kept := wp_mono (wp_and (wp_and (deliver_gently s) deliver_calls) (deliver_asks s))
      (fun _ _ ht => ht) fun _ _ _ => trivial
    refine finish kept fun calls t _ ht _ => ?_
    exact (h.inForce rfl).same ht.1.1.env ht.2 ht.1.2.1
  · refine finish (wp_mono (run_ran call) (fun _ _ _ => trivial) fun _ _ _ => trivial)
      (Q := fun _ _ => True) fun calls t ran _ hands => ?_
    rcases ran.hands cleared hands with rfl | rfl
    · exact absurd rfl flushes
    · exact absurd rfl delivers

theorem offering_invariant (ok : System → Move → Prop) :
    System.Invariant ok Offering (·.books.Sound) where
  sound := id
  blank := blank_sound
  opened := fun sound opened => ⟨accounted_opened sound opened, by rintro ⟨⟩⟩
  failed := sound_openFailed
  left := fun h _ => h.accounted.sound
  ended := fun h _ => h.accounted.sound
  wake := fun {s wake env} h _ _ _ => by
    refine ⟨h.accounted, fun hands => ?_⟩
    have member : Call.deliver ∈ wake.calls := List.mem_of_mem_head? (Option.mem_def.mpr hands)
    exact (wake_plain wake _ member).elim
  deadline := fun h _ _ => ⟨h.accounted, by rintro ⟨⟩⟩
  call := fun reach _ h => by
    have primed := (((authority_invariant ok).holds reach).live rfl).primed
    exact run_offers primed.1 primed.2 h
  published := fun h => h.mono le_rfl rfl

end opening

/-- The wakes the daemon has queued before it starts the conductor. -/
def Wake.isOpening : Wake → Bool
  | .configure _ | .launch | .launchReady => true
  | _ => false

theorem Wake.opens_of_isOpening [Host] (wake : Wake) (h : wake.isOpening) :
    ∀ call ∈ wake.calls, call.opens := by
  cases wake with
  | configure => simp [Wake.calls, Call.opens]
  | launch => simp [Wake.calls, Call.opens]
  | launchReady => simp [Wake.calls, Call.opens]
  | _ => cases h

/-- The calls of a wake that may not move the attached runner. -/
theorem Wake.mild [Host] (wake : Wake) {c : Chat} (h : wake.steers c = false)
    (tended : c.launchedOnce = true ∨ c.recovery.isSome = true) : ∀ call ∈ wake.calls, call.Mild c := by
  have launched (barrier : (!c.launchedOnce && c.recovery.isSome) = false) : c.launchedOnce = true :=
    tended.elim id fun active => by simpa [active] using barrier
  cases wake with
  | launch => simpa [Wake.calls, Call.Mild] using launched h
  | launchReady => simpa [Wake.calls, Call.Mild] using launched h
  | heard epoch report =>
    have mild : c.runnerEpoch = some epoch → report.steers = false := by
      intro attached
      simpa [Wake.steers, attached] using h
    simpa [Wake.calls, Call.Mild] using mild
  | stop => cases h
  | _ => simp [Wake.calls, Call.Mild]

namespace System
variable [Host] {s t : System} {k : ℕ} {runner : Handle} {wake : Wake} {env : Env}

/-- The order in which the daemon opens a session: the settings batch and the launch barrier are queued
before anything else. -/
def Barred (s : System) : Move → Prop
  | .receive wake _ => wake.isOpening ∨ s.conf.chat.launchedOnce = true
  | _ => True

instance (s : System) (m : Move) : Decidable (s.Barred m) := by
  cases m <;> unfold Barred <;> infer_instance

/-- A conductor that is not launched has only been configured, and has handed over at most what it was
opened compacting. -/
def Waits (s : System) : Prop :=
  s.conf.chat.launchedOnce = false → s.ended = false → Unlaunched s.conf s.stack

theorem opening_waits (past : Conf) (sound : past.books.Sound) (providers : List String)
    (cwd : Option String) (env : Env) :
    (opening past.chat.sessionId past.chat.disk past providers cwd env).Waits := by
  refine opening_cases sound providers cwd env (P := Waits) (fun t opened _ _ => ?_) fun t _ _ _ live => ?_
  · refine ⟨fun open_ => ?_, by simp, by simp⟩
    cases (congrArg Desk.inTurn opened.desk).symm.trans open_
  · cases live

theorem reach_waits (reach : Reach Barred s) : s.Waits := by
  refine reach.invariant ?_ ?_
  · intro s hs
    obtain ⟨sessionId, providers, cwd, env, heq⟩ := hs
    rw [heq, fresh_eq]
    exact opening_waits (Conf.blank sessionId env) (blank_sound sessionId env) providers cwd env
  · intro s m t reach before allowed step
    cases m with
    | reopen providers cwd env =>
      cases step
      have sound : s.conf.books.Sound := by
        have holds := (accounted_invariant Barred).holds reach
        cases gone : s.ended with
        | true => exact holds.dead gone
        | false => exact (holds.live gone).sound
      exact opening_waits s.conf sound providers cwd env
    | receive wake env =>
      dsimp only [machine, System.step] at step
      split at step
      next able =>
        cases step
        intro fresh running
        rcases allowed with opens | launched
        · have all := wake.opens_of_isOpening opens
          refine ⟨(before fresh running).turn, fun call first => .inl ?_, fun call later => ?_⟩
          · exact all call (List.mem_of_mem_head? first)
          · exact all call (List.mem_of_mem_tail later)
        · cases launched.symm.trans fresh
      next => cases step
    | deadline env =>
      dsimp only [machine, System.step] at step
      split at step
      next able =>
        cases step
        intro fresh running
        refine ⟨(before fresh running).turn, fun call first => .inr ?_, by simp [Call.opens]⟩
        obtain rfl := Option.some.inj first
        exact trivial
      next => cases step
    | advance =>
      obtain ⟨conf, stack, ended⟩ := s
      dsimp only [machine, System.step] at step
      unfold System.advance at step
      cases ended with
      | true => cases step
      | false =>
        cases stack with
        | nil => cases step
        | cons call rest =>
          have hwp := run_opens fun fresh => before fresh rfl
          unfold wp at hwp
          dsimp only at step
          cases hrun : run call conf with
          | ok calls u =>
            rw [hrun] at hwp step
            cases step
            exact fun fresh _ => hwp fresh
          | error e u =>
            rw [hrun] at step
            cases e <;> cases step <;> exact fun _ live => by cases live

/-- A turn before the launch barrier is that of a handoff. -/
theorem launched_of_inTurn (reach : Reach Barred s) (running : s.ended = false)
    (open_ : s.conf.chat.inTurn = true) :
    s.conf.chat.launchedOnce = true ∨ s.conf.chat.recovery.isSome = true := by
  cases fresh : s.conf.chat.launchedOnce with
  | true => exact .inl rfl
  | false =>
    obtain ⟨recovery, active, -⟩ := (reach_waits reach fresh running).turn open_
    exact .inr (by rw [active]; rfl)

/-- One call after another in the middle of a turn, as far as a message is refused. -/
theorem midTurn_exec (h : MidTurn runner s.conf s.stack) (going : t.ended = false)
    (run : machine.exec s (List.replicate k .advance) = some t) :
    (∃ j ≤ k, ∃ u, machine.exec s (List.replicate j .advance) = some u ∧ Refused runner u.conf u.stack) ∨
      (MidTurn runner t.conf t.stack ∧ Gentle s.conf t.conf) := by
  induction k generalizing s with
  | zero =>
    cases run
    exact .inr ⟨h, .refl _⟩
  | succ k ih =>
    obtain ⟨u, step, rest⟩ := Option.bind_eq_some_iff.mp run
    have along : u.ended = true → False := by
      intro gone
      cases k with
      | zero =>
        cases rest
        cases gone.symm.trans going
      | succ k =>
        obtain ⟨v, next, -⟩ := Option.bind_eq_some_iff.mp rest
        dsimp only [machine, System.step] at next
        unfold System.advance at next
        rw [gone] at next
        cases next
    have moved : Gentle s.conf u.conf ∧ (MidTurn runner u.conf u.stack ∨ Refused runner u.conf u.stack) := by
      obtain ⟨conf, stack, ended⟩ := s
      have step : System.advance ⟨conf, stack, ended⟩ = some u := step
      unfold System.advance at step
      cases ended with
      | true => cases step
      | false =>
        cases stack with
        | nil => cases step
        | cons call rest =>
          have hwp := run_mild h
          unfold wp at hwp
          dsimp only at step
          cases hrun : SiliconOmni.run call conf with
          | ok calls v =>
            rw [hrun] at hwp step
            cases step
            exact hwp
          | error e v =>
            rw [hrun] at step
            cases e <;> cases step <;> exact (along rfl).elim
    have first (j : ℕ) {v : System} (hv : machine.exec u (List.replicate j .advance) = some v) :
        machine.exec s (List.replicate (j + 1) .advance) = some v :=
      Option.bind_eq_some_iff.mpr ⟨u, step, hv⟩
    rcases moved with ⟨gentle, mid | refused⟩
    · rcases ih mid rest with ⟨j, hj, v, hv, refused⟩ | ⟨last, later⟩
      · exact .inl ⟨j + 1, Nat.succ_le_succ hj, v, first j hv, refused⟩
      · exact .inr ⟨last, gentle.trans later⟩
    · exact .inl ⟨1, Nat.succ_le_succ (Nat.zero_le k), u, first 0 rfl, refused⟩

/-- A message is handed over only in `deliver`, and only where what is running is what the settings
ask for. -/
theorem handed_inForce (reach : Reachable s) (step : machine.step s .advance = some t)
    {os : List Obs} (trace : t.conf.trace = os ++ s.conf.trace) {o : Obs} (member : o ∈ os)
    (handed : o.isHanded = true) : s.conf.InForce := by
  have holds := (offering_invariant fun _ _ => True).holds reach
  obtain ⟨conf, stack, ended⟩ := s
  dsimp only [machine, System.step] at step
  unfold System.advance at step
  cases ended with
  | true => cases step
  | false =>
    cases stack with
    | nil => cases step
    | cons call rest =>
      by_cases delivers : call = .deliver
      · subst delivers
        exact (holds.live rfl).inForce rfl
      · refine absurd ?_ (Bool.eq_false_iff.mp (?_ : o.isHanded = false))
        · exact handed
        have apart : Withheld conf t.conf := by
          have hwp := run_withholds delivers conf
          unfold wp at hwp
          dsimp only at step
          cases hrun : run call conf with
          | ok calls u =>
            rw [hrun] at hwp step
            cases step
            exact hwp.2
          | error e u =>
            rw [hrun] at hwp step
            cases e with
            | failed =>
              cases step
              exact Withheld.trans hwp (publish_withholds u).2
            | cut =>
              cases step
              exact hwp
        obtain ⟨ps, same, kept⟩ := apart
        rw [List.append_cancel_right (trace.symm.trans same)] at member
        exact kept o member

/-- In the middle of a turn no wake but the attached runner's own END or error, a stop, or the launch
barrier after a handoff makes the conductor touch that runner, as long as the runner turns nothing down
but for a full context outside recovery; and in every run a message is handed over only where what is
running is what the settings ask for. -/
theorem turn_boundaries :
    (∀ {s t : System} {runner : Handle} {wake : Wake} {env : Env} {k : ℕ}, Reach Barred s →
      s.conf.chat.inTurn = true → s.conf.chat.runner = some runner →
      (∀ n, env.alive n runner = true) → wake.steers s.conf.chat = false →
      machine.exec s (.receive wake env :: List.replicate k .advance) = some t → t.ended = false →
        (∃ j ≤ k, ∃ u, machine.exec s (.receive wake env :: List.replicate j .advance) = some u ∧
          Refused runner u.conf u.stack) ∨
        (t.conf.chat.runner = some runner ∧ t.conf.chat.inTurn = true ∧
          ∃ os, t.conf.trace = os ++ s.conf.trace ∧ ∀ o ∈ os, o.disturbs runner = false)) ∧
    (∀ {s t : System} {os : List Obs} {o : Obs}, Reachable s → machine.step s .advance = some t →
      t.conf.trace = os ++ s.conf.trace → o ∈ os → o.isHanded = true → s.conf.InForce) := by
  refine ⟨?_, fun reach step trace member handed => handed_inForce reach step trace member handed⟩
  intro s t runner wake env k reach open_ attached alive mild run going
  obtain ⟨u, received, rest⟩ := Option.bind_eq_some_iff.mp run
  have first (j : ℕ) {v : System} (hv : machine.exec u (List.replicate j .advance) = some v) :
      machine.exec s (.receive wake env :: List.replicate j .advance) = some v :=
    Option.bind_eq_some_iff.mpr ⟨u, received, hv⟩
  dsimp only [machine, System.step] at received
  split at received
  next able =>
    have running : s.ended = false := by
      obtain ⟨⟨-, running⟩, -⟩ : (s.stack = [] ∧ s.ended = false) ∧ _ := by
        simpa [waiting] using able.1
      exact running
    cases received
    have mid : MidTurn runner { s.conf with env, calls := 0 } wake.calls :=
      ⟨attached, open_, alive, wake.mild mild (launched_of_inTurn reach running open_)⟩
    rcases midTurn_exec mid going rest with ⟨j, hj, v, hv, refused⟩ | ⟨last, gentle⟩
    · exact .inl ⟨j, hj, v, first j hv, refused⟩
    · obtain ⟨os, trace, calm⟩ := gentle.trace
      exact .inr ⟨last.attached, last.inTurn, os, trace, fun o member => calm o member runner⟩
  next => cases received

end System

section samples
attribute [local instance] Host.ascii

/-- Codex is launched and has a message. -/
def inTheMiddle : List Move :=
  .receive .launchReady (Env.answering "codex") :: List.replicate 6 Move.advance ++
    .receive (.send "a") (Env.answering "codex") :: List.replicate 6 Move.advance

namespace System

theorem inTheMiddle_reached {s : System}
    (run : after "chat" ["codex"] Env.ascii inTheMiddle = some s) : Reach Barred s := by
  have start : Reach Barred (fresh "chat" ["codex"] none Env.ascii) :=
    .init ⟨"chat", ["codex"], none, Env.ascii, rfl⟩
  have along : machine.Along Barred (fresh "chat" ["codex"] none Env.ascii) inTheMiddle := by
    decide +kernel
  exact start.exec along run

/-- A setting is changed in the middle of a turn, and a message is handed over before it. -/
theorem turn_boundaries_setting :
    ∃ s t : System, s.conf.chat.inTurn = true ∧
      machine.exec s (.receive (.set (.subagents false)) (Env.answering "codex") ::
        List.replicate 3 .advance) = some t ∧ t.conf.chat.config.disableSubagents = true ∧
      ∃ runner : Handle, s.conf.chat.runner = some runner ∧
        ((∃ j ≤ 3, ∃ u, machine.exec s (.receive (.set (.subagents false)) (Env.answering "codex") ::
          List.replicate j .advance) = some u ∧ Refused runner u.conf u.stack) ∨
        (t.conf.chat.runner = some runner ∧ t.conf.chat.inTurn = true ∧
          ∃ os, t.conf.trace = os ++ s.conf.trace ∧ ∀ o ∈ os, o.disturbs runner = false)) ∧
      ∃ d : System, d.conf.chat.outbox ≠ [] ∧ d.conf.InForce := by
  have run : ∃ s t, after "chat" ["codex"] Env.ascii inTheMiddle = some s ∧
      machine.exec s (.receive (.set (.subagents false)) (Env.answering "codex") ::
        List.replicate 3 .advance) = some t ∧ s.conf.chat.inTurn = true ∧ t.ended = false ∧
      t.conf.chat.config.disableSubagents = true ∧ ∃ runner, s.conf.chat.runner = some runner :=
    ⟨_, _, Option.eq_some_of_isSome (by decide +kernel), Option.eq_some_of_isSome (by decide +kernel),
      by decide +kernel, by decide +kernel, by decide +kernel,
      _, Option.eq_some_of_isSome (by decide +kernel)⟩
  have handing : ∃ d e, after "chat" ["codex"] Env.ascii (inTheMiddle.take 11) = some d ∧
      machine.step d .advance = some e ∧ d.conf.chat.outbox ≠ [] ∧
      e.conf.trace.drop 3 = d.conf.trace ∧ ∃ o ∈ e.conf.trace.take 3, o.isHanded = true :=
    ⟨_, _, Option.eq_some_of_isSome (by decide +kernel), Option.eq_some_of_isSome (by decide +kernel),
      by decide +kernel, by decide +kernel, by decide +kernel⟩
  obtain ⟨s, t, hs, ht, open_, going, set_, runner, attached⟩ := run
  obtain ⟨d, e, hd, he, queued, same, o, member, handed⟩ := handing
  have trace : e.conf.trace = e.conf.trace.take 3 ++ d.conf.trace := by
    rw [← same, List.take_append_drop]
  exact ⟨s, t, open_, ht, set_, runner, attached,
    turn_boundaries.1 (inTheMiddle_reached hs) open_ attached (fun _ => rfl) rfl ht going,
    d, queued, turn_boundaries.2 (reachable_after hd) he trace member handed⟩

/-- Claude hands a full session over, goes on in a clean one, and is done there before it echoed what
it was told; the registry is out of reach as the message that waits is to be delivered. -/
def resumedLate : List Move :=
  let echoing : Env := { Env.answering "claude-code" with send := fun _ _ => .ok .echoed }
  let away : Env := { echoing with registry := fun n =>
    if n = 6 then { fresh := none, found := none, stale := none } else echoing.registry n }
  let texts : ContextRecovery := {}
  let echo (text : String) : Report :=
    { type := .confirmed, text, extra := [(CONFIRMED_AS, .string "start")] }
  .receive .launchReady echoing :: List.replicate 6 Move.advance ++
    .receive (.send "a") echoing :: List.replicate 6 Move.advance ++
    .receive (.heard 1 (echo "a")) echoing :: List.replicate 2 Move.advance ++
    .receive (.heard 1 { type := .error, kind := .contextLimit }) echoing :: List.replicate 2 Move.advance ++
    .receive (.heard 1 { type := .end_ }) echoing :: List.replicate 11 Move.advance ++
    .receive (.heard 2 (echo (SEED_HEADER ++ "\n\nUSER: a\n\n" ++ texts.limitMessage))) echoing ::
      List.replicate 2 Move.advance ++
    .receive (.heard 2 { type := .end_ }) echoing :: List.replicate 10 Move.advance ++
    .receive (.send "b") echoing :: List.replicate 5 Move.advance ++
    .receive (.heard 3 { type := .end_ }) away :: List.replicate 5 Move.advance ++
    .receive (.heard 3 (echo texts.newSessionMessage)) echoing :: List.replicate 2 Move.advance

/-- Codex is opened again in the middle of its compaction, and handed over at once. -/
def reopenedCompacting : List Move :=
  let codex := Env.answering "codex"
  inTheMiddle ++
    .receive (.heard 1 { type := .error, kind := .contextLimit }) codex :: List.replicate 2 Move.advance ++
    .receive (.heard 1 { type := .end_ }) { codex with compact := fun _ _ => .ok true } ::
      List.replicate 3 .advance ++
    .reopen ["codex"] none codex :: .deadline codex :: List.replicate 9 Move.advance

/-- This wake makes the conductor touch its live runner in the middle of a turn. -/
def CutShort (wake : Wake) (env : Env) (t : System) : Prop :=
  ∃ (s : System) (runner : Handle) (k : ℕ), Reach Barred s ∧ s.conf.chat.inTurn = true ∧
    s.conf.chat.runner = some runner ∧ (∀ n, env.alive n runner = true) ∧
    machine.exec s (.receive wake env :: List.replicate k .advance) = some t ∧
    ∃ os, t.conf.trace = os ++ s.conf.trace ∧ ∃ o ∈ os, o.disturbs runner = true

theorem cutShort_after (providers : List String) (moves : List Move) (k : ℕ) {wake : Wake} {env : Env}
    {ended : Bool} (along : machine.Along Barred (fresh "chat" providers none Env.ascii) moves)
    (alive : ∀ n runner, env.alive n runner = true)
    (run : ∃ s t runner, after "chat" providers Env.ascii moves = some s ∧
      machine.exec s (.receive wake env :: List.replicate k .advance) = some t ∧
      s.conf.chat.runner = some runner ∧ s.conf.chat.inTurn = true ∧ t.ended = ended ∧
      t.conf.trace.drop (t.conf.trace.length - s.conf.trace.length) = s.conf.trace ∧
      ∃ o ∈ t.conf.trace.take (t.conf.trace.length - s.conf.trace.length), o.disturbs runner = true) :
    ∃ t, t.ended = ended ∧ CutShort wake env t := by
  have start : Reach Barred (fresh "chat" providers none Env.ascii) :=
    .init ⟨"chat", providers, none, Env.ascii, rfl⟩
  obtain ⟨s, t, runner, hs, wakes, attached, open_, over_, older, touched⟩ := run
  refine ⟨t, over_, s, runner, k, start.exec along hs, open_, attached, fun n => alive n runner, wakes, _,
    ?_, touched⟩
  have whole := List.take_append_drop (t.conf.trace.length - s.conf.trace.length) t.conf.trace
  rw [older] at whole
  exact whole.symm

/-- A live runner is put down in the middle of its turn by a message that it turns down, and by one that
finds it full in the middle of a recovery; by a message that cannot be saved; and by the launch barrier
of a session that was opened in the middle of a compaction. -/
theorem turn_cut_short :
    (∃ t, t.ended = false ∧
      CutShort (.send "b") { Env.answering "codex" with send := fun _ _ => .error "no" } t) ∧
    (∃ t, t.ended = false ∧
      CutShort (.send "c") { Env.answering "claude-code" with send := fun _ _ => .error "context limit" }
        t) ∧
    (∃ t, t.ended = true ∧
      CutShort (.send "b") { Env.answering "codex" with commit := fun _ => .refused "disk full" } t) ∧
    ∃ t, t.ended = false ∧ CutShort .launchReady (Env.answering "codex") t := by
  refine ⟨?_, ?_, ?_, ?_⟩
  · exact cutShort_after ["codex"] inTheMiddle 7 (by decide +kernel) (fun _ _ => rfl)
      ⟨_, _, _, Option.eq_some_of_isSome (by decide +kernel),
        Option.eq_some_of_isSome (by decide +kernel), Option.eq_some_of_isSome (by decide +kernel),
        by decide +kernel, by decide +kernel, by decide +kernel, by decide +kernel⟩
  · exact cutShort_after ["claude-code"] resumedLate 8 (by decide +kernel) (fun _ _ => rfl)
      ⟨_, _, _, Option.eq_some_of_isSome (by decide +kernel),
        Option.eq_some_of_isSome (by decide +kernel), Option.eq_some_of_isSome (by decide +kernel),
        by decide +kernel, by decide +kernel, by decide +kernel, by decide +kernel⟩
  · exact cutShort_after ["codex"] inTheMiddle 1 (by decide +kernel) (fun _ _ => rfl)
      ⟨_, _, _, Option.eq_some_of_isSome (by decide +kernel),
        Option.eq_some_of_isSome (by decide +kernel), Option.eq_some_of_isSome (by decide +kernel),
        by decide +kernel, by decide +kernel, by decide +kernel, by decide +kernel⟩
  · exact cutShort_after ["codex"] reopenedCompacting 11 (by decide +kernel) (fun _ _ => rfl)
      ⟨_, _, _, Option.eq_some_of_isSome (by decide +kernel),
        Option.eq_some_of_isSome (by decide +kernel), Option.eq_some_of_isSome (by decide +kernel),
        by decide +kernel, by decide +kernel, by decide +kernel, by decide +kernel⟩

end System
end samples
end SiliconOmni
