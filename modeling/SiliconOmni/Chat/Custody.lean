import SiliconOmni.Chat.Berths
import SiliconOmni.Chat.Boundaries
import SiliconOmni.Chat.Settings
import SiliconOmni.Chat.Waits

/-! No runner is left running, none is told anything once it was stopped, and a message is only handed
to one that was last told what the settings ask for, but for the fast tier. -/
namespace SiliconOmni
open Lib Frame

section openings
variable [Host] {past s t : Conf} {stays : Handle → Prop}

omit [Host] in
/-- Nobody of these stays: nothing is promised. -/
theorem loyal_nobody (env : Env) : Loyal (fun _ => False) env := fun _ stay => stay.elim

theorem openFrom_crews (providers : List String) (cwd : Option String) :
    (crewing stays).Holds (do openAt providers cwd; begin_) := by
  have commit_ (what : String) (edit : MetaData → MetaData) :
      (crewing stays).Holds (openCommit what edit) := by
    unfold openCommit
    refine holds_bind Admits.holds_self fun c => holds_ite ?_ (holds_pure _)
    refine holds_bind (crews_of_unmoved (tryCommit_unmoved _)) fun answer => ?_
    split
    · exact holds_pure _
    · exact crews_of_unmoved (change_unmoved fun _ => rfl)
  have restored (c : Chat) : c.restoreRecovery.post = c.post := by
    have state (c : Chat) : c.restoreState.post = c.post := by
      unfold Chat.restoreState
      split
      · rfl
      · split
        · dsimp only
          split <;> rfl
        · rfl
    have history (c : Chat) : c.restoreHistory.post = c.post := by
      unfold Chat.restoreHistory
      split
      · rfl
      · split <;> rfl
    exact (history _).trans (state c)
  have files : (crewing stays).Holds openFiles := by
    unfold openFiles
    refine holds_bind (crews_of_unmoved (change_unmoved restored)) fun _ => ?_
    exact holds_bind Admits.holds_self fun c => commit_ _ _
  have settings : (crewing stays).Holds (openSettings providers cwd) := by
    unfold openSettings
    refine holds_bind (change_crews (fun _ => rfl) (fun _ => rfl) fun _ => rfl) fun _ => ?_
    refine holds_bind Admits.holds_self fun c => holds_bind (commit_ _ _) fun _ => ?_
    exact crews_of_unmoved (change_unmoved fun _ => rfl)
  have begun : (crewing stays).Holds begin_ := by
    unfold begin_
    refine holds_bind Admits.holds_self fun c => ?_
    split
    · exact crews_of_unmoved (persistenceFailed_unmoved _ _)
    · exact crews_of_unmoved (become_unmoved _)
  exact holds_bind (holds_bind files fun _ => settings) fun _ => begun

omit [Host] in
theorem Ashore.empty (h : Ashore stays past) (trace : t.trace = past.trace) (built : t.built = past.built)
    (free : t.chat.runner = none) (parked : t.chat.parked = []) : Aboard stays [] t := by
  have none_ : t.chat.running = [] := by simp [Chat.running, free, parked]
  have now := h.same trace built
  constructor
  · exact now.hushed
  · exact now.young
  · simp [Conf.board, none_]
  · simp [Conf.board, none_]
  · simp [parked]
  · exact fun runner stay hired => .inr (now.gone runner stay hired)
  · simp [free]
  · simp [parked]

omit [Host] in
/-- What concerns no runner changes nothing. -/
theorem Ashore.silent (h : Ashore stays s) {os : List Obs} (none_ : ∀ o ∈ os, o.about = none) :
    Ashore stays { s with trace := os ++ s.trace } := by
  induction os with
  | nil => exact h
  | cons o os ih =>
    have rest := ih fun o member => none_ o (List.mem_cons_of_mem _ member)
    have nobody := none_ o List.mem_cons_self
    refine ⟨⟨fun runner about => ?_, rest.hushed⟩, fun o' member runner about => ?_, ?_⟩
    · cases nobody.symm.trans about
    · rcases List.mem_cons.mp member with rfl | member
      · cases nobody.symm.trans about
      · exact rest.young o' member runner about
    · rintro runner stay ⟨o', member, hires⟩
      rcases List.mem_cons.mp member with rfl | member
      · cases nobody.symm.trans (Obs.about_of_hires hires)
      · exact List.mem_cons_of_mem _ (rest.gone runner stay ⟨o', member, hires⟩)

/-- A session that is opened has nobody on board, whoever was before. -/
theorem Ashore.opened (h : Ashore stays past) (opened : Opened past t) : Aboard stays [] t :=
  h.empty (congrArg Books.trace opened.books) opened.built opened.runner opened.parked

/-- A session that could not be opened has started nobody. -/
theorem Ashore.failed (h : Ashore stays past) (failed : OpenFailed past t) : Ashore stays t := by
  obtain ⟨providers, cwd, env, reopened⟩ := failed.reopened
  have nobody : Ashore (fun _ => False) past := ⟨h.hushed, h.young, fun _ stay => stay.elim⟩
  have crewed : Crewed (fun _ => False) { past with
      env, calls := 0, chat := Chat.loaded past.chat.sessionId past.chat.disk } :=
    ⟨nobody.empty rfl rfl rfl rfl, loyal_nobody _⟩
  have left : Ashore (fun _ => False) t := by
    have hwp := crewed.wp (openFrom_crews providers cwd)
    unfold System.opening at reopened
    dsimp only at reopened
    unfold Lib.wp at hwp
    split at reopened
    next hm =>
      cases reopened
    next hm =>
      cases reopened
      rw [hm] at hwp
      exact hwp
  obtain ⟨stops, trace, quiet⟩ := failed.trace
  refine ⟨left.hushed, left.young, fun runner stay hired => ?_⟩
  obtain ⟨o, member, hires⟩ := hired
  rw [trace] at member ⊢
  rcases List.mem_append.mp member with member | member
  · have stop := quiet o member
    have never : o.hires runner = false := by
      cases o with
      | started => cases stop
      | _ => rfl
    cases never.symm.trans hires
  · exact List.mem_append_right _ (h.gone runner stay ⟨o, member, hires⟩)

end openings

section runs
variable [Host] {stays : Handle → Prop} {s t : Conf} {call : Call} {calls rest : List Call}

/-- A running conductor keeps every runner in its place, and none once it stops. -/
structure Manning (stays : Handle → Prop) (s : Conf) (stack : List Call) : Prop where
  aboard : Aboard stays [] s
  orderly : Orderly s.chat.stopping stack
  empty : s.chat.stopping = true → s.chat.running = []

/-- Only calls that leave the runners alone are left to a conductor that stops. -/
theorem drains_unmoved (drains : call.drains = true) : (unmoving stays).Holds (run call) := by
  cases call with
  | absorb epoch report => exact absorb_unmoved epoch report
  | stopped => exact stopped_unmoved
  | publish => exact publish_unmoved
  | _ => cases drains

/-- Once a conductor stops it has no runner. -/
theorem run_empties (h : Manning stays s (call :: rest)) (loyal : Loyal stays s.env) :
    wp (run call) (fun calls t => Ran s call calls t → t.chat.stopping = true → t.chat.running = [])
      (fun _ _ => True) s := by
  have crewed : Crewed stays s := ⟨h.aboard, loyal⟩
  by_cases stopping : s.chat.stopping = true
  · have drains := h.orderly.drained stopping call List.mem_cons_self
    have holds : (unmoving stays).Holds (run call) := drains_unmoved drains
    refine wp_mono (holds s) (fun calls t still _ _ => ?_) fun _ _ _ => True.intro
    rw [Chat.running, still.runner, still.parked]
    exact h.empty stopping
  · by_cases shuts : call = .shutdown
    · subst shuts
      exact wp_mono (shutdown_crewed crewed) (fun _ _ ht _ _ => ht.2) fun _ _ _ => True.intro
    · have holds : (crewing stays).Holds (run call) := run_crews call
      refine wp_mono (holds s) (fun calls t _ ran now => ?_) fun _ _ _ => True.intro
      rcases ran.stopping with kept | ⟨same, -⟩
      · exact absurd (kept.symm.trans now) stopping
      · exact absurd same shuts

theorem run_manning (h : Manning stays s (call :: rest)) (loyal : Loyal stays s.env)
    (cleared : call.Cleared s.chat) :
    wp (run call) (fun calls t => Manning stays t (calls ++ rest)) (fun _ t => Ashore stays t) s := by
  have crewed : Crewed stays s := ⟨h.aboard, loyal⟩
  refine wp_mono (wp_and (crewed.wp (run_crews call)) (wp_and (run_empties h loyal) (run_ran call))) ?_ ?_
  · rintro calls t ⟨next, empty, ran⟩
    refine ⟨next.aboard, h.orderly.next ran cleared ?_, empty ran⟩
    exact ran.stopping.imp_right And.left
  · exact fun _ _ left => left.1

end runs

/-- A message is handed to none but the attached runner. -/
def Hands (s t : Conf) : Prop :=
  ∃ os, t.trace = os ++ s.trace ∧ ∀ o ∈ os, o.isHanded = true → o.about = s.chat.runner

theorem Withheld.hands {s t : Conf} (h : Withheld s t) : Hands s t := by
  obtain ⟨os, trace, kept⟩ := h
  refine ⟨os, trace, fun o member handed => ?_⟩
  cases (kept o member).symm.trans handed

theorem deliver_hands {s : Conf} : wp deliver (fun _ t => Hands s t) (fun _ t => Hands s t) s := by
  have refl : Hands s s := Withheld.hands (.of_same rfl)
  unfold deliver
  rw [wp_bind, wp_self]
  split
  next message rest runner queue seated =>
    split
    · exact refl
    rw [wp_bind, wp_asks, wp_bind, wp_note]
    have sent {delivery : Option Delivery} {t : Conf} (later : Withheld { s with
        calls := s.calls + 1
        trace := .sent runner message delivery s.chat.usable :: s.trace } t) : Hands s t := by
      obtain ⟨os, trace, kept⟩ := later
      refine ⟨os ++ [.sent runner message delivery s.chat.usable], ?_, fun o member handed => ?_⟩
      · rw [trace, List.append_assoc]
        rfl
      rcases List.mem_append.mp member with member | member
      · cases (kept o member).symm.trans handed
      · rw [List.mem_singleton.mp member, seated]
        rfl
    refine wp_mono ((?_ : withholding.Holds _) _) (fun _ _ ht => sent ht.2) fun _ _ => sent
    have busy : withholding.Holds (do become .busy; return [Call.deliver]) :=
      holds_bind (change_withholds fun _ => rfl) fun _ => holds_pure _
    split
    · exact holds_pure _
    · exact holds_bind (change_withholds fun _ => rfl) fun _ => busy
    · refine holds_bind (record_withholds _) fun event => ?_
      extract_lets queued
      refine holds_bind (notes_withholds ?_) fun _ => ?_
      · split <;> simp [Obs.isHanded]
      refine holds_bind (change_withholds fun _ => rfl) fun _ => ?_
      refine holds_bind (change_withholds fun _ => rfl) fun _ => ?_
      refine holds_bind (commit_withholds _ _) fun _ => holds_bind (change_withholds fun _ => rfl) fun _ => ?_
      exact holds_bind (change_withholds fun _ => rfl) fun _ => busy
  · exact refl

theorem run_hands [Host] (call : Call) {s : Conf} :
    wp (run call) (fun _ t => Hands s t) (fun _ t => Hands s t) s := by
  by_cases delivers : call = .deliver
  · subst delivers
    exact deliver_hands
  · exact (run_withholds delivers).wp (fun _ _ ht => ht.2.hands) fun _ _ ht => ht.hands

namespace System
variable [Host] {stays : Handle → Prop} {s t : System}

/-- Whatever is done for a wake, these runners and the process are alive; and the session is not opened
again while they are there. -/
def Keeps (stays : Handle → Prop) (s : System) : Move → Prop
  | .advance => Loyal stays s.conf.env
  | .reopen _ _ _ => ∀ runner, stays runner → s.conf.built ≤ runner.instance_
  | _ => True

theorem manning_invariant (stays : Handle → Prop) :
    Invariant (Keeps stays) (fun s stack => Accounted s.chat.desk s.books ∧ Manning stays s stack)
      (fun s => s.books.Sound ∧ Ashore stays s) where
  sound := And.left
  blank := by
    refine fun sessionId env => ⟨blank_sound sessionId env, True.intro, ?_, ?_⟩
    · intro o member
      cases member
    · rintro runner _ ⟨o, member, -⟩
      cases member
  opened := by
    rintro past t ⟨sound, ashore⟩ opened
    have live : t.chat.stopping = false := congrArg Desk.stopping opened.desk
    refine ⟨accounted_opened sound opened, ashore.opened opened, ?_, ?_⟩
    · rw [live]
      exact orderly_of_plain fun _ member => absurd member List.not_mem_nil
    · rw [live]
      rintro ⟨⟩
  failed := fun dead failed => ⟨sound_openFailed dead.1 failed, dead.2.failed failed⟩
  left := by
    rintro s stack providers cwd env ⟨accounted, h⟩ allowed
    refine ⟨accounted.sound, h.aboard.hushed, h.aboard.young, fun runner stay hired => ?_⟩
    obtain ⟨o, member, hires⟩ := hired
    have young := h.aboard.young o member runner (Obs.about_of_hires hires)
    have later : s.built ≤ runner.instance_ := allowed runner stay
    omega
  ended := by
    rintro s ⟨accounted, h⟩ stopping
    exact ⟨accounted.sound, h.aboard.ashore (h.empty stopping)⟩
  wake := by
    rintro s wake env ⟨accounted, h⟩ running _ _
    refine ⟨accounted, h.aboard.same rfl rfl rfl, ?_, h.empty⟩
    exact running ▸ wake_orderly wake
  deadline := by
    rintro s env ⟨accounted, h⟩ running _
    refine ⟨accounted, h.aboard.same rfl rfl rfl, ?_, h.empty⟩
    exact running ▸ orderly_of_plain (by simp)
  call := by
    rintro s call rest reach loyal ⟨accounted, h⟩
    have primed := (((authority_invariant (Keeps stays)).holds reach).live rfl).primed
    refine wp_mono (wp_and (run_ran call) (run_manning h loyal primed.1)) ?_ ?_
    · rintro calls t ⟨ran, kept⟩
      exact ⟨accounted_ran accounted ran, kept⟩
    · rintro _ t ⟨died, left⟩
      exact ⟨sound_died accounted died, left⟩
  published := by
    rintro s ⟨sound, h⟩
    refine ⟨sound.mono le_rfl rfl, (h.silent fun o member => ?_).same rfl rfl⟩
    obtain ⟨event, -, rfl⟩ := List.mem_map.mp (List.mem_reverse.mp member)
    rfl

/-- No wake finds one of these runners dead, the process lives on, and the session is not opened again
while they are there. -/
def Attended (stays : Handle → Prop) (s : System) : Move → Prop
  | .receive _ env | .deadline env => Loyal stays env
  | .advance => True
  | .reopen _ _ _ => ∀ runner, stays runner → s.conf.built ≤ runner.instance_

theorem opening_stack (sessionId : String) (disk : Disk) (past : Conf) (providers : List String)
    (cwd : Option String) (env : Env) :
    (opening sessionId disk past providers cwd env).stack = [] := by
  unfold opening
  dsimp only
  split <;> rfl

theorem fresh_stack (sessionId : String) (providers : List String) (cwd : Option String) (env : Env) :
    (fresh sessionId providers cwd env).stack = [] := by
  unfold fresh
  exact opening_stack _ _ _ _ _ _

/-- What a wake brings along holds as long as it is handled. -/
theorem keeps_of_attended (run : Reach (Attended stays) s) :
    Reach (Keeps stays) s ∧ (s.ended = false → s.stack ≠ [] → Loyal stays s.conf.env) := by
  induction run with
  | init hs =>
    refine ⟨.init hs, fun _ some => ?_⟩
    obtain ⟨sessionId, providers, cwd, env, heq⟩ := hs
    rw [heq] at some
    exact absurd (fresh_stack sessionId providers cwd env) some
  | step reach allowed step ih =>
    rename_i s t m
    obtain ⟨reach, loyal⟩ := ih
    cases m with
    | receive wake env =>
      have kept : Keeps stays s (.receive wake env) := True.intro
      refine ⟨.step reach kept step, fun _ _ => ?_⟩
      dsimp only [machine, System.step] at step
      split at step
      · cases step
        exact allowed
      · cases step
    | deadline env =>
      have kept : Keeps stays s (.deadline env) := True.intro
      refine ⟨.step reach kept step, fun _ _ => ?_⟩
      dsimp only [machine, System.step] at step
      split at step
      · cases step
        exact allowed
      · cases step
    | reopen providers cwd env =>
      have kept : Keeps stays s (.reopen providers cwd env) := allowed
      refine ⟨.step reach kept step, fun _ some => ?_⟩
      have heq := Option.some.inj step
      rw [← heq] at some
      exact absurd (opening_stack _ _ _ _ _ _) some
    | advance =>
      obtain ⟨conf, stack, ended⟩ := s
      have advanced : System.advance ⟨conf, stack, ended⟩ = some t := step
      unfold System.advance at advanced
      cases ended with
      | true => cases advanced
      | false =>
        cases stack with
        | nil => cases advanced
        | cons call rest =>
          have now : Loyal stays conf.env := loyal rfl (List.cons_ne_nil _ _)
          have kept : Keeps stays ⟨conf, call :: rest, false⟩ .advance := now
          refine ⟨.step reach kept step, fun live _ => ?_⟩
          have crewed : Crewed stays conf :=
            ⟨(((manning_invariant stays).holds reach).live rfl).2.aboard, now⟩
          have hwp := crewed.wp (run_crews call)
          unfold Lib.wp at hwp
          dsimp only at advanced
          cases hrun : run call conf with
          | ok calls u =>
            rw [hrun] at hwp advanced
            cases advanced
            exact hwp.loyal
          | error e u =>
            rw [hrun] at advanced
            cases e <;> cases advanced <;> cases live

theorem reach_attended (run : Reachable s) : Reach (Attended fun _ => False) s := by
  refine run.mono fun s m _ => ?_
  cases m with
  | receive | deadline => exact loyal_nobody _
  | advance => exact True.intro
  | reopen => exact fun _ stay => stay.elim

/-- A runner that came up, and that the world outside leaves alone, is attached or parked until the
conductor puts it down; and a conductor that ended has put it down. -/
theorem no_runner_is_left {runner : Handle} (run : Reach (Attended (· = runner)) s)
    (hired : s.conf.Hired runner) :
    (s.ended = false → runner ∈ s.conf.chat.running ∨ .stopped runner ∈ s.conf.trace) ∧
      (s.ended = true → .stopped runner ∈ s.conf.trace) := by
  have holds := (manning_invariant (· = runner)).holds (keeps_of_attended run).1
  exact ⟨fun live => (holds.live live).2.aboard.kept runner rfl hired,
    fun ended => (holds.dead ended).2.gone runner rfl hired⟩

omit [Host] in
theorem Hushed.after {newer older : List Obs} {runner : Handle} {o : Obs}
    (h : Hushed (newer ++ .stopped runner :: older)) (member : o ∈ newer) :
    o.about ≠ some runner := by
  induction newer with
  | nil => cases member
  | cons first newer ih =>
    rcases List.mem_cons.mp member with rfl | member
    · intro about
      exact h.1 runner about (List.mem_append_right _ List.mem_cons_self)
    · exact ih h.2 member

/-- In every run a runner is told nothing once it was stopped, and no event counts as seen by it; its
native id may still be read, and a shutdown still takes in what it had queued. The runners that are
attached or parked drive different providers, and none of them was stopped. -/
theorem stopped_for_good (run : Reachable s) :
    (∀ newer older runner, s.conf.trace = newer ++ .stopped runner :: older →
      ∀ o ∈ newer, o.about ≠ some runner) ∧
    (s.ended = false → (s.conf.chat.running.map (·.name)).Nodup ∧
      ∀ runner ∈ s.conf.chat.running, .stopped runner ∉ s.conf.trace) := by
  have holds := (manning_invariant fun _ => False).holds (keeps_of_attended (reach_attended run)).1
  have hushed : Hushed s.conf.trace := by
    cases ended : s.ended with
    | true => exact (holds.dead ended).2.hushed
    | false => exact (holds.live ended).2.aboard.hushed
  refine ⟨fun newer older runner split o member => ?_, fun live => ?_⟩
  · rw [split] at hushed
    exact Hushed.after hushed member
  · have aboard := (holds.live live).2.aboard
    exact ⟨aboard.apart, fun runner member => (aboard.fit runner member).2⟩

theorem advance_hands (step : machine.step s .advance = some t) : Hands s.conf t.conf := by
  obtain ⟨conf, stack, ended⟩ := s
  have advanced : System.advance ⟨conf, stack, ended⟩ = some t := step
  unfold System.advance at advanced
  cases ended with
  | true => cases advanced
  | false =>
    cases stack with
    | nil => cases advanced
    | cons call rest =>
      have hwp := run_hands call (s := conf)
      unfold Lib.wp at hwp
      dsimp only at advanced
      cases hrun : run call conf with
      | ok calls u =>
        rw [hrun] at hwp advanced
        cases advanced
        exact hwp
      | error e u =>
        rw [hrun] at hwp advanced
        cases e with
        | cut =>
          cases advanced
          exact hwp
        | failed =>
          cases advanced
          obtain ⟨os, trace, attached⟩ := hwp
          obtain ⟨ps, published, kept⟩ := (publish_withholds u).2
          refine ⟨ps ++ os, ?_, fun o member handed => ?_⟩
          · rw [List.append_assoc, ← trace]
            exact published
          rcases List.mem_append.mp member with member | member
          · cases (kept o member).symm.trans handed
          · exact attached o member handed

/-- Whenever a message is handed over, the runner that takes it was last started or retuned on the
provider, model, effort and configuration that the settings resolve to, by what the registry answered in
that wake. Only its fast tier may be another: a change of that alone makes nothing stale. -/
theorem handed_as_asked (reach : Reachable s) (step : machine.step s .advance = some t)
    {os : List Obs} (trace : t.conf.trace = os ++ s.conf.trace) {runner : Handle}
    {message : PendingMessage} {delivery : Delivery} {dial : List String}
    (sent : .sent runner message (some delivery) dial ∈ os) :
    ∃ n < s.conf.calls, ∃ rung fast,
      resolve (s.conf.env.registry n) s.conf.chat.ask s.conf.chat.usable = .ok rung ∧
      runner.name = rung.provider ∧ told runner s.conf.trace =
        some { s.conf.chat.config with model := rung.model, effort := rung.effort, fast } := by
  have attached : s.conf.chat.runner = some runner := by
    obtain ⟨ps, same, attached⟩ := advance_hands step
    rw [List.append_cancel_right (trace.symm.trans same)] at sent
    exact (attached _ sent rfl).symm
  have aboard : Aboard (fun _ => False) [] s.conf := by
    have holds := (manning_invariant fun _ => False).holds
      (keeps_of_attended (reach_attended reach)).1
    refine (holds.live ?_).2.aboard
    cases ended : s.ended with
    | false => rfl
    | true =>
      obtain ⟨conf, stack, over_⟩ := s
      cases ended
      cases stack <;> cases step
  obtain ⟨signature, current, provider, fast, tells⟩ := aboard.seat runner attached
  obtain ⟨n, asked, rung, resolved, rfl⟩ := handed_inForce reach step trace sent rfl signature current
  exact ⟨n, asked, rung, fast, resolved, provider.symm, tells⟩

end System

section samples
attribute [local instance] Host.ascii

/-- A turn on claude, one on codex with claude parked, and a stop. -/
def twoRunners : List Move :=
  .receive (.send "a") (Env.answering "claude-code") :: List.replicate 8 Move.advance ++
    .receive (.heard 1 { type := .end_ }) (Env.answering "claude-code") :: List.replicate 6 Move.advance ++
    .receive (.send "b") (Env.answering "codex") :: List.replicate 8 Move.advance ++
    .receive (.stop []) (Env.answering "codex") :: List.replicate 3 Move.advance

theorem answering_loyal (stays : Handle → Prop) (provider : String) :
    Loyal stays (Env.answering provider) :=
  fun _ _ => ⟨fun _ => rfl, fun _ => by rintro ⟨⟩, fun _ => by rintro ⟨⟩⟩

theorem twoRunners_attended (stays : Handle → Prop) (s : System) :
    System.machine.Along (System.Attended stays) s twoRunners := by
  refine Lib.Machine.along_of_mem (fun s m member => ?_) s
  cases m with
  | advance => exact True.intro
  | receive wake env =>
    have either : env = Env.answering "claude-code" ∨ env = Env.answering "codex" := by
      simp only [twoRunners, List.cons_append, List.append_assoc, List.mem_cons, List.mem_append,
        List.mem_replicate, Move.receive.injEq, reduceCtorEq, and_false, false_or, or_false] at member
      tauto
    rcases either with rfl | rfl
    · exact answering_loyal _ _
    · exact answering_loyal _ _
  | _ => simp [twoRunners] at member

/-- Claude, parked while codex has its turn, is put down with it. -/
theorem System.no_runner_is_left_parked : ∃ s : System,
    System.after "chat" ["claude-code", "codex"] (Env.answering "claude-code") twoRunners = some s ∧
    s.ended = true ∧ .parked ⟨"claude-code", 0⟩ ∈ s.conf.trace ∧
    .stopped ⟨"claude-code", 0⟩ ∈ s.conf.trace := by
  have run : ∃ s, System.after "chat" ["claude-code", "codex"] (Env.answering "claude-code")
      twoRunners = some s ∧ s.ended = true ∧ .parked ⟨"claude-code", 0⟩ ∈ s.conf.trace ∧
        ∃ o ∈ s.conf.trace, o.hires ⟨"claude-code", 0⟩ = true :=
    ⟨_, Option.eq_some_of_isSome (by decide +kernel), by decide +kernel, by decide +kernel,
      by decide +kernel⟩
  obtain ⟨s, hs, ended, parked, hired⟩ := run
  have start : System.Reach (System.Attended (· = ⟨"claude-code", 0⟩))
      (System.fresh "chat" ["claude-code", "codex"] none (Env.answering "claude-code")) :=
    .init ⟨_, _, _, _, rfl⟩
  have reach := start.exec (twoRunners_attended _ _) hs
  exact ⟨s, hs, ended, parked, (System.no_runner_is_left reach hired).2 ended⟩

/-- After a stop, the one runner that was parked and the one that was attached are let be. -/
theorem System.stopped_for_good_both : ∃ s : System, s.ended = true ∧
    .stopped ⟨"claude-code", 0⟩ ∈ s.conf.trace ∧ .stopped ⟨"codex", 1⟩ ∈ s.conf.trace ∧
    ∀ newer older runner, s.conf.trace = newer ++ .stopped runner :: older →
      ∀ o ∈ newer, o.about ≠ some runner := by
  have run : ∃ s, System.after "chat" ["claude-code", "codex"] (Env.answering "claude-code")
      twoRunners = some s ∧ s.ended = true ∧ .stopped ⟨"claude-code", 0⟩ ∈ s.conf.trace ∧
        .stopped ⟨"codex", 1⟩ ∈ s.conf.trace :=
    ⟨_, Option.eq_some_of_isSome (by decide +kernel), by decide +kernel, by decide +kernel,
      by decide +kernel⟩
  obtain ⟨s, hs, ended, first, second⟩ := run
  exact ⟨s, ended, first, second, (System.stopped_for_good (System.reachable_after hs)).1⟩

/-- The model is asked for again with its fast tier once a turn of codex is over, and a message sent. -/
def fasterAsked : List Move :=
  let codex := Env.answering "codex"
  .receive (.set (.model (.model none "m" "" false))) codex :: List.replicate 3 Move.advance ++
    .receive (.send "a") codex :: List.replicate 8 Move.advance ++
    .receive (.heard 1 { type := .end_ }) codex :: List.replicate 6 Move.advance ++
    .receive (.set (.model (.model none "m" "" true))) codex :: List.replicate 3 Move.advance ++
    .receive (.send "b") codex :: List.replicate 3 Move.advance

/-- The message goes to the codex that was started without its fast tier, on the model and the effort
that are asked for. -/
theorem System.handed_as_asked_slow : ∃ (s : System) (n : ℕ) (rung : Pick),
    System.after "chat" ["codex"] Env.ascii fasterAsked = some s ∧
    s.conf.chat.ask = .model none "m" "" true ∧
    resolve (s.conf.env.registry n) s.conf.chat.ask s.conf.chat.usable = .ok rung ∧
    "codex" = rung.provider ∧ told ⟨"codex", 0⟩ s.conf.trace =
      some { s.conf.chat.config with model := rung.model, effort := rung.effort, fast := false } := by
  have run : ∃ s t : System, System.after "chat" ["codex"] Env.ascii fasterAsked = some s ∧
      System.machine.step s .advance = some t ∧ s.conf.chat.ask = .model none "m" "" true ∧
      t.conf.trace = t.conf.trace.take 3 ++ s.conf.trace ∧
      .sent ⟨"codex", 0⟩ { id := "11", text := "b" } (some .immediate) ["codex"] ∈
        t.conf.trace.take 3 ∧
      (told ⟨"codex", 0⟩ s.conf.trace).map (·.fast) = some false :=
    ⟨_, _, Option.eq_some_of_isSome (by decide +kernel), Option.eq_some_of_isSome (by decide +kernel),
      by decide +kernel, by decide +kernel, by decide +kernel, by decide +kernel⟩
  obtain ⟨s, t, hs, step, ask, trace, sent, slow⟩ := run
  obtain ⟨n, -, rung, fast, resolved, provider, tells⟩ :=
    System.handed_as_asked (System.reachable_after hs) step trace sent
  rw [tells, Option.map_some, Option.some.injEq] at slow
  obtain rfl : fast = false := slow
  exact ⟨s, n, rung, hs, ask, resolved, provider, tells⟩

end samples
end SiliconOmni
