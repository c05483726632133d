import SiliconOmni.Chat.Openings

/-! What holds along every run of a session, over all its openings. -/
namespace SiliconOmni
open Lib

variable [Host]

/-- A session nothing has happened to yet. -/
def Conf.blank (sessionId : String) (env : Env) : Conf := { env, chat := Chat.loaded sessionId {} }

namespace System

/-- `Live` of a running conductor and the calls it has still to make, or `Dead` of what one that
ended leaves. -/
structure Holds (Live : Conf → List Call → Prop) (Dead : Conf → Prop) (s : System) : Prop where
  live : s.ended = false → Live s.conf s.stack
  dead : s.ended = true → Dead s.conf
  running : s.ended = false → s.stack = [] → s.conf.chat.stopping = false

omit [Host] in
theorem Holds.of_live {Live : Conf → List Call → Prop} {Dead : Conf → Prop} {conf : Conf}
    {stack : List Call} (h : Live conf stack) (running : stack = [] → conf.chat.stopping = false) :
    Holds Live Dead { conf, stack, ended := false } :=
  ⟨fun _ => h, (fun h => by cases h), fun _ => running⟩

omit [Host] in
theorem Holds.of_dead {Live : Conf → List Call → Prop} {Dead : Conf → Prop} {conf : Conf}
    {stack : List Call} (h : Dead conf) : Holds Live Dead { conf, stack, ended := true } :=
  ⟨(fun h => by cases h), fun _ => h, fun h => by cases h⟩

theorem fresh_eq (sessionId : String) (providers : List String) (cwd : Option String) (env : Env) :
    fresh sessionId providers cwd env =
      opening (Conf.blank sessionId env).chat.sessionId (Conf.blank sessionId env).chat.disk
        (Conf.blank sessionId env) providers cwd env := rfl

/-- What has to be shown of each move for `Live` and `Dead` to hold along every run. -/
structure Invariant (ok : System → Move → Prop) (Live : Conf → List Call → Prop)
    (Dead : Conf → Prop) : Prop where
  sound {s : Conf} : Dead s → s.books.Sound
  blank (sessionId : String) (env : Env) : Dead (Conf.blank sessionId env)
  opened {past t : Conf} : Dead past → Opened past t → Live t []
  failed {past t : Conf} : Dead past → OpenFailed past t → Dead t
  left {s : Conf} {stack : List Call} {providers : List String} {cwd : Option String} {env : Env} :
    Live s stack → ok ⟨s, stack, false⟩ (.reopen providers cwd env) → Dead s
  ended {s : Conf} : Live s [] → s.chat.stopping → Dead s
  wake {s : Conf} {wake : Wake} {env : Env} : Live s [] → s.chat.stopping = false →
    (⟨s, [], false⟩ : System).waiting → ok ⟨s, [], false⟩ (.receive wake env) →
      Live { s with env, calls := 0 } wake.calls
  deadline {s : Conf} {env : Env} : Live s [] → s.chat.stopping = false → s.chat.compacting →
    Live { s with env, calls := 0 } [.startHandoff, .publish]
  call {s : Conf} {call : Call} {rest : List Call} : Reach ok ⟨s, call :: rest, false⟩ →
    ok ⟨s, call :: rest, false⟩ .advance → Live s (call :: rest) →
      wp (run call) (fun calls t => Live t (calls ++ rest)) (fun _ t => Dead t) s
  published {s : Conf} : Dead s → Dead { s with
    trace := (s.chat.unpublished.map Obs.published).reverse ++ s.trace
    chat := { s.chat with unpublished := [] } }

namespace Invariant
variable {ok : System → Move → Prop} {Live : Conf → List Call → Prop} {Dead : Conf → Prop}

theorem opening (h : Invariant ok Live Dead) {past : Conf} (dead : Dead past)
    (providers : List String) (cwd : Option String) (env : Env) :
    (System.opening past.chat.sessionId past.chat.disk past providers cwd env).Holds
      Live Dead := by
  refine opening_cases (h.sound dead) providers cwd env ?_ ?_
  · exact fun t ht => .of_live (h.opened dead ht) fun _ => congrArg Desk.stopping ht.desk
  · exact fun t ht _ => .of_dead (h.failed dead ht)

theorem advance (h : Invariant ok Live Dead) {s t : System} (reach : Reach ok s)
    (allowed : ok s .advance) (holds : s.Holds Live Dead) (step : s.advance = some t) :
    t.Holds Live Dead := by
  obtain ⟨conf, stack, ended⟩ := s
  unfold System.advance at step
  cases ended with
  | true => simp at step
  | false =>
    cases stack with
    | nil => simp at step
    | cons call rest =>
      have hwp := h.call reach allowed (holds.live rfl)
      unfold wp at hwp
      dsimp only at step
      cases hrun : run call conf with
      | ok calls u =>
        rw [hrun] at hwp step
        cases step
        dsimp only at hwp
        by_cases hover : ((calls ++ rest).isEmpty && u.chat.stopping) = true
        · rw [hover]
          refine .of_dead ?_
          obtain ⟨hempty, hstop⟩ := Bool.and_eq_true_iff.mp hover
          rw [List.isEmpty_iff.mp hempty] at hwp
          exact h.ended hwp hstop
        · rw [Bool.eq_false_of_not_eq_true hover]
          refine .of_live hwp fun hempty => ?_
          rw [hempty] at hover
          simpa using hover
      | error e u =>
        rw [hrun] at hwp step
        cases e with
        | failed =>
          cases step
          exact .of_dead (h.published hwp)
        | cut =>
          cases step
          exact .of_dead hwp

/-- What every move keeps holds in every state a run reaches. -/
theorem holds (h : Invariant ok Live Dead) {s : System} (reach : Reach ok s) :
    s.Holds Live Dead := by
  refine reach.invariant ?_ ?_
  · intro s hs
    obtain ⟨sessionId, providers, cwd, env, heq⟩ := hs
    rw [heq, fresh_eq]
    exact h.opening (h.blank sessionId env) providers cwd env
  · intro s m t reach holds allowed step
    cases m with
    | receive wake env =>
      dsimp only [machine, System.step] at step
      split at step
      next hw =>
        cases step
        obtain ⟨conf, stack, ended⟩ := s
        obtain ⟨⟨hstack, hover⟩, -⟩ : (stack = [] ∧ ended = false) ∧ _ := by
          simpa [waiting] using hw.1
        subst hstack hover
        refine .of_live (h.wake (holds.live rfl) (holds.running rfl rfl) hw.1 allowed) fun hempty => ?_
        cases wake <;> cases hempty
      next => cases step
    | advance => exact h.advance reach allowed holds step
    | deadline env =>
      dsimp only [machine, System.step] at step
      split at step
      next hw =>
        cases step
        obtain ⟨conf, stack, ended⟩ := s
        obtain ⟨hstack, hover, hcompacting⟩ : stack = [] ∧ ended = false ∧ _ := by
          simpa using hw
        subst hstack hover
        exact .of_live (h.deadline (holds.live rfl) (holds.running rfl rfl) hcompacting) (by rintro ⟨⟩)
      next => cases step
    | reopen providers cwd env =>
      have heq := Option.some.inj step
      rw [← heq]
      obtain ⟨conf, stack, ended⟩ := s
      have dead : Dead conf := by
        cases ended with
        | true => exact holds.dead rfl
        | false => exact h.left (holds.live rfl) allowed
      exact h.opening dead providers cwd env

end Invariant
end System
end SiliconOmni
