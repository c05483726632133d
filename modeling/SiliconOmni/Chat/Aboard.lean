import SiliconOmni.Chat.Tending

/-! Which runners are still running: attached, parked, or in hand while one is being brought up or
put down. What is said of a runner, and what it was last told to run on. -/
namespace SiliconOmni
open Lib Frame

namespace Obs

/-- The runner that was told or asked something, its native id aside, or is counted as having seen an
event. What a shutdown takes in of its queue, when no runner is attached any more, is not. -/
def about : Obs → Option Handle
  | started runner _ _ _ _ _ | caughtUp runner _ _ _ | seeded runner _ | sent runner _ _ _
  | shared runner _ | opened runner _ | retuned runner _ _ _ | compacted runner _
  | interrupted runner | stopped runner | parked runner | adopted runner _ _ => some runner
  | _ => none

/-- The runner came up. -/
def hires (runner : Handle) : Obs → Bool
  | started other _ _ _ true _ => other = runner
  | _ => false

/-- Neither a start nor an end of a runner, nor a change of what it runs on. -/
def isMinor : Obs → Bool
  | started _ _ _ _ _ _ | stopped _ | retuned _ _ _ _ => false
  | _ => true

theorem hires_of_isMinor {o : Obs} (minor : o.isMinor) (runner : Handle) :
    o.hires runner = false := by
  cases o with
  | started => cases minor
  | _ => rfl

theorem about_of_hires {o : Obs} {runner : Handle} (hires : o.hires runner = true) :
    o.about = some runner := by
  cases o with
  | started other config nativeId history took dial =>
    cases took with
    | false => cases hires
    | true => exact congrArg some (of_decide_eq_true hires)
  | _ => cases hires

end Obs

/-- Nothing is told to a runner once it was stopped, nor is an event counted as seen by it. -/
def Hushed : List Obs → Prop
  | [] => True
  | o :: os => (∀ runner, o.about = some runner → .stopped runner ∉ os) ∧ Hushed os

/-- What a runner was last started on, less what it was retuned to since. -/
def told (runner : Handle) : List Obs → Option Config
  | [] => none
  | .started other config _ _ took _ :: os =>
      if other = runner ∧ took then some config else told runner os
  | .retuned other model effort took :: os =>
      if other = runner ∧ took then
        (told runner os).map fun config => { config with model, effort }
      else told runner os
  | _ :: os => told runner os

theorem told_cons_minor {o : Obs} (minor : o.isMinor) (runner : Handle) (os : List Obs) :
    told runner (o :: os) = told runner os := by
  cases o with
  | started => cases minor
  | retuned => cases minor
  | _ => rfl

theorem told_cons_other {o : Obs} {runner other : Handle} (about : o.about = some other)
    (ne : other ≠ runner) (os : List Obs) : told runner (o :: os) = told runner os := by
  cases o with
  | started another =>
    have same : another = other := Option.some.inj about
    simp [told, same, ne]
  | retuned another =>
    have same : another = other := Option.some.inj about
    simp [told, same, ne]
  | _ => rfl

/-- A runner that runs on these settings, whatever its fast tier. -/
def Signature.Fits (signature : Signature) (runner : Handle) (trace : List Obs) : Prop :=
  signature.provider = runner.name ∧
    ∃ fast, told runner trace =
      some { signature.config with model := signature.model, effort := signature.effort, fast }

namespace Conf

/-- The runner came up at some point. -/
def Hired (s : Conf) (runner : Handle) : Prop := ∃ o ∈ s.trace, o.hires runner = true

/-- The runners in hand and those that the chat keeps. -/
def board (s : Conf) (hand : List Handle) : List Handle := hand ++ s.chat.running

end Conf

/-- Where these runners stay, the world outside leaves them and the process alone. -/
def Loyal (stays : Handle → Prop) (env : Env) : Prop :=
  ∀ runner, stays runner →
    (∀ n, env.alive n runner = true) ∧ (∀ n, env.commit n ≠ .cut) ∧ ∀ n, env.append n ≠ .cut

/-- Every runner that came up is in hand, attached, parked or stopped, if it is one that stays; those
on board were never stopped, run on the settings the chat keeps for them, and drive a provider each. -/
structure Aboard (stays : Handle → Prop) (hand : List Handle) (s : Conf) : Prop where
  hushed : Hushed s.trace
  young : ∀ o ∈ s.trace, ∀ runner, o.about = some runner → runner.instance_ < s.built
  fit : ∀ runner ∈ s.board hand, runner.instance_ < s.built ∧ .stopped runner ∉ s.trace
  apart : ((s.board hand).map (·.name)).Nodup
  keyed : ∀ entry ∈ s.chat.parked, entry.1 = entry.2.runner.name
  kept : ∀ runner, stays runner → s.Hired runner → runner ∈ s.board hand ∨ .stopped runner ∈ s.trace
  seat : ∀ runner, s.chat.runner = some runner →
    ∃ signature, s.chat.current = some signature ∧ signature.Fits runner s.trace
  lot : ∀ entry ∈ s.chat.parked, entry.2.signature.Fits entry.2.runner s.trace

/-- What is left of a conductor that ended: every runner that stays was stopped. -/
structure Ashore (stays : Handle → Prop) (s : Conf) : Prop where
  hushed : Hushed s.trace
  young : ∀ o ∈ s.trace, ∀ runner, o.about = some runner → runner.instance_ < s.built
  gone : ∀ runner, stays runner → s.Hired runner → .stopped runner ∈ s.trace

theorem Ashore.same {stays : Handle → Prop} {s t : Conf} (h : Ashore stays s)
    (trace : t.trace = s.trace) (built : t.built = s.built) : Ashore stays t where
  hushed := trace ▸ h.hushed
  young := by
    rw [trace, built]
    exact h.young
  gone := by
    unfold Conf.Hired
    rw [trace]
    exact h.gone

namespace Aboard
variable {stays : Handle → Prop} {hand hand' : List Handle} {s t : Conf} {runner : Handle}

theorem attached_board (attached : s.chat.runner = some runner) : runner ∈ s.board hand := by
  simp [Conf.board, Chat.running, attached]

theorem parked_board {entry : String × Parked} (member : entry ∈ s.chat.parked) :
    entry.2.runner ∈ s.board hand := by
  have parked : entry.2.runner ∈ s.chat.parked.map (·.2.runner) := List.mem_map_of_mem member
  exact List.mem_append_right _ (List.mem_append_right _ parked)

/-- The same runners in other places. -/
theorem regroup (h : Aboard stays hand s) (trace : t.trace = s.trace) (built : t.built = s.built)
    (perm : (t.board hand').Perm (s.board hand))
    (keyed : ∀ entry ∈ t.chat.parked, entry.1 = entry.2.runner.name)
    (seat : ∀ runner, t.chat.runner = some runner →
      ∃ signature, t.chat.current = some signature ∧ signature.Fits runner s.trace)
    (lot : ∀ entry ∈ t.chat.parked, entry.2.signature.Fits entry.2.runner s.trace) :
    Aboard stays hand' t where
  hushed := trace ▸ h.hushed
  young := by
    rw [trace, built]
    exact h.young
  fit := by
    intro runner member
    rw [trace, built]
    exact h.fit runner (perm.mem_iff.mp member)
  apart := (perm.map _).nodup_iff.mpr h.apart
  keyed := keyed
  kept := by
    intro runner stay hired
    unfold Conf.Hired at hired
    rw [trace] at hired ⊢
    exact (h.kept runner stay hired).imp_left perm.mem_iff.mpr
  seat := trace ▸ seat
  lot := trace ▸ lot

/-- The same runners in the same places. -/
theorem same (h : Aboard stays hand s) (trace : t.trace = s.trace) (built : t.built = s.built)
    (chat : t.chat = s.chat) : Aboard stays hand t := by
  refine h.regroup trace built ?_ (chat ▸ h.keyed) (chat ▸ h.seat) (chat ▸ h.lot)
  rw [Conf.board, chat]
  exact .refl _

/-- A runner in hand that will not stay is let go. -/
theorem drop (h : Aboard stays (runner :: hand) s) (away : ¬ stays runner) : Aboard stays hand s where
  hushed := h.hushed
  young := h.young
  fit other member := h.fit other (List.mem_cons_of_mem _ member)
  apart := (List.nodup_cons.mp h.apart).2
  keyed := h.keyed
  kept := by
    intro other stay hired
    rcases h.kept other stay hired with member | stopped
    · rcases List.mem_cons.mp member with rfl | member
      · exact absurd stay away
      · exact .inl member
    · exact .inr stopped
  seat := h.seat
  lot := h.lot

/-- One more thing asked of a runner on board, or heard of it. -/
theorem noted (h : Aboard stays hand s) {o : Obs} (minor : o.isMinor)
    (about : ∀ runner, o.about = some runner → runner ∈ s.board hand) :
    Aboard stays hand { s with trace := o :: s.trace } := by
  have same {signature : Signature} {runner : Handle} (fits : signature.Fits runner s.trace) :
      signature.Fits runner (o :: s.trace) := by
    obtain ⟨provider, fast, tells⟩ := fits
    exact ⟨provider, fast, by rw [told_cons_minor minor]; exact tells⟩
  have fresh (runner : Handle) : .stopped runner ∉ s.trace → .stopped runner ∉ o :: s.trace := by
    intro apart member
    rcases List.mem_cons.mp member with rfl | member
    · cases minor
    · exact apart member
  constructor
  · exact ⟨fun runner heq => (h.fit runner (about runner heq)).2, h.hushed⟩
  · intro o' member runner heq
    rcases List.mem_cons.mp member with rfl | member
    · exact (h.fit runner (about runner heq)).1
    · exact h.young o' member runner heq
  · exact fun runner member => ⟨(h.fit runner member).1, fresh runner (h.fit runner member).2⟩
  · exact h.apart
  · exact h.keyed
  · rintro runner stay ⟨o', member, hires⟩
    rcases List.mem_cons.mp member with rfl | member
    · cases (Obs.hires_of_isMinor minor runner).symm.trans hires
    · exact (h.kept runner stay ⟨o', member, hires⟩).imp_right (List.mem_cons_of_mem _)
  · intro runner attached
    obtain ⟨signature, current, fits⟩ := h.seat runner attached
    exact ⟨signature, current, same fits⟩
  · exact fun entry member => same (h.lot entry member)

/-- A runner in hand is stopped. -/
theorem stop (h : Aboard stays (runner :: hand) s) :
    Aboard stays hand { s with trace := .stopped runner :: s.trace } := by
  have own := h.fit runner List.mem_cons_self
  have others (other : Handle) (member : other ∈ s.board hand) : other ≠ runner := by
    rintro rfl
    exact (List.nodup_cons.mp h.apart).1 (List.mem_map_of_mem member)
  constructor
  · refine ⟨fun other heq => ?_, h.hushed⟩
    rw [← Option.some.inj heq]
    exact own.2
  · intro o member other heq
    rcases List.mem_cons.mp member with rfl | member
    · rw [← Option.some.inj heq]
      exact own.1
    · exact h.young o member other heq
  · intro other member
    obtain ⟨built, apart⟩ := h.fit other (List.mem_cons_of_mem _ member)
    refine ⟨built, fun stopped => ?_⟩
    rcases List.mem_cons.mp stopped with heq | stopped
    · exact others other member (Obs.stopped.inj heq)
    · exact apart stopped
  · exact (List.nodup_cons.mp h.apart).2
  · exact h.keyed
  · rintro other stay ⟨o, member, hires⟩
    rcases List.mem_cons.mp member with rfl | member
    · cases hires
    · rcases h.kept other stay ⟨o, member, hires⟩ with member | stopped
      · rcases List.mem_cons.mp member with rfl | member
        · exact .inr List.mem_cons_self
        · exact .inl member
      · exact .inr (List.mem_cons_of_mem _ stopped)
  · exact h.seat
  · exact h.lot

/-- The attached runner is taken in hand. -/
theorem lift (h : Aboard stays hand s) (attached : s.chat.runner = some runner) :
    Aboard stays (runner :: hand) { s with chat := { s.chat with runner := none } } := by
  refine h.regroup rfl rfl ?_ h.keyed (by rintro _ ⟨⟩) h.lot
  simp only [Conf.board, Chat.running, attached, Option.toList, List.nil_append, List.cons_append]
  exact List.perm_middle.symm

/-- The runner in hand becomes the attached one. -/
theorem attach (h : Aboard stays (runner :: hand) s) (free : s.chat.runner = none) {c : Chat}
    (attached : c.runner = some runner) (parked : c.parked = s.chat.parked)
    (seat : ∃ signature, c.current = some signature ∧ signature.Fits runner s.trace) :
    Aboard stays hand { s with chat := c } := by
  refine h.regroup rfl rfl ?_ (parked ▸ h.keyed) ?_ (parked ▸ h.lot)
  · simp only [Conf.board, Chat.running, attached, free, parked, Option.toList, List.nil_append,
      List.cons_append]
    exact List.perm_middle
  · rintro other heq
    rw [attached] at heq
    cases heq
    exact seat

theorem apart_parked (h : Aboard stays (runner :: hand) s) :
    ∀ entry ∈ s.chat.parked, entry.1 ≠ runner.name := by
  intro entry member same
  refine (List.nodup_cons.mp h.apart).1 (List.mem_map.mpr ⟨entry.2.runner, ?_, ?_⟩)
  · exact parked_board member
  · exact (h.keyed entry member).symm.trans same

theorem apart_lot (h : Aboard stays (runner :: hand) s) :
    ∀ entry ∈ s.chat.parked, entry.2.runner ≠ runner := by
  intro entry member same
  exact h.apart_parked entry member (same ▸ h.keyed entry member)

end Aboard

namespace Aboard
variable {stays : Handle → Prop} {hand hand' : List Handle} {s t : Conf} {runner : Handle}

/-- The runner in hand is set aside. -/
theorem shelve (h : Aboard stays (runner :: hand) s) {entry : Parked} (own : entry.runner = runner)
    (fits : entry.signature.Fits runner s.trace) {c : Chat} (attached : c.runner = s.chat.runner)
    (current : c.current = s.chat.current)
    (parked : c.parked = s.chat.parked.insert runner.name entry) :
    Aboard stays hand { s with chat := c } := by
  rw [Entries.insert_of_apart _ h.apart_parked] at parked
  have cases_ {P : String × Parked → Prop} (old : ∀ entry ∈ s.chat.parked, P entry)
      (new : P (runner.name, entry)) : ∀ entry ∈ c.parked, P entry := by
    intro other member
    rw [parked] at member
    rcases List.mem_append.mp member with member | member
    · exact old other member
    · rw [List.mem_singleton.mp member]
      exact new
  refine h.regroup rfl rfl ?_ (cases_ h.keyed (by rw [own])) ?_ (cases_ h.lot (own ▸ fits))
  · simp only [Conf.board, Chat.running, attached, parked, own, List.map_append, List.map_cons,
      List.map_nil, List.cons_append, ← List.append_assoc]
    exact List.perm_append_singleton ..
  · intro other heq
    obtain ⟨signature, running, fits⟩ := h.seat other (attached.symm.trans heq)
    exact ⟨signature, current.trans running, fits⟩

theorem keys (h : Aboard stays hand s) : s.chat.parked.Keyed := by
  have names : (s.chat.parked.map (·.1)) = (s.chat.parked.map (·.2.runner)).map (·.name) := by
    rw [List.map_map]
    exact List.map_congr_left h.keyed
  rw [Entries.Keyed, names]
  refine h.apart.sublist (List.Sublist.map _ ?_)
  exact (List.sublist_append_right ..).trans (List.sublist_append_right ..)

/-- A parked runner is taken in hand. -/
theorem fetch (h : Aboard stays hand s) {name : String} {entry : Parked}
    (found : s.chat.parked.lookup name = some entry) {c : Chat} (attached : c.runner = s.chat.runner)
    (current : c.current = s.chat.current) (parked : c.parked = s.chat.parked.remove name) :
    Aboard stays (entry.runner :: hand) { s with chat := c } := by
  have older (other : String × Parked) (member : other ∈ c.parked) : other ∈ s.chat.parked := by
    rw [parked] at member
    exact (List.mem_filter.mp member).1
  refine h.regroup rfl rfl ?_ (fun other member => h.keyed other (older other member)) ?_
    fun other member => h.lot other (older other member)
  · have runners : (s.chat.parked.map (·.2.runner)).Perm
        (entry.runner :: c.parked.map (·.2.runner)) := by
      rw [parked]
      exact (Entries.perm_remove h.keys found).map _
    simp only [Conf.board, Chat.running, attached, List.cons_append, ← List.append_assoc]
    exact List.perm_middle.symm.trans (runners.symm.append_left _)
  · intro other heq
    obtain ⟨signature, running, fits⟩ := h.seat other (attached.symm.trans heq)
    exact ⟨signature, current.trans running, fits⟩

/-- A new runner that came up is in hand; one that did not is not. -/
theorem hire (h : Aboard stays hand s) (named : runner.instance_ = s.built)
    (apart : ∀ other ∈ s.board hand, other.name ≠ runner.name) (config : Config) (nativeId : String)
    (history : List Event) (dial : List String) (took : Bool) :
    Aboard stays (if took then runner :: hand else hand) { s with
      built := s.built + 1
      trace := .started runner config nativeId history took dial :: s.trace } := by
  have unseen : ∀ o ∈ s.trace, o.about ≠ some runner := by
    intro o member about
    have := h.young o member runner about
    omega
  have unstopped : .stopped runner ∉ s.trace := fun member => unseen _ member rfl
  have others (other : Handle) (member : other ∈ s.board hand) : runner ≠ other := by
    rintro rfl
    exact apart _ member rfl
  have within : ∀ other ∈ (if took then runner :: hand else hand) ++ s.chat.running,
      other = runner ∧ took = true ∨ other ∈ s.board hand := by
    cases took with
    | true => exact fun other member => (List.mem_cons.mp member).imp_left (⟨·, rfl⟩)
    | false => exact fun other member => .inr member
  have same {signature : Signature} {other : Handle} (member : other ∈ s.board hand)
      (fits : signature.Fits other s.trace) :
      signature.Fits other (.started runner config nativeId history took dial :: s.trace) := by
    obtain ⟨provider, fast, tells⟩ := fits
    refine ⟨provider, fast, ?_⟩
    rw [told_cons_other rfl (others other member)]
    exact tells
  constructor
  · refine ⟨fun other heq => ?_, h.hushed⟩
    rw [← Option.some.inj heq]
    exact unstopped
  · intro o member other heq
    rcases List.mem_cons.mp member with rfl | member
    · rw [← Option.some.inj heq]
      exact named ▸ Nat.lt_succ_self _
    · exact Nat.lt_succ_of_lt (h.young o member other heq)
  · intro other member
    rcases within other member with ⟨rfl, -⟩ | member
    · exact ⟨named ▸ Nat.lt_succ_self _, by simpa using unstopped⟩
    · obtain ⟨built, still⟩ := h.fit other member
      exact ⟨Nat.lt_succ_of_lt built, by simpa using still⟩
  · cases took with
    | true =>
      refine List.nodup_cons.mpr ⟨fun member => ?_, h.apart⟩
      obtain ⟨other, member, name⟩ := List.mem_map.mp member
      exact apart other member name
    | false => exact h.apart
  · exact h.keyed
  · rintro other stay ⟨o, member, hires⟩
    rcases List.mem_cons.mp member with rfl | member
    · cases took with
      | true =>
        rw [← of_decide_eq_true hires]
        exact .inl List.mem_cons_self
      | false => cases hires
    · rcases h.kept other stay ⟨o, member, hires⟩ with onboard | stopped
      · left
        cases took with
        | true => exact List.mem_cons_of_mem _ onboard
        | false => exact onboard
      · exact .inr (List.mem_cons_of_mem _ stopped)
  · intro other attached
    obtain ⟨signature, current, fits⟩ := h.seat other attached
    exact ⟨signature, current, same (attached_board attached) fits⟩
  · exact fun entry member => same (parked_board member) (h.lot entry member)

/-- A runner on board is told to run on another model or effort, and takes it or not. -/
theorem retune (h : Aboard stays hand s) (member : runner ∈ s.board hand) (model effort : String)
    (took : Bool) {c : Chat} (attached : c.runner = s.chat.runner) (parked : c.parked = s.chat.parked)
    (seat : ∀ other, c.runner = some other → ∃ signature, c.current = some signature ∧
      signature.Fits other (.retuned runner model effort took :: s.trace))
    (own : took = true → ∀ entry ∈ s.chat.parked, entry.2.runner ≠ runner) :
    Aboard stays hand { s with
      trace := .retuned runner model effort took :: s.trace
      chat := c } := by
  have board : ({ s with
      trace := .retuned runner model effort took :: s.trace
      chat := c } : Conf).board hand = s.board hand := by
    simp [Conf.board, Chat.running, attached, parked]
  obtain ⟨built, unstopped⟩ := h.fit runner member
  constructor
  · exact ⟨fun other heq => Option.some.inj heq ▸ unstopped, h.hushed⟩
  · intro o member other heq
    rcases List.mem_cons.mp member with rfl | member
    · exact Option.some.inj heq ▸ built
    · exact h.young o member other heq
  · intro other onboard
    rw [board] at onboard
    obtain ⟨built, still⟩ := h.fit other onboard
    exact ⟨built, by simpa using still⟩
  · rw [board]
    exact h.apart
  · exact parked ▸ h.keyed
  · rintro other stay ⟨o, member, hires⟩
    rw [board]
    rcases List.mem_cons.mp member with rfl | member
    · cases hires
    · exact (h.kept other stay ⟨o, member, hires⟩).imp_right (List.mem_cons_of_mem _)
  · exact seat
  · intro entry later
    have onLot : entry ∈ s.chat.parked := parked ▸ later
    obtain ⟨provider, fast, tells⟩ := h.lot entry onLot
    refine ⟨provider, fast, ?_⟩
    have same : told entry.2.runner (.retuned runner model effort took :: s.trace) =
        told entry.2.runner s.trace := by
      cases took with
      | true => exact told_cons_other rfl (own rfl entry onLot).symm _
      | false => simp [told]
    rw [same]
    exact tells

/-- All that is kept is taken in hand. -/
theorem strip (h : Aboard stays [] s) {c : Chat} (attached : c.runner = none) (parked : c.parked = []) :
    Aboard stays s.chat.running { s with chat := c } := by
  have none_ : c.running = [] := by simp [Chat.running, attached, parked]
  refine h.regroup rfl rfl ?_ ?_ ?_ ?_
  · simp [Conf.board, none_]
  · simp [parked]
  · simp [attached]
  · simp [parked]

/-- All that is in hand is stopped. -/
theorem stopAll {runners : List Handle} (h : Aboard stays runners s) :
    Aboard stays [] { s with trace := (runners.map Obs.stopped).reverse ++ s.trace } := by
  induction runners generalizing s with
  | nil => exact h
  | cons runner runners ih =>
    have rest := ih h.stop
    rw [List.map_cons, List.reverse_cons, List.append_assoc]
    exact rest

/-- Where no runner stays, nothing is owed to any. -/
theorem cut (h : Aboard stays hand s) (away : ∀ runner, ¬ stays runner) : Ashore stays s :=
  ⟨h.hushed, h.young, fun runner stay => absurd stay (away runner)⟩

/-- Every runner that stays was stopped, where none is on board. -/
theorem ashore (h : Aboard stays [] s) (none_ : s.chat.running = []) : Ashore stays s where
  hushed := h.hushed
  young := h.young
  gone := by
    intro runner stay hired
    rcases h.kept runner stay hired with member | stopped
    · rw [Conf.board, none_] at member
      cases member
    · exact stopped

end Aboard
end SiliconOmni
