import SiliconOmni.Client.Frames

/-! Calls, frames and the disconnect of one connection, in any interleaving. -/
namespace SiliconOmni.Client

namespace Inner
variable {s t : Inner} {k j : ℕ} {m : Move}

theorem removeSubscription_calls (s : Inner) (j id : ℕ) :
    (s.removeSubscription j id).calls = s.calls ∧
      (s.removeSubscription j id).pending = s.pending ∧
      (s.removeSubscription j id).nextId = s.nextId ∧
      (s.removeSubscription j id).alive = s.alive ∧
      (s.removeSubscription j id).phase = s.phase := by
  unfold Inner.removeSubscription
  dsimp only
  cases s.subscribers.lookup (s.subs j).session <;> exact ⟨rfl, rfl, rfl, rfl, rfl⟩

theorem Routes.subStep (h : s.Routes) (step : s.subStep j m = some t) : t.Routes := by
  have hremoved : ∀ id, (s.removeSubscription j id).Routes := by
    intro id
    obtain ⟨hcalls, hpending, hnext, halive, hphase⟩ := removeSubscription_calls s j id
    obtain ⟨-, -, -, hreader, hwire⟩ := removeSubscription_same s j id
    exact h.quiet hcalls (Int.le_of_eq hnext.symm) hwire halive hpending hphase hreader
  cases m <;> simp only [Inner.subStep] at step
  case subscribe | enrol | hangUp | recv =>
    split at step <;> cases step
    exact h.quiet rfl (Int.le_refl _) rfl rfl rfl rfl rfl
  case detach =>
    split at step <;> cases step
    exact hremoved _
  case drop =>
    split at step <;> cases step
    exact (hremoved _).quiet rfl (Int.le_refl _) rfl rfl rfl rfl rfl
  all_goals cases step

theorem Airs.disconnectStep (h : s.Airs) (step : s.disconnectStep m = some t) : t.Airs := by
  cases m with
  | take | shutdown =>
    obtain ⟨-, ⟨⟩⟩ := Option.ite_none_right_eq_some.mp step
    exact h.quiet rfl rfl rfl rfl (.inl ⟨rfl, rfl⟩)
  | wake k =>
    simp only [Inner.disconnectStep] at step
    split at step
    · obtain ⟨-, ⟨⟩⟩ := Option.ite_none_right_eq_some.mp step
      exact h.quiet rfl rfl rfl rfl (.inl ⟨rfl, rfl⟩)
    · cases step
  | clear =>
    obtain ⟨-, ⟨⟩⟩ := Option.ite_none_right_eq_some.mp step
    exact h.clear rfl rfl rfl rfl rfl rfl
  | _ => cases step

theorem Airs.swap (h : s.Airs) : s.swap.Airs := by
  unfold Inner.swap
  split_ifs
  · exact h.quiet rfl rfl rfl rfl (.inl ⟨rfl, rfl⟩)
  · exact h

/-- Whose step it is. -/
theorem step_cases (step : s.step m = some t) :
    (∃ k, s.callStep k m = some t) ∨ t = { s with nextId := s.nextId + 1 } ∨ t = s.swap ∨
      s.disconnectStep m = some t ∨ s.readStep m = some t ∨ ∃ j, s.subStep j m = some t := by
  cases m with
  | call k _ | register k | check k | write k _ | breakOff k | brokenOff k | forget k | receive k
  | timeout k => exact .inl ⟨k, step⟩
  | notify => exact .inr (.inl (Option.some.inj step).symm)
  | disconnect => exact .inr (.inr (.inl (Option.some.inj step).symm))
  | take | wake | clear | shutdown => exact .inr (.inr (.inr (.inl step)))
  | read | route | settle | eof => exact .inr (.inr (.inr (.inr (.inl step))))
  | subscribe j _ | enrol j | detach j | drop j | hangUp j | recv j =>
    exact .inr (.inr (.inr (.inr (.inr ⟨j, step⟩))))

theorem Routes.step (h : s.Routes) (step : s.step m = some t) : t.Routes := by
  rcases step_cases step with ⟨k, hcall⟩ | rfl | rfl | hdisconnect | hread | ⟨j, hsub⟩
  · exact h.callStep hcall
  · exact h.quiet rfl (Int.le_of_lt (Int.lt_succ _)) rfl rfl rfl rfl rfl
  · exact h.swap
  · exact h.disconnectStep hdisconnect
  · exact h.readStep hread
  · exact h.subStep hsub

theorem Airs.step (h : s.Airs) (step : s.step m = some t) : t.Airs := by
  rcases step_cases step with ⟨k, hcall⟩ | rfl | rfl | hdisconnect | hread | ⟨j, hsub⟩
  · obtain ⟨hsubs, hsubscribers, hhistory, hnext, hreader, hwire⟩ := callStep_same hcall
    exact h.quiet hnext hsubs hsubscribers hhistory (.inl ⟨by rw [hreader], hwire⟩)
  · exact h.quiet rfl rfl rfl rfl (.inl ⟨rfl, rfl⟩)
  · exact h.swap
  · exact h.disconnectStep hdisconnect
  · exact h.readStep hread
  · exact h.subStep hsub

theorem Routes.leaving (h : s.Routes) (drained : s.phase.drained) {id : ℤ}
    (mem : (id, k) ∈ s.pending) : ∃ own t, own ⊆ [.check k, .forget k] ∧
      connection.exec s own = some t ∧ (t.calls k).pc = .returned id (.error .disconnected) ∧
        ∀ l, (id, l) ∉ t.pending := by
  have hdown : s.alive = false := h.down (by rintro hup; rw [hup] at drained; cases drained)
  have forgets : ∀ u : Inner, (u.calls k).pc = .failing id .disconnected →
      ∃ t, u.step (.forget k) = some t ∧ (t.calls k).pc = .returned id (.error .disconnected) ∧
        ∀ l, (id, l) ∉ t.pending := by
    intro u hpc
    refine ⟨(u.forgetCall id).setPc k (.returned id (.error .disconnected)), ?_, ?_, ?_⟩
    · simp [Inner.step, Inner.callStep, hpc]
    · simp [Inner.setPc, Inner.setCall]
    · intro l hl
      obtain ⟨-, hne⟩ := List.mem_filter.mp hl
      simp at hne
  rcases h.drained drained id k mem with hpc | hpc
  · have hcheck : s.step (.check k) = some (s.setPc k (.failing id .disconnected)) := by
      simp [Inner.step, Inner.callStep, hpc, hdown]
    obtain ⟨t, hforget, hreturned, hpending⟩ := forgets (s.setPc k (.failing id .disconnected))
      (by simp [Inner.setPc, Inner.setCall])
    refine ⟨[.check k, .forget k], t, List.Subset.refl _, ?_, hreturned, hpending⟩
    simp [Lib.Machine.exec, connection, hcheck, hforget]
  · obtain ⟨t, hforget, hreturned, hpending⟩ := forgets s hpc
    refine ⟨[.forget k], t, by simp, ?_, hreturned, hpending⟩
    simp [Lib.Machine.exec, connection, hforget]

end Inner

end SiliconOmni.Client
