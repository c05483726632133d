import Mathlib.Data.List.Induction
import Mathlib.Data.List.Nodup
import Mathlib.Data.Nat.Notation
import Mathlib.Logic.Function.Basic
import Mathlib.Tactic.Common

/-! One source that carries the inputs of many machines, told apart by key: every tenant of a key
hears what a machine of its own would say. -/
namespace SiliconOmni.Lib.Demux
variable {κ σ ι ω : Type} [DecidableEq κ]

/-- What happens at the board. Tenants are known by number. -/
inductive Happening (κ σ ι : Type) where
  /-- A tenant takes a key, with a machine in the given state. -/
  | rented (tenant : ℕ) (key : κ) (start : σ)
  | left (key : κ)
  | input (key : κ) (input : ι)
  deriving DecidableEq

/-- The tenant that takes a key. -/
def Happening.tenant : Happening κ σ ι → Option ℕ
  | .rented tenant _ _ => some tenant
  | .left _ | .input _ _ => none

/-- Nobody takes a second key. -/
def Once (history : List (Happening κ σ ι)) : Prop := (history.filterMap (·.tenant)).Nodup

def Came (tenant : ℕ) (history : List (Happening κ σ ι)) : Prop :=
  tenant ∈ history.filterMap (·.tenant)

omit [DecidableEq κ] in
theorem came_append {tenant : ℕ} {history : List (Happening κ σ ι)} {h : Happening κ σ ι} :
    Came tenant (history ++ [h]) ↔ Came tenant history ∨ h.tenant = some tenant := by
  cases h <;> simp [Came, Happening.tenant, eq_comm]

omit [DecidableEq κ] in
theorem once_append {history : List (Happening κ σ ι)} {h : Happening κ σ ι} :
    Once (history ++ [h]) ↔ Once history ∧ ∀ t, h.tenant = some t → ¬Came t history := by
  cases h with
  | rented tenant key start =>
    have split : (history ++ [Happening.rented tenant key start]).filterMap Happening.tenant =
        history.filterMap Happening.tenant ++ [tenant] := by
      rw [List.filterMap_append]
      rfl
    rw [Once, split, List.nodup_append]
    constructor
    · rintro ⟨once, -, apart⟩
      refine ⟨once, ?_⟩
      rintro _ ⟨⟩ came
      exact apart tenant came tenant List.mem_cons_self rfl
    · rintro ⟨once, away⟩
      refine ⟨once, List.nodup_singleton tenant, ?_⟩
      intro t came t' hmem heq
      obtain rfl := List.mem_singleton.mp hmem
      exact away t' rfl (heq ▸ came)
  | left key | input key i => simp [Once, Happening.tenant]

/-- Who holds each key and in which state its machine is, and what was said to whom. -/
structure Board (κ σ ω : Type) where
  line : κ → Option (ℕ × σ) := fun _ => none
  said : List (ℕ × ω) := []

/-- What a tenant was told. -/
def Board.toldTo (board : Board κ σ ω) (tenant : ℕ) : List ω :=
  (board.said.filter fun word => word.1 = tenant).map (·.2)

variable (next : σ → ι → List ω × σ)

def Board.step (board : Board κ σ ω) : Happening κ σ ι → Board κ σ ω
  | .rented tenant key start =>
      { board with line := Function.update board.line key (some (tenant, start)) }
  | .left key => { board with line := Function.update board.line key none }
  | .input key i =>
      match board.line key with
      | none => board
      | some (tenant, s) =>
          { line := Function.update board.line key (some (tenant, (next s i).2))
            said := board.said ++ (next s i).1.map fun word => (tenant, word) }

/-- The board after a history. -/
def boardAfter (history : List (Happening κ σ ι)) : Board κ σ ω := history.foldl (Board.step next) {}

@[simp] theorem boardAfter_append (history : List (Happening κ σ ι)) (h : Happening κ σ ι) :
    boardAfter next (history ++ [h]) = (boardAfter next history).step next h := by
  simp [boardAfter]

/-- What a machine of one's own says to the inputs of a key, and its state at the end: none once
the key is given up or taken by somebody else. -/
def alone (key : κ) : σ → List (Happening κ σ ι) → List ω × Option σ
  | s, [] => ([], some s)
  | s, .rented _ k _ :: rest => if k = key then ([], none) else alone key s rest
  | s, .left k :: rest => if k = key then ([], none) else alone key s rest
  | s, .input k i :: rest =>
      if k = key then
        ((next s i).1 ++ (alone key (next s i).2 rest).1, (alone key (next s i).2 rest).2)
      else alone key s rest

/-- What is said from an earlier point on, added to what was said up to there. -/
def onward (key : κ) (sofar : List ω × Option σ) (more : List (Happening κ σ ι)) :
    List ω × Option σ :=
  match sofar.2 with
  | none => sofar
  | some s => (sofar.1 ++ (alone next key s more).1, (alone next key s more).2)

/-- A tenant's key, and what its own machine made of the inputs from the moment that it took it. -/
def lot (tenant : ℕ) : List (Happening κ σ ι) → Option (κ × List ω × Option σ)
  | [] => none
  | .rented t key start :: rest =>
      if t = tenant then some (key, alone next key start rest) else lot tenant rest
  | .left _ :: rest | .input _ _ :: rest => lot tenant rest

/-- What a tenant would have heard from a machine of its own. -/
def heard (tenant : ℕ) (history : List (Happening κ σ ι)) : List ω :=
  ((lot next tenant history).map (·.2.1)).getD []

/-- The key that a tenant still holds, and the state of its machine. -/
def standing (tenant : ℕ) (history : List (Happening κ σ ι)) : Option (κ × σ) :=
  (lot next tenant history).bind fun lot => lot.2.2.map fun s => (lot.1, s)

variable {next} {tenant : ℕ} {key : κ} {s : σ} {history : List (Happening κ σ ι)}
variable {h : Happening κ σ ι}

theorem alone_append (history more : List (Happening κ σ ι)) :
    alone next key s (history ++ more) = onward next key (alone next key s history) more := by
  induction history generalizing s with
  | nil => simp [alone, onward]
  | cons h rest ih =>
    cases h with
    | rented t k start | left k =>
      by_cases hk : k = key
      · simp [alone, onward, hk]
      · simp [alone, hk, ih]
    | input k i =>
      by_cases hk : k = key
      · simp only [List.cons_append, alone, hk, ↓reduceIte, ih]
        cases hstate : (alone next key (next s i).2 rest).2 <;> simp [onward, hstate]
      · simp [alone, hk, ih]

/-- Who has not come has no lot. -/
theorem lot_away (away : ¬Came tenant history) : lot next tenant history = none := by
  induction history with
  | nil => rfl
  | cons h rest ih =>
    cases h with
    | rented t key start =>
      have hne : t ≠ tenant ∧ ¬Came tenant rest := by
        simpa [Came, Happening.tenant, not_or, eq_comm] using away
      rw [lot, if_neg hne.1]
      exact ih hne.2
    | left key | input key i => exact ih (by simpa [Came, Happening.tenant] using away)

theorem lot_append (other : h.tenant ≠ some tenant) : lot next tenant (history ++ [h]) =
    (lot next tenant history).map fun lot => (lot.1, onward next lot.1 lot.2 [h]) := by
  induction history with
  | nil =>
    cases h with
    | rented t key start =>
      have hne : t ≠ tenant := fun heq => other (congrArg some heq)
      simp [lot, hne]
    | left key | input key i => rfl
  | cons first rest ih =>
    cases first with
    | rented t key start =>
      by_cases ht : t = tenant
      · simp [lot, ht, alone_append]
      · simp [lot, ht, ih]
    | left key | input key i => exact ih

theorem lot_rented (away : ¬Came tenant history) :
    lot next tenant (history ++ [.rented tenant key s]) = some (key, [], some s) := by
  induction history with
  | nil => simp [lot, alone]
  | cons first rest ih =>
    cases first with
    | rented t k start =>
      have hne : t ≠ tenant ∧ ¬Came tenant rest := by
        simpa [Came, Happening.tenant, not_or, eq_comm] using away
      simp [lot, hne.1, ih hne.2]
    | left k | input k i => exact ih (by simpa [Came, Happening.tenant] using away)

/-- What one more happening does to a tenant that does not come with it. -/
theorem heard_append (other : h.tenant ≠ some tenant) : heard next tenant (history ++ [h]) =
    heard next tenant history ++
      (standing next tenant history).elim [] fun p => (alone next p.1 p.2 [h]).1 := by
  rw [heard, heard, standing, lot_append other]
  cases lot next tenant history with
  | none => rfl
  | some lot =>
    obtain ⟨key, said, state⟩ := lot
    cases state <;> simp [onward]

theorem standing_append (other : h.tenant ≠ some tenant) : standing next tenant (history ++ [h]) =
    (standing next tenant history).bind fun p =>
      (alone next p.1 p.2 [h]).2.map fun s => (p.1, s) := by
  rw [standing, standing, lot_append other]
  cases lot next tenant history with
  | none => rfl
  | some lot =>
    obtain ⟨key, said, state⟩ := lot
    cases state <;> simp [onward]

/-- A key that changes hands, or is given up, is lost by whoever held it, and nothing is said. -/
def Happening.Frees (h : Happening κ σ ι) (key : κ) : Prop :=
  (∃ tenant start, h = .rented tenant key start) ∨ h = .left key

theorem alone_frees {k : κ} (frees : h.Frees k) :
    alone next key s [h] = ([], if k = key then none else some s) := by
  rcases frees with ⟨t, start, rfl⟩ | rfl <;> (simp only [alone]; split_ifs <;> rfl)

theorem heard_frees {k : κ} (frees : h.Frees k) (other : h.tenant ≠ some tenant) :
    heard next tenant (history ++ [h]) = heard next tenant history := by
  rw [heard_append other]
  cases standing next tenant history <;> simp [alone_frees frees]

theorem standing_frees {k : κ} (frees : h.Frees k) (other : h.tenant ≠ some tenant) :
    standing next tenant (history ++ [h]) = some (key, s) ↔
      key ≠ k ∧ standing next tenant history = some (key, s) := by
  rw [standing_append other]
  cases standing next tenant history with
  | none => simp
  | some p =>
    obtain ⟨key', s'⟩ := p
    by_cases hk : k = key'
    · subst hk
      simp only [Option.bind_some, alone_frees frees, ↓reduceIte, Option.map_none,
        reduceCtorEq, Option.some.injEq, Prod.mk.injEq, false_iff, not_and]
      intro hne heq
      exact absurd heq.symm hne
    · simp only [Option.bind_some, alone_frees frees, hk, ↓reduceIte, Option.map_some,
        Option.some.injEq, Prod.mk.injEq, iff_and_self, and_imp]
      rintro rfl _
      exact Ne.symm hk

/-- The board tells a tenant what its own machine would, and holds that machine's state. -/
structure Agrees (board : Board κ σ ω) (next : σ → ι → List ω × σ)
    (history : List (Happening κ σ ι)) : Prop where
  told : ∀ tenant, board.toldTo tenant = heard next tenant history
  line : ∀ tenant key s,
    board.line key = some (tenant, s) ↔ standing next tenant history = some (key, s)

variable {board : Board κ σ ω}

theorem Agrees.start : Agrees ({} : Board κ σ ω) next [] where
  told _ := rfl
  line _ _ _ := by simp [standing, lot]

/-- A key is taken by somebody new. -/
theorem Agrees.rented {t : ℕ} {k : κ} {start : σ} (agrees : Agrees board next history)
    (away : ¬Came t history) :
    Agrees (board.step next (.rented t k start)) next (history ++ [.rented t k start]) := by
  have frees : (.rented t k start : Happening κ σ ι).Frees k := .inl ⟨t, start, rfl⟩
  have others {tenant : ℕ} (hne : tenant ≠ t) :
      (.rented t k start : Happening κ σ ι).tenant ≠ some tenant :=
    fun heq => hne (Option.some.inj heq).symm
  have newcomer : lot next t (history ++ [.rented t k start]) = some (k, [], some start) :=
    lot_rented away
  constructor
  · intro tenant
    show board.toldTo tenant = _
    rw [agrees.told]
    by_cases ht : tenant = t
    · subst ht
      simp [heard, lot_away away, newcomer]
    · exact (heard_frees frees (others ht)).symm
  · intro tenant key s
    show Function.update board.line k (some (t, start)) key = some (tenant, s) ↔ _
    have hline := agrees.line tenant key s
    by_cases ht : tenant = t
    · subst ht
      have hnone : standing next tenant history = none := by simp [standing, lot_away away]
      rw [hnone] at hline
      simp only [reduceCtorEq, iff_false] at hline
      by_cases hk : key = k
      · simp [hk, standing, newcomer]
      · simp [hk, Ne.symm hk, hline, standing, newcomer]
    · rw [standing_frees frees (others ht), ← hline]
      by_cases hk : key = k
      · simp [hk, Ne.symm ht]
      · simp [hk]

theorem Agrees.left {k : κ} (agrees : Agrees board next history) :
    Agrees (board.step next (.left k)) next (history ++ [.left k]) := by
  have frees : (.left k : Happening κ σ ι).Frees k := .inr rfl
  have others (tenant : ℕ) : (.left k : Happening κ σ ι).tenant ≠ some tenant := by rintro ⟨⟩
  constructor
  · intro tenant
    show board.toldTo tenant = _
    rw [agrees.told, heard_frees frees (others tenant)]
  · intro tenant key s
    show Function.update board.line k none key = some (tenant, s) ↔ _
    rw [standing_frees frees (others tenant), ← agrees.line tenant key s]
    by_cases hk : key = k <;> simp [hk]

/-- An input is its key's holder's, if there is one. -/
theorem alone_input {k : κ} {i : ι} : alone next key s [.input k i] =
    if k = key then ((next s i).1, some (next s i).2) else ([], some s) := by
  simp [alone]

theorem heard_input {k : κ} {i : ι} (mine : standing next tenant history = some (k, s)) :
    heard next tenant (history ++ [.input k i]) =
      heard next tenant history ++ (next s i).1 := by
  rw [heard_append (by rintro ⟨⟩), mine]
  simp [alone_input]

theorem heard_input_other {k : κ} {i : ι}
    (other : ∀ s, standing next tenant history ≠ some (k, s)) :
    heard next tenant (history ++ [.input k i]) = heard next tenant history := by
  rw [heard_append (by rintro ⟨⟩)]
  cases hp : standing next tenant history with
  | none => simp
  | some p =>
    have hk : k ≠ p.1 := by
      rintro rfl
      exact other p.2 hp
    simp [alone_input, hk]

theorem standing_input {k : κ} {i : ι} (mine : standing next tenant history = some (k, s)) :
    standing next tenant (history ++ [.input k i]) = some (k, (next s i).2) := by
  rw [standing_append (by rintro ⟨⟩), mine]
  simp [alone_input]

theorem standing_input_other {k : κ} {i : ι}
    (other : ∀ s, standing next tenant history ≠ some (k, s)) :
    standing next tenant (history ++ [.input k i]) = standing next tenant history := by
  rw [standing_append (by rintro ⟨⟩)]
  cases hp : standing next tenant history with
  | none => simp
  | some p =>
    have hk : k ≠ p.1 := by
      rintro rfl
      exact other p.2 hp
    simp [alone_input, hk]

theorem Agrees.unheard {k : κ} {i : ι} (agrees : Agrees board next history)
    (free : board.line k = none) :
    Agrees (board.step next (.input k i)) next (history ++ [.input k i]) := by
  have other (tenant : ℕ) (s : σ) : standing next tenant history ≠ some (k, s) := by
    intro heq
    have hline := (agrees.line tenant k s).mpr heq
    rw [free] at hline
    cases hline
  have same : board.step next (.input k i) = board := by simp [Board.step, free]
  rw [same]
  constructor
  · intro tenant
    rw [agrees.told, heard_input_other (other tenant)]
  · intro tenant key s
    rw [standing_input_other (other tenant)]
    exact agrees.line tenant key s

theorem Agrees.input {k : κ} {i : ι} {t : ℕ} {now : σ} (agrees : Agrees board next history)
    (held : board.line k = some (t, now)) :
    Agrees (board.step next (.input k i)) next (history ++ [.input k i]) := by
  have mine : standing next t history = some (k, now) := (agrees.line t k now).mp held
  have other {tenant : ℕ} (ht : tenant ≠ t) (s : σ) :
      standing next tenant history ≠ some (k, s) := by
    intro heq
    have hline := (agrees.line tenant k s).mpr heq
    rw [held] at hline
    exact ht (Prod.mk.inj (Option.some.inj hline)).1.symm
  have after : board.step next (.input k i) =
      { line := Function.update board.line k (some (t, (next now i).2))
        said := board.said ++ (next now i).1.map fun word => (t, word) } := by
    simp [Board.step, held]
  rw [after]
  constructor
  · intro tenant
    have told := agrees.told tenant
    simp only [Board.toldTo] at told
    simp only [Board.toldTo, List.filter_append, List.map_append, told]
    by_cases ht : tenant = t
    · subst ht
      rw [heard_input mine]
      simp [List.filter_map, Function.comp_def]
    · rw [heard_input_other (other ht)]
      simp [List.filter_map, Function.comp_def, Ne.symm ht]
  · intro tenant key s
    have hline := agrees.line tenant key s
    by_cases ht : tenant = t
    · subst ht
      rw [standing_input mine]
      rw [mine] at hline
      by_cases hk : key = k
      · simp [hk]
      · simp only [ne_eq, hk, not_false_eq_true, Function.update_of_ne, hline, Option.some.injEq,
          Prod.mk.injEq, Ne.symm hk, false_and]
    · rw [standing_input_other (other ht), ← hline]
      by_cases hk : key = k
      · simp [hk, held, Ne.symm ht]
      · simp [hk]

/-- One happening more. -/
theorem Agrees.step (agrees : Agrees board next history) (once : Once (history ++ [h])) :
    Agrees (board.step next h) next (history ++ [h]) := by
  cases h with
  | rented t k start => exact agrees.rented ((once_append.mp once).2 t rfl)
  | left k => exact agrees.left
  | input k i =>
    cases held : board.line k with
    | none => exact agrees.unheard held
    | some now => exact agrees.input held

/-- Where nobody takes a second key, every tenant hears what a machine of its own would have said
to the inputs of its key, and the board holds the state of that machine. -/
theorem boardAfter_agrees (next : σ → ι → List ω × σ) (once : Once history) :
    Agrees (boardAfter next history) next history := by
  induction history using List.reverseRecOn with
  | nil => exact .start
  | append_singleton history h ih =>
    rw [boardAfter_append]
    exact (ih (once_append.mp once).1).step once

end SiliconOmni.Lib.Demux
