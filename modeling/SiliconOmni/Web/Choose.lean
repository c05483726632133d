import Mathlib.Algebra.Order.Floor.Ring
import Mathlib.Data.Rat.Floor
import Mathlib.Tactic.IntervalCases
import Mathlib.Tactic.Linarith
import Mathlib.Tactic.Positivity
import SiliconOmni.Choose
import SiliconOmni.Lib.Frontier

/-! The measured dial: the models of the board that no other beats, spread over eleven levels.
Scores and prices are exact rationals. -/
namespace SiliconOmni.Web

/-- A CLI that can be driven, the efforts it accepts, and how it is told to run hot. -/
structure Provider where
  id : String
  efforts : List String
  fastArg : Option String
  deriving DecidableEq, Repr

def PROVIDERS : List Provider :=
  [{ id := "claude-code-cli", efforts := ["", "low", "medium", "high", "xhigh", "max"]
     fastArg := some "  ·  /fast" },
    { id := "codex-app-server", efforts := ["", "low", "medium", "high", "xhigh", "max", "ultra"]
      fastArg := some " -c service_tier=\"fast\"" },
    { id := "antigravity-cli", efforts := ["", "low", "medium", "high"], fastArg := none }]

def provider (id : String) : Option Provider := PROVIDERS.find? (·.id = id)

/-- A model's name without the date it may end in. -/
def undated (model : String) : String :=
  let chars := model.toList
  let front := chars.take (chars.length - 9)
  match chars.drop (chars.length - 9) with
  | '-' :: digits => if digits.length = 8 ∧ digits.all (·.isDigit) then .ofList front else model
  | _ => model

/-- Whether asking this provider to run hot means anything at all. -/
def canRunFast (id model : String) : Bool :=
  if id = "claude-code-cli" then
    ["opus", "claude-opus-5-5", "claude-opus-5", "claude-opus-4-8"].contains (undated model)
  else ((provider id).bind (·.fastArg)).any (· ≠ "")

inductive EntryStatus where
  | current | legacy | restricted
  deriving DecidableEq, Repr

/-- A row of the database. -/
structure Entry where
  provider : String
  model : String
  status : Option EntryStatus := none
  effort : Option String := none
  fast : Bool := false
  /-- Recommend this row only when the caller reports the model as available. -/
  requiresAvailability : Bool := false
  scores : List (String × Option ℚ) := []
  price : Option ℚ := none
  secs : Option ℚ := none
  deriving DecidableEq, Repr

/-- The models the caller reports, by provider. -/
abbrev AvailableModels := List (String × List String)

/-- A row that can be run and plotted. -/
structure Model where
  pick : Pick
  scores : List (String × Option ℚ)
  price : ℚ
  secs : ℚ
  deriving DecidableEq, Repr

/-- The score on a benchmark, of a model that is plotted on it. -/
def Model.score (model : Model) (bench : String) : ℚ := ((model.scores.lookup bench).join).getD 0

def eligible (entry : Entry) (availableModels : AvailableModels) : Bool :=
  !entry.requiresAvailability ||
    (availableModels.lookup entry.provider).any (·.contains entry.model)

def LEVELS : ℕ := 11

/-- Can this actually be run: a provider we drive, at an effort it accepts. -/
def runnable (entry : Entry) : Option Pick := do
  let known ← provider entry.provider
  let effort := entry.effort.getD ""
  if known.efforts.contains effort then
    return {
      provider := known.id
      model := entry.model
      effort
      fast := entry.fast && canRunFast known.id entry.model }
  else none

/-- The rows that can be plotted on `bench` as well as run. -/
def plottable (entries : List Entry) (bench : String) : List Model :=
  entries.filterMap fun entry => do
    let pick ← runnable entry
    let _ ← (entry.scores.lookup bench).join
    return { pick, scores := entry.scores, price := ← entry.price, secs := ← entry.secs }

/-- Is `one` at least as good as `other` on both axes, and better on one? -/
def beats (one other : Model) (bench : String) : Bool :=
  let a := one.score bench
  let b := other.score bench
  decide (a ≥ b) && decide (one.price ≤ other.price) &&
    (decide (a > b) || decide (one.price < other.price))

/-- What the sort of `edge` compares by: below zero where `a` comes first. -/
def ahead (bench : String) (a b : Model) : ℚ :=
  if b.score bench - a.score bench ≠ 0 then b.score bench - a.score bench else a.price - b.price

/-- Where a model stands on the board. Two spots print alike exactly when they are equal. -/
def spot (bench : String) (point : Model) : ℚ × ℚ := (point.score bench, point.price)

/-- The left edge of the board: a model earns a place when nothing else is both better and
cheaper. Best first. -/
def edge (models : List Model) (bench : String) : List Model :=
  let kept := models.filter fun p => !models.any fun q => beats q p bench
  Lib.Frontier.distinct (spot bench) [] (kept.mergeSort fun a b => decide (ahead bench a b ≤ 0))

/-- Rounding to the nearest integer, halves upwards. -/
def mathRound (q : ℚ) : ℤ := ⌊q + 1 / 2⌋

/-- Where on a walk of so many steps a level stands. -/
def stepAt (steps level : ℕ) : ℕ :=
  (mathRound (((LEVELS - 1 - level : ℕ) * steps : ℚ) / ((LEVELS - 1 : ℕ) : ℚ))).toNat

theorem mathRound_mono {p q : ℚ} (h : p ≤ q) : mathRound p ≤ mathRound q := by
  unfold mathRound
  exact Int.floor_le_floor (by linarith)

theorem mathRound_natCast (n : ℕ) : mathRound n = n := by
  unfold mathRound
  rw [Int.floor_eq_iff]
  constructor
  · push_cast
    linarith
  · push_cast
    linarith

theorem stepAt_antitone (steps : ℕ) {a b : ℕ} (h : a ≤ b) : stepAt steps b ≤ stepAt steps a := by
  unfold stepAt
  apply Int.toNat_le_toNat
  apply mathRound_mono
  have hle : ((LEVELS - 1 - b : ℕ) : ℚ) ≤ ((LEVELS - 1 - a : ℕ) : ℚ) := by
    exact_mod_cast Nat.sub_le_sub_left h _
  gcongr

theorem stepAt_zero (steps : ℕ) : stepAt steps 0 = steps := by
  have hcancel : ((LEVELS - 1 - 0 : ℕ) * steps : ℚ) / ((LEVELS - 1 : ℕ) : ℚ) = steps := by
    rw [Nat.sub_zero, mul_div_assoc, mul_div_cancel₀]
    simp [LEVELS]
  unfold stepAt
  rw [hcancel, mathRound_natCast, Int.toNat_natCast]

theorem stepAt_top (steps : ℕ) : stepAt steps (LEVELS - 1) = 0 := by
  unfold stepAt
  rw [Nat.sub_self, Nat.cast_zero, zero_mul, zero_div]
  exact congrArg Int.toNat (mathRound_natCast 0)

theorem stepAt_le (steps level : ℕ) : stepAt steps level ≤ steps :=
  (stepAt_antitone steps (Nat.zero_le level)).trans_eq (stepAt_zero steps)

/-- The model a level stands on. -/
def rung (walk : List Model) (some_ : walk ≠ []) (level : ℕ) : Model :=
  walk.get ⟨stepAt (walk.length - 1) level, by
    have hle := stepAt_le (walk.length - 1) level
    have hpos := List.length_pos_iff.mpr some_
    omega⟩

/-- Spread the edge over 0-10, 10 at the top. -/
def ladderOf (walk : List Model) : List (String × Pick) :=
  if h : walk = [] then []
  else (List.range LEVELS).map fun level => (toString level, (rung walk h level).pick)

structure DialAnswer where
  how : String := "intelligence"
  basis : String := "measured"
  intelligence : ℕ
  bench : String
  pick : Option Pick
  ladder : List (String × Pick)
  deriving DecidableEq, Repr

/-- The models the dial chooses among. -/
def candidates (entries : List Entry) (providers : List String) (bench : String)
    (availableModels : AvailableModels) : List Model :=
  let current := entries.filter fun entry =>
    decide (entry.status ≠ some .legacy) && decide (entry.status ≠ some .restricted) &&
      eligible entry availableModels
  (plottable current bench).filter fun model => providers.contains model.pick.provider

/-- The level a number asks for. -/
def levelOf (intelligence : ℚ) : ℕ := (max 0 (min 10 (mathRound intelligence))).toNat

def byIntelligence (entries : List Entry) (providers : List String) (bench : String)
    (intelligence : ℚ) (availableModels : AvailableModels) : DialAnswer :=
  let models := candidates entries providers bench availableModels
  let ladder := ladderOf (edge models bench)
  let level := levelOf intelligence
  { intelligence := level, bench, pick := ladder.lookup (toString level), ladder }

section edge
variable {models : List Model} {bench : String}

/-- Where a model stands, with the cheaper the greater. -/
def worth (bench : String) (model : Model) : ℚ × ℚᵒᵈ :=
  (model.score bench, OrderDual.toDual model.price)

theorem beats_iff (one other : Model) :
    beats one other bench = true ↔ worth bench other < worth bench one := by
  simp only [beats, Bool.and_eq_true, Bool.or_eq_true, decide_eq_true_eq, ge_iff_le, gt_iff_lt,
    Prod.lt_iff, worth, OrderDual.toDual_lt_toDual, OrderDual.toDual_le_toDual]
  constructor
  · rintro ⟨⟨hscore, hprice⟩, hlt | hlt⟩
    · exact .inl ⟨hlt, hprice⟩
    · exact .inr ⟨hscore, hlt⟩
  · rintro (⟨hlt, hprice⟩ | ⟨hscore, hlt⟩)
    · exact ⟨⟨hlt.le, hprice⟩, .inl hlt⟩
    · exact ⟨⟨hscore, hlt.le⟩, .inr hlt⟩

theorem ahead_iff (a b : Model) :
    decide (ahead bench a b ≤ 0) = true ↔
      b.score bench < a.score bench ∨ b.score bench = a.score bench ∧ a.price ≤ b.price := by
  rw [decide_eq_true_iff]
  unfold ahead
  split_ifs with h
  · constructor
    · exact fun hle => .inl (lt_of_le_of_ne (by linarith) fun heq => h (by linarith))
    · rintro (hlt | ⟨heq, -⟩)
      · linarith
      · linarith
  · have heq : b.score bench = a.score bench := by
      rw [not_not] at h
      linarith
    constructor
    · exact fun hle => .inr ⟨heq, by linarith⟩
    · rintro (hlt | ⟨-, hle⟩)
      · linarith
      · linarith

/-- The models that are kept, in the order of the walk. -/
def sorted (models : List Model) (bench : String) : List Model :=
  (models.filter fun p => !models.any fun q => beats q p bench).mergeSort
    fun a b => decide (ahead bench a b ≤ 0)

theorem mem_sorted {m : Model} : m ∈ sorted models bench ↔
    m ∈ models ∧ ∀ q ∈ models, ¬worth bench m < worth bench q := by
  unfold sorted
  rw [List.mem_mergeSort, List.mem_filter]
  refine and_congr_right fun _ => ?_
  rw [Bool.not_eq_true', List.any_eq_false]
  exact forall₂_congr fun q _ => not_congr (beats_iff q m)

theorem sorted_pairwise (models : List Model) (bench : String) :
    (sorted models bench).Pairwise fun a b =>
      b.score bench < a.score bench ∨ b.score bench = a.score bench ∧ a.price ≤ b.price := by
  have hsorted : (sorted models bench).Pairwise fun a b => decide (ahead bench a b ≤ 0) := by
    apply List.pairwise_mergeSort
    · intro a b c hab hbc
      rw [ahead_iff] at hab hbc ⊢
      rcases hab with hab | ⟨hab, hab'⟩ <;> rcases hbc with hbc | ⟨hbc, hbc'⟩
      · exact .inl (hbc.trans hab)
      · exact .inl (hbc.trans_lt hab)
      · exact .inl (hbc.trans_eq hab)
      · exact .inr ⟨hbc.trans hab, hab'.trans hbc'⟩
    · intro a b
      rw [Bool.or_eq_true, ahead_iff, ahead_iff]
      rcases lt_trichotomy (a.score bench) (b.score bench) with hlt | heq | hlt
      · exact .inr (.inl hlt)
      · rcases le_total a.price b.price with hle | hle
        · exact .inl (.inr ⟨heq.symm, hle⟩)
        · exact .inr (.inr ⟨heq, hle⟩)
      · exact .inl (.inl hlt)
  exact hsorted.imp fun hab => (ahead_iff _ _).mp hab

theorem edge_eq (models : List Model) (bench : String) :
    edge models bench = Lib.Frontier.distinct (spot bench) [] (sorted models bench) := rfl

theorem spot_eq_iff {p q : Model} :
    spot bench p = spot bench q ↔ worth bench p = worth bench q := by
  simp [spot, worth]

/-- A model of the edge is a candidate that no candidate beats. -/
theorem mem_edge {m : Model} (h : m ∈ edge models bench) :
    m ∈ models ∧ ∀ q ∈ models, beats q m bench = false := by
  rw [edge_eq] at h
  obtain ⟨hmem, hbest⟩ := mem_sorted.mp ((Lib.Frontier.distinct_sublist (spot bench) [] _).subset h)
  refine ⟨hmem, fun q hq => ?_⟩
  rw [← Bool.not_eq_true, beats_iff]
  exact hbest q hq

/-- Every candidate is matched or beaten by a model of the edge. -/
theorem edge_covers (bench : String) {q : Model} (h : q ∈ models) :
    ∃ m ∈ edge models bench, q.score bench ≤ m.score bench ∧ m.price ≤ q.price := by
  obtain ⟨m, hm, hle, hbest⟩ := Lib.Frontier.exists_unbeaten (worth bench) h
  have hsorted : m ∈ sorted models bench := mem_sorted.mpr ⟨hm, hbest⟩
  obtain ⟨e, he, hspot⟩ :=
    Lib.Frontier.distinct_covers (spot bench) hsorted List.not_mem_nil
  have hworth := spot_eq_iff.mp hspot
  rw [← hworth] at hle
  exact ⟨e, he, hle.1, OrderDual.toDual_le_toDual.mp hle.2⟩

/-- Down the edge, both the score and the price fall. -/
theorem edge_falls (models : List Model) (bench : String) : (edge models bench).Pairwise fun p q =>
    q.score bench < p.score bench ∧ q.price < p.price := by
  rw [edge_eq]
  have hsub := Lib.Frontier.distinct_sublist (spot bench) [] (sorted models bench)
  have hsorted := (sorted_pairwise models bench).sublist hsub
  have hapart := Lib.Frontier.distinct_pairwise (spot bench) [] (sorted models bench)
  refine List.Pairwise.imp_of_mem ?_ (hsorted.and hapart)
  rintro p q hp hq ⟨hahead, hdistinct⟩
  have hbest := (mem_sorted.mp (hsub.subset hq)).2 p (mem_sorted.mp (hsub.subset hp)).1
  have hfirst : (worth bench q).1 ≤ (worth bench p).1 := by
    rcases hahead with hlt | ⟨heq, -⟩
    · exact hlt.le
    · exact heq.le
  have hsecond : (worth bench q).1 = (worth bench p).1 →
      (worth bench q).2 ≤ (worth bench p).2 := by
    intro heq
    rcases hahead with hlt | ⟨-, hle⟩
    · exact absurd heq hlt.ne
    · exact OrderDual.toDual_le_toDual.mpr hle
  have hother : worth bench q ≠ worth bench p := fun heq => hdistinct (spot_eq_iff.mpr heq)
  obtain ⟨hscore, hprice⟩ := Lib.Frontier.descends hfirst hsecond hother hbest
  exact ⟨hscore, OrderDual.toDual_lt_toDual.mp hprice⟩

theorem edge_eq_nil_iff : edge models bench = [] ↔ models = [] := by
  constructor
  · intro hnil
    by_contra hsome
    obtain ⟨q, hq⟩ := List.exists_mem_of_ne_nil _ hsome
    obtain ⟨m, hm, -, -⟩ := edge_covers bench hq
    rw [hnil] at hm
    exact absurd hm List.not_mem_nil
  · rintro rfl
    simp [edge, Lib.Frontier.distinct]

end edge

section dial
variable {walk : List Model}

theorem ladderOf_lookup (some_ : walk ≠ []) {level : ℕ} (h : level < LEVELS) :
    (ladderOf walk).lookup (toString level) = some (rung walk some_ level).pick := by
  unfold ladderOf
  rw [dif_neg some_]
  generalize rung walk some_ = rungs
  unfold LEVELS at h
  interval_cases level <;> rfl

theorem levelOf_lt (intelligence : ℚ) : levelOf intelligence < LEVELS := by
  unfold levelOf LEVELS
  omega

theorem levelOf_mono {a b : ℚ} (h : a ≤ b) : levelOf a ≤ levelOf b := by
  have hround := mathRound_mono h
  unfold levelOf
  omega

theorem rung_mem (some_ : walk ≠ []) (level : ℕ) : rung walk some_ level ∈ walk :=
  List.get_mem _ _

/-- Down a walk that falls, the higher level stands no lower. -/
theorem rung_mono {bench : String} (some_ : walk ≠ []) {a b : ℕ}
    (falls : walk.Pairwise fun p q => q.score bench < p.score bench ∧ q.price < p.price)
    (h : a ≤ b) :
    (rung walk some_ a).score bench ≤ (rung walk some_ b).score bench ∧
      (rung walk some_ a).price ≤ (rung walk some_ b).price := by
  have hstep := stepAt_antitone (walk.length - 1) h
  rcases hstep.lt_or_eq with hlt | heq
  · have hlast := stepAt_le (walk.length - 1) a
    have hpos := List.length_pos_iff.mpr some_
    have hfall := List.pairwise_iff_getElem.mp falls _ _ (by omega) (by omega) hlt
    exact ⟨hfall.1.le, hfall.2.le⟩
  · have hrung : rung walk some_ a = rung walk some_ b := by
      unfold rung
      simp only [heq]
    rw [hrung]
    exact ⟨le_rfl, le_rfl⟩

theorem rung_best {bench : String} {level : ℕ} (some_ : walk ≠ [])
    (falls : walk.Pairwise fun p q => q.score bench < p.score bench ∧ q.price < p.price)
    (top : level = 10) : ∀ m ∈ walk, m.score bench ≤ (rung walk some_ level).score bench := by
  intro m hm
  obtain ⟨i, hi, rfl⟩ := List.mem_iff_getElem.mp hm
  have hstep : stepAt (walk.length - 1) level = 0 := top ▸ stepAt_top _
  unfold rung
  simp only [hstep, List.get_eq_getElem]
  rcases Nat.eq_zero_or_pos i with rfl | hpos
  · exact le_rfl
  · exact (List.pairwise_iff_getElem.mp falls 0 i _ hi hpos).1.le

theorem rung_cheapest {bench : String} {level : ℕ} (some_ : walk ≠ [])
    (falls : walk.Pairwise fun p q => q.score bench < p.score bench ∧ q.price < p.price)
    (bottom : level = 0) : ∀ m ∈ walk, (rung walk some_ level).price ≤ m.price := by
  intro m hm
  obtain ⟨i, hi, rfl⟩ := List.mem_iff_getElem.mp hm
  have hstep : stepAt (walk.length - 1) level = walk.length - 1 := bottom ▸ stepAt_zero _
  unfold rung
  simp only [hstep, List.get_eq_getElem]
  rcases Nat.lt_or_ge i (walk.length - 1) with hlt | hge
  · exact (List.pairwise_iff_getElem.mp falls i (walk.length - 1) hi _ hlt).2.le
  · have heq : i = walk.length - 1 := by omega
    subst heq
    exact le_rfl

end dial

/-- Where the dial stands for a number: nowhere when there is no candidate. -/
def standing (entries : List Entry) (providers : List String) (bench : String)
    (availableModels : AvailableModels) (intelligence : ℚ) : Option Model :=
  let walk := edge (candidates entries providers bench availableModels) bench
  if h : walk = [] then none else some (rung walk h (levelOf intelligence))

section standing
variable {entries : List Entry} {providers : List String} {bench : String}
  {availableModels : AvailableModels} {intelligence : ℚ} {m : Model}

theorem standing_isSome : (standing entries providers bench availableModels intelligence).isSome ↔
    candidates entries providers bench availableModels ≠ [] := by
  unfold standing
  dsimp only
  split_ifs with h
  · rw [edge_eq_nil_iff] at h
    simp [h]
  · rw [edge_eq_nil_iff] at h
    simp [h]

theorem mem_standing (h : m ∈ standing entries providers bench availableModels intelligence) :
    ∃ some_ : edge (candidates entries providers bench availableModels) bench ≠ [],
      rung _ some_ (levelOf intelligence) = m := by
  unfold standing at h
  dsimp only at h
  split_ifs at h with hnil
  · exact absurd h (Option.not_mem_none m)
  · exact ⟨hnil, Option.some.inj h⟩

theorem byIntelligence_pick :
    (byIntelligence entries providers bench intelligence availableModels).pick =
      (standing entries providers bench availableModels intelligence).map (·.pick) := by
  unfold byIntelligence standing
  dsimp only
  split_ifs with h
  · rw [h]
    rfl
  · exact ladderOf_lookup h (levelOf_lt intelligence)

end standing

/-- The edge of the candidates falls in score and price, holds only candidates that none beats,
and matches or beats every one of them; and the dial walks it: a higher number never picks a lower
score or price, the top level picks a best score, the bottom one the cheapest model of the edge,
and every level picks something exactly when there is a candidate. -/
theorem dial_walks_the_edge (entries : List Entry) (providers : List String) (bench : String)
    (availableModels : AvailableModels) :
    let models := candidates entries providers bench availableModels
    let stands := standing entries providers bench availableModels
    ((edge models bench).Pairwise fun p q =>
      q.score bench < p.score bench ∧ q.price < p.price) ∧
    (∀ m ∈ edge models bench, m ∈ models ∧ ∀ q ∈ models, beats q m bench = false) ∧
    (∀ q ∈ models, ∃ m ∈ edge models bench,
      q.score bench ≤ m.score bench ∧ m.price ≤ q.price) ∧
    (∀ a, (byIntelligence entries providers bench a availableModels).pick =
      (stands a).map (·.pick)) ∧
    (∀ a, (stands a).isSome ↔ models ≠ []) ∧
    (∀ a b, a ≤ b → ∀ p ∈ stands a, ∀ q ∈ stands b,
      p.score bench ≤ q.score bench ∧ p.price ≤ q.price) ∧
    (∀ a, levelOf a = 10 → ∀ p ∈ stands a,
      p ∈ models ∧ ∀ q ∈ models, q.score bench ≤ p.score bench) ∧
    (∀ a, levelOf a = 0 → ∀ p ∈ stands a,
      p ∈ edge models bench ∧ ∀ q ∈ edge models bench, p.price ≤ q.price) := by
  intro models stands
  have falls := edge_falls models bench
  refine ⟨falls, fun m hm => mem_edge hm, fun q hq => edge_covers bench hq,
    fun a => byIntelligence_pick, fun a => standing_isSome, ?_, ?_, ?_⟩
  · intro a b h p hp q hq
    obtain ⟨some_, rfl⟩ := mem_standing hp
    obtain ⟨-, rfl⟩ := mem_standing hq
    exact rung_mono some_ falls (levelOf_mono h)
  · intro a htop p hp
    obtain ⟨some_, rfl⟩ := mem_standing hp
    refine ⟨(mem_edge (rung_mem some_ _)).1, fun q hq => ?_⟩
    obtain ⟨m, hm, hle, -⟩ := edge_covers bench hq
    exact hle.trans (rung_best some_ falls htop m hm)
  · intro a hbottom p hp
    obtain ⟨some_, rfl⟩ := mem_standing hp
    exact ⟨rung_mem some_ _, rung_cheapest some_ falls hbottom⟩

end SiliconOmni.Web
