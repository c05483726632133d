import Mathlib.Data.List.Sort
import Mathlib.Data.List.Dedup
import SiliconOmni.Event

/-! What should answer a turn: the three ways to ask, and how an ask is resolved. -/
namespace SiliconOmni

/-- Who runs the turn, with what, at what effort, hot or not. -/
structure Pick where
  provider : String
  model : String
  effort : String := ""
  fast : Bool := false
  deriving DecidableEq, Repr

inductive Ask where
  | key (key : String)
  | intelligence (value : ℤ) (bench : Option String)
  | model (provider : Option String) (model : String) (effort : String) (fast : Bool)
  deriving DecidableEq, Repr, Inhabited

namespace Ask

def default : Ask := .intelligence 5 none

/-- The tagged JSON form kept in the settings. -/
def toValue : Ask → Value
  | .key word => .object [("how", .string "key"), ("key", .string word)]
  | .intelligence value bench =>
      .object ([("how", .string "intelligence"), ("value", .number value)] ++
        (bench.map fun b => ("bench", Value.string b)).toList)
  | .model provider name effort fast =>
      .object ([("how", .string "model")] ++
        (provider.map fun p => ("provider", Value.string p)).toList ++
        [("model", .string name), ("effort", .string effort), ("fast", .bool fast)])

/-- A missing or null entry is `none`; one of another shape is an error. -/
def optional {α : Type} (m : Fields) (key : String) (read : Value → Option α) :
    Option (Option α) :=
  match m.lookup key with
  | none | some .null => some none
  | some value => (read value).map some

/-- A missing entry takes its default; one of another shape is an error. -/
def defaulted {α : Type} (m : Fields) (key : String) (read : Value → Option α) (d : α) :
    Option α :=
  match m.lookup key with
  | none => some d
  | some value => read value

def ofValue : Value → Option Ask
  | .object m => do
      match ← (m.lookup "how").bind Value.asStr with
      | "key" => return .key (← (m.lookup "key").bind Value.asStr)
      | "intelligence" =>
          return .intelligence (← (m.lookup "value").bind Value.asInt)
            (← optional m "bench" Value.asStr)
      | "model" =>
          return .model (← optional m "provider" Value.asStr)
            (← (m.lookup "model").bind Value.asStr) (← defaulted m "effort" Value.asStr "")
            (← defaulted m "fast" Value.asBool false)
      | _ => none
  | _ => none

@[simp] theorem ofValue_toValue (ask : Ask) : ofValue ask.toValue = some ask := by
  cases ask with
  | key word => rfl
  | intelligence value bench => cases bench <;> rfl
  | model provider name effort fast => cases provider <;> rfl

end Ask

/-- What the answer cache and the registry say when one question is put to them. -/
structure Registry where
  /-- A cached answer that has not expired. -/
  fresh : Option Pick
  /-- The answer fetched over the network. -/
  found : Option Pick
  /-- A cached answer of any age. -/
  stale : Option Pick
  deriving DecidableEq, Repr

/-- The registry chooses models and effort, never authority. -/
def keep (providers : List String) (pick : Pick) : Except String Pick :=
  if providers.contains pick.provider then .ok pick
  else .error s!"the registry answered with {pick.provider}, which is not available here"

theorem keep_provider {providers : List String} {pick p : Pick}
    (h : keep providers pick = .ok p) : p = pick ∧ p.provider ∈ providers := by
  unfold keep at h
  split at h
  next hc =>
    obtain rfl := Except.ok.inj h
    exact ⟨rfl, by simpa using hc⟩
  next => cases h

section
variable [Host]

def unreachable (providers : List String) : String :=
  let named := (providers.dedup.insertionSort (· ≤ ·)).map fun name => Host.json (.string name)
  let names := ", ".intercalate named
  let remote := Host.remote
  s!"no answer for [{names}]: could not reach {remote} and nothing is cached"

/-- What should answer, for this ask and these providers. -/
def resolve (registry : Registry) (ask : Ask) (providers : List String) : Except String Pick :=
  if providers.isEmpty then .error "no providers are available"
  else match ask with
    | .model provider model effort fast =>
        if Host.trim model = "" then .error "no model named"
        else
          let chosen : Except String String := match provider with
            | some named =>
                if providers.contains named then .ok named else .error s!"{named} is not available"
            | none => match providers.dedup with
              | [only] => .ok only
              | _ => .error "say which provider runs it: more than one is available"
          chosen.map fun provider => { provider, model := Host.trim model, effort, fast }
    | _ =>
        match registry.fresh.filter fun pick => providers.contains pick.provider with
        | some fresh => .ok fresh
        | none => match registry.found with
          | some found => keep providers found
          | none => match registry.stale with
            | some stale => keep providers stale
            | none => .error (unreachable providers)

/-- An answer never names a provider the caller did not make available. -/
theorem resolve_provider {registry : Registry} {ask : Ask} {providers : List String} {p : Pick}
    (h : resolve registry ask providers = .ok p) : p.provider ∈ providers := by
  unfold resolve at h
  split at h
  · cases h
  split at h
  next provider model effort fast =>
    split at h
    · cases h
    cases provider with
    | some named =>
      by_cases hn : named ∈ providers
      · simp only [List.contains_iff_mem, hn, ↓reduceIte, Except.map, Except.ok.injEq] at h
        rw [← h]
        exact hn
      · simp [hn, Except.map] at h
    | none =>
      simp only at h
      split at h
      next only hd =>
        simp only [Except.map, Except.ok.injEq] at h
        have hm : only ∈ providers.dedup := by rw [hd]; simp
        rw [← h]
        exact List.mem_dedup.mp hm
      next => simp [Except.map] at h
  next =>
    split at h
    next fresh hf =>
      obtain ⟨_, hc⟩ := Option.filter_eq_some_iff.mp hf
      obtain rfl := Except.ok.inj h
      simpa using hc
    next =>
      split at h
      · exact (keep_provider h).2
      split at h
      · exact (keep_provider h).2
      · cases h

end
end SiliconOmni
