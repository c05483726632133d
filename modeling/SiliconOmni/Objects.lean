import SiliconOmni.Choose

/-! Structures as the JSON objects they are written as and read from: their fields, some of them
left out, beside whatever else the object holds. -/
namespace SiliconOmni

/-- A field as it is serialized: its key, its value, and whether it is left out. -/
structure Field where
  key : String
  value : Value
  skip : Bool := false

/-- The object of the fields that are not left out. -/
def serialized (fields : List Field) : Fields :=
  fields.filterMap fun field => if field.skip then none else some (field.key, field.value)

@[simp] theorem serialized_cons (field : Field) (rest : List Field) :
    serialized (field :: rest) =
      if field.skip then serialized rest else (field.key, field.value) :: serialized rest := by
  cases hskip : field.skip <;> simp [serialized, hskip]

theorem lookup_serialized {fields : List Field} {field : Field} (once : (fields.map Field.key).Nodup)
    (mem : field ∈ fields) :
    (serialized fields).lookup field.key = if field.skip then none else some field.value := by
  induction fields with
  | nil => cases mem
  | cons first rest ih =>
    rw [List.map_cons, List.nodup_cons] at once
    have absent : (serialized rest).lookup first.key = none := by
      rw [List.lookup_eq_none_iff]
      intro entry hentry
      obtain ⟨other, hother, heq⟩ := List.mem_filterMap.mp hentry
      split at heq
      · cases heq
      · cases heq
        have hne : first.key ≠ other.key := fun h => once.1 (h ▸ List.mem_map_of_mem hother)
        simpa using hne
    rcases List.mem_cons.mp mem with rfl | hrest
    · cases hskip : field.skip with
      | true => simpa [hskip] using absent
      | false => simp [hskip]
    · have hne : field.key ≠ first.key := fun h => once.1 (h ▸ List.mem_map_of_mem hrest)
      have hbeq : (field.key == first.key) = false := by simpa using hne
      rw [← ih once.2 hrest]
      cases hskip : first.skip <;> simp [hskip, List.lookup_cons, hbeq]

/-- A structure is read from an object, or from its fields one after another. -/
def fieldsOf (keys : List String) : Value → Option Fields
  | .object m => some m
  | .array items => if items.length ≤ keys.length then some (keys.zip items) else none
  | _ => none

/-- A field that is left out where there is nothing. -/
def optionField {α : Type} (key : String) (write : α → Value) (o : Option α) : Field :=
  { key, value := (o.map write).getD .null, skip := o.isNone }

/-- The object holds these fields as they are serialized, whatever else it holds and in whatever
order. -/
def Carries (m : Fields) (fields : List Field) : Prop :=
  ∀ field ∈ fields, m.lookup field.key = if field.skip then none else some field.value

/-- Under the key is an object of this kind. -/
def Nested (m : Fields) (key : String) (Kind : Fields → Prop) : Prop :=
  ∃ inner, m.lookup key = some (.object inner) ∧ Kind inner

/-- Under the key is an object this can be sent as, or nothing where there is nothing. -/
def NestedOption {α : Type} (m : Fields) (key : String) (Sent : α → Fields → Prop) :
    Option α → Prop
  | none => m.lookup key = none
  | some a => Nested m key (Sent a)

section
variable {α : Type} {m : Fields} {fields : List Field} {read : Value → Option α} {value : α}

theorem carries_serialized (once : (fields.map Field.key).Nodup) :
    Carries (serialized fields) fields :=
  fun _ mem => lookup_serialized once mem

/-- A newer version puts fields of its own in front. -/
theorem carries_beside {more : Fields} (once : (fields.map Field.key).Nodup)
    (apart : ∀ field ∈ fields, more.lookup field.key = none) :
    Carries (more ++ serialized fields) fields := by
  intro field mem
  rw [List.lookup_append, apart field mem, Option.none_or, lookup_serialized once mem]

theorem Carries.required (carries : Carries m fields) (field : Field) (mem : field ∈ fields)
    (reads : read field.value = some value) (always : field.skip = false) :
    (m.lookup field.key).bind read = some value := by
  rw [carries field mem, always]
  exact reads

theorem Carries.defaulted {default : α} (carries : Carries m fields) (field : Field)
    (mem : field ∈ fields) (reads : read field.value = some value)
    (skipped : field.skip = true → value = default) :
    Ask.defaulted m field.key read default = some value := by
  unfold Ask.defaulted
  rw [carries field mem]
  cases hskip : field.skip with
  | true => simp [skipped hskip]
  | false => simpa using reads

theorem Carries.optional {key : String} {o : Option α} (carries : Carries m fields)
    (write : α → Value) (mem : optionField key write o ∈ fields)
    (reads : ∀ a, o = some a → read (write a) = some a) (solid : ∀ a, write a ≠ .null) :
    Ask.optional m key read = some o := by
  have found : m.lookup key = if o.isNone then none else some ((o.map write).getD .null) :=
    carries _ mem
  unfold Ask.optional
  rw [found]
  cases o with
  | none => rfl
  | some a =>
    have hread := reads a rfl
    have hsolid := solid a
    simp only [Option.isNone_some, Bool.false_eq_true, ↓reduceIte, Option.map_some,
      Option.getD_some]
    cases hwrite : write a <;> simp_all

theorem Nested.required {key : String} {Kind : Fields → Prop} (nested : Nested m key Kind)
    (reads : ∀ inner, Kind inner → read (.object inner) = some value) :
    (m.lookup key).bind read = some value := by
  obtain ⟨inner, found, kind⟩ := nested
  rw [found]
  exact reads inner kind

theorem NestedOption.optional {key : String} {Sent : α → Fields → Prop} {o : Option α}
    (nested : NestedOption m key Sent o)
    (reads : ∀ a inner, Sent a inner → read (.object inner) = some a) :
    Ask.optional m key read = some o := by
  unfold Ask.optional
  cases o with
  | none =>
    have found : m.lookup key = none := nested
    rw [found]
  | some a =>
    obtain ⟨inner, found, sent⟩ := nested
    rw [found]
    exact congrArg (Option.map some) (reads a inner sent)

/-- What is serialized under the key can be sent there. -/
theorem Carries.nestedOption {key : String} {Sent : α → Fields → Prop} {o : Option α}
    (carries : Carries m fields) (write : α → Fields)
    (mem : optionField key (fun a => .object (write a)) o ∈ fields)
    (sent : ∀ a, o = some a → Sent a (write a)) : NestedOption m key Sent o := by
  have found : m.lookup key =
      if o.isNone then none else some ((o.map fun a => Value.object (write a)).getD .null) :=
    carries _ mem
  cases o with
  | none => exact found
  | some a => exact ⟨write a, found, sent a rfl⟩

/-- Fields of which each text is read as it was. -/
theorem Carries.text {key text : String} (carries : Carries m fields)
    (mem : { key, value := .string text } ∈ fields) :
    (m.lookup key).bind Value.asStr = some text :=
  carries.required _ mem rfl rfl

end
end SiliconOmni
