import AgentBroker.Description.Instance
import Mathlib.Data.List.Nodup

/-!
# Validation of instances

What it means that an instance fits its data model, and what it means that something is wrong with
it. An instance is accepted exactly when it fits, and the misfit with which it is refused is one
that it has.
-/

namespace AgentBroker

variable {seen names : List String} {name : String}

theorem firstRepeat?_eq_none_iff :
    firstRepeat? seen names = none ↔ names.Nodup ∧ ∀ a ∈ names, a ∉ seen := by
  induction names generalizing seen with
  | nil => simp [firstRepeat?]
  | cons a rest ih =>
    rw [firstRepeat?]
    split
    next repeated => simp [repeated]
    next fresh =>
      rw [ih, List.nodup_cons, List.forall_mem_cons]
      simp only [List.mem_cons, not_or]
      constructor
      · rintro ⟨distinct, apart⟩
        exact ⟨⟨fun mem => (apart a mem).1 rfl, distinct⟩, fresh, fun b mem => (apart b mem).2⟩
      · rintro ⟨⟨once, distinct⟩, -, apart⟩
        exact ⟨distinct, fun b mem => ⟨fun same => once (same ▸ mem), apart b mem⟩⟩

/-- The name that is found stands at two places, of which one may lie among the names seen before. -/
theorem count_of_firstRepeat? (h : firstRepeat? seen names = some name) :
    1 < seen.count name + names.count name := by
  induction names generalizing seen with
  | nil => cases h
  | cons a rest ih =>
    rw [firstRepeat?] at h
    split at h
    next repeated =>
      cases h
      have before : 0 < seen.count name := List.count_pos_iff.mpr repeated
      rw [List.count_cons_self]
      omega
    next =>
      have later := ih h
      rw [List.count_cons] at later ⊢
      omega

namespace DataModel

variable {m : DataModel} {misfit : Misfit}

def Distinct (m : DataModel) : Prop := (m.attributes.map (·.name)).Nodup

def Declares (m : DataModel) (name : String) : Prop := ∃ a ∈ m.attributes, a.name = name

theorem validate_eq_ok_iff : m.validate = .ok () ↔ m.Distinct := by
  have distinct : firstRepeat? [] (m.attributes.map (·.name)) = none ↔ m.Distinct := by
    simp [firstRepeat?_eq_none_iff, Distinct]
  rw [validate, ← distinct]
  split
  next found => simp [found]
  next found => simp [found]

theorem count_of_validate (h : m.validate = .error misfit) :
    ∃ name, misfit = .duplicateAttribute m.name name ∧
      1 < (m.attributes.map (·.name)).count name := by
  rw [validate] at h
  cases found : firstRepeat? [] (m.attributes.map (·.name)) with
  | none => simp [found] at h
  | some a =>
    simp only [found] at h
    cases h
    exact ⟨a, rfl, by simpa using count_of_firstRepeat? found⟩

theorem isSome_attribute?_iff : (m.attribute? name).isSome ↔ m.Declares name := by
  simp [attribute?, Declares]

theorem mem_of_attribute? {a : Attribute} (h : m.attribute? name = some a) :
    a ∈ m.attributes ∧ a.name = name :=
  ⟨List.mem_of_find?_eq_some h, by simpa using List.find?_some h⟩

theorem Distinct.eq_of_name {a b : Attribute} (h : m.Distinct) (first : a ∈ m.attributes)
    (second : b ∈ m.attributes) (same : a.name = b.name) : a = b :=
  List.inj_on_of_nodup_map h first second same

end DataModel

namespace Instance

variable {i : Instance} {misfit : Misfit} {v : Value}

/-- All values are declared with their types, and all that is required has a value. -/
structure Fits (i : Instance) : Prop where
  distinct : i.model.Distinct
  declared : ∀ name v, i.value? name = some v →
    ∃ a ∈ i.model.attributes, a.name = name ∧ a.type = v.type
  complete : ∀ a ∈ i.model.attributes, a.required → ∃ v, i.value? a.name = some v

/-- What can be wrong with an instance. -/
inductive Violates (i : Instance) : Misfit → Prop
  | duplicated {name : String} (twice : 1 < (i.model.attributes.map (·.name)).count name) :
    Violates i (.duplicateAttribute i.model.name name)
  | undeclared {name : String} {v : Value} (value : i.value? name = some v)
      (unknown : ¬ i.model.Declares name) : Violates i (.unknownAttribute i.model.name name)
  | mistyped {a : Attribute} {v : Value} (declared : a ∈ i.model.attributes)
      (value : i.value? a.name = some v) (other : a.type ≠ v.type) :
    Violates i (.typeMismatch a.name a.type v.type)
  | missing {a : Attribute} (declared : a ∈ i.model.attributes) (required : a.required)
      (absent : i.value? a.name = none) : Violates i (.missingRequired i.model.name a.name)

theorem Violates.not_fits (h : i.Violates misfit) : ¬ i.Fits := by
  intro fits
  cases h with
  | duplicated twice =>
    exact absurd (List.nodup_iff_count_le_one.mp fits.distinct _) (Nat.not_le.mpr twice)
  | undeclared value unknown =>
    obtain ⟨a, declared, same, -⟩ := fits.declared _ _ value
    exact unknown ⟨a, declared, same⟩
  | mistyped declared value other =>
    obtain ⟨b, another, same, type⟩ := fits.declared _ _ value
    exact other (fits.distinct.eq_of_name another declared same ▸ type)
  | missing declared required absent =>
    obtain ⟨v, value⟩ := fits.complete _ declared required
    rw [absent] at value
    cases value

theorem declared_of_valueMisfit? (h : valueMisfit? i.model name v = none) :
    ∃ a ∈ i.model.attributes, a.name = name ∧ a.type = v.type := by
  rw [valueMisfit?] at h
  cases found : i.model.attribute? name with
  | none => simp [found] at h
  | some a =>
    obtain ⟨declared, same⟩ := DataModel.mem_of_attribute? found
    simp only [found, ite_eq_left_iff, reduceCtorEq, imp_false, Decidable.not_not] at h
    exact ⟨a, declared, same, h⟩

theorem violates_of_valueMisfit? (value : i.value? name = some v)
    (h : valueMisfit? i.model name v = some misfit) : i.Violates misfit := by
  rw [valueMisfit?] at h
  cases found : i.model.attribute? name with
  | none =>
    simp only [found] at h
    cases h
    refine .undeclared value ?_
    rw [← DataModel.isSome_attribute?_iff, found]
    exact Bool.false_ne_true
  | some a =>
    obtain ⟨declared, rfl⟩ := DataModel.mem_of_attribute? found
    simp only [found, Option.ite_none_left_eq_some] at h
    obtain ⟨other, same⟩ := h
    cases same
    exact .mistyped declared value other

theorem mem_values_toList_iff : (name, v) ∈ i.values.toList ↔ i.value? name = some v :=
  Std.ExtTreeMap.mem_toList_iff_getElem?_eq_some

theorem contains_values : i.values.contains name = (i.value? name).isSome :=
  Std.ExtTreeMap.isSome_getElem?_eq_contains.symm

theorem missing?_eq_none_iff :
    i.missing? = none ↔
      ∀ a ∈ i.model.attributes, a.required → ∃ v, i.value? a.name = some v := by
  simp only [missing?, List.find?_eq_none, Bool.and_eq_true, Bool.not_eq_true', not_and,
    Bool.not_eq_false, contains_values, Option.isSome_iff_exists]

theorem violates_of_missing? {a : Attribute} (h : i.missing? = some a) :
    i.Violates (.missingRequired i.model.name a.name) := by
  have found := List.find?_some h
  rw [contains_values] at found
  obtain ⟨required, absent⟩ := Bool.and_eq_true_iff.mp found
  exact .missing (List.mem_of_find?_eq_some h) required (by simpa using absent)

/-- Either an instance is accepted and fits, or it is refused for a misfit that it has. -/
theorem validate_cases (i : Instance) :
    (i.validate = .ok () ∧ i.Fits) ∨ ∃ misfit, i.validate = .error misfit ∧ i.Violates misfit := by
  rw [validate]
  cases valid : i.model.validate with
  | error m =>
    obtain ⟨name, rfl, twice⟩ := DataModel.count_of_validate valid
    exact .inr ⟨_, rfl, .duplicated twice⟩
  | ok u =>
    dsimp only [bind, Except.bind]
    split
    next misfit found =>
      obtain ⟨p, mem, misfits⟩ := List.exists_of_findSome?_eq_some found
      exact .inr ⟨_, rfl, violates_of_valueMisfit? (mem_values_toList_iff.mp mem) misfits⟩
    next fitting =>
      split
      next a absent => exact .inr ⟨_, rfl, violates_of_missing? absent⟩
      next complete =>
        refine .inl ⟨rfl, DataModel.validate_eq_ok_iff.mp valid, fun name v value => ?_,
          missing?_eq_none_iff.mp complete⟩
        have mem := mem_values_toList_iff.mpr value
        exact declared_of_valueMisfit? (List.findSome?_eq_none_iff.mp fitting _ mem)

theorem validate_eq_ok_iff : i.validate = .ok () ↔ i.Fits := by
  rcases i.validate_cases with ⟨accepted, fits⟩ | ⟨misfit, refused, violates⟩
  · exact iff_of_true accepted fits
  · refine iff_of_false (fun accepted => ?_) violates.not_fits
    rw [refused] at accepted
    cases accepted

theorem violates_of_validate (h : i.validate = .error misfit) : i.Violates misfit := by
  rcases i.validate_cases with ⟨accepted, -⟩ | ⟨misfit', refused, violates⟩
  · rw [accepted] at h
    cases h
  · rw [refused] at h
    cases h
    exact violates

end Instance

end AgentBroker
