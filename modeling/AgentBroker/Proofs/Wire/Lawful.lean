import AgentBroker.Proofs.Json.Finite
import AgentBroker.Proofs.Json.Literal
import AgentBroker.Proofs.Json.Parsing
import AgentBroker.Proofs.Yields
import AgentBroker.Wire.Class

/-!
# Lawful wire forms

A wire form is lawful when the value that was written is read back, and when nothing that is read
holds a double that could not be written. Doubles are read back if their literals are: that is asked
of the doubles in a value, and of nothing else.
-/

namespace AgentBroker

open Json

/-- The doubles that a value holds. -/
class Doubles (α : Type) where
  doubles : α → List Float

export Doubles (doubles)

/-- Every double in the value has the property. -/
def Each {α : Type} [Doubles α] (p : Float → Prop) (a : α) : Prop := ∀ x ∈ doubles a, p x

/-- A type whose values hold no doubles. -/
class Plain (α : Type) [Doubles α] : Prop where
  doubles_eq_nil (a : α) : doubles a = []

@[simp] theorem each_of_plain {α : Type} [Doubles α] [Plain α] {p : Float → Prop} (a : α) :
    Each p a := by
  rw [Each, Plain.doubles_eq_nil]
  exact nofun

section Containers

variable {α : Type} [Doubles α] {p : Float → Prop}

instance : Doubles (List α) := ⟨fun as => as.flatMap doubles⟩
instance : Doubles (Option α) := ⟨fun a => a.toList.flatMap doubles⟩

@[simp] theorem each_list {as : List α} : Each p as ↔ ∀ a ∈ as, Each p a :=
  ⟨fun h a mem x double => h x (List.mem_flatMap.mpr ⟨a, mem, double⟩), fun h x double =>
    let ⟨a, mem, double⟩ := List.mem_flatMap.mp double
    h a mem x double⟩

@[simp] theorem each_some {a : α} : Each p (some a) ↔ Each p a := by
  change Each p [a] ↔ _
  simp

theorem each_none : Each p (none : Option α) := nofun

instance [Plain α] : Plain (List α) :=
  ⟨fun _ => List.flatMap_eq_nil_iff.mpr fun a _ => Plain.doubles_eq_nil a⟩

end Containers

/-- The double is finite, and its literal is read as this double. -/
structure ReadsBack (x : Float) : Prop where
  finite : x.isFinite
  read : (Number.ofFloat x).toFloat? = some x

/-- A type whose values are read back from their wire form. -/
class LawfulWire (α : Type) [Wire α] [Doubles α] : Prop where
  printable (a : α) (h : Each (·.isFinite) a) : (toJson a).Printable
  ofJson?_toJson (a : α) (h : Each ReadsBack a) : ofJson? (toJson a) = some a
  yields_ofJson? (j : Json) : Yields (Each (·.isFinite)) (ofJson? j : Option α)

attribute [simp] LawfulWire.printable

/-- A type whose values never look like no value. -/
class NeverNull (α : Type) [Wire α] : Prop where
  toJson_ne_null (a : α) : toJson a ≠ null

theorem mapM_map {α β : Type} {f : α → β} {g : β → Option α} {as : List α}
    (h : ∀ a ∈ as, g (f a) = some a) : (as.map f).mapM g = some as := by
  induction as with
  | nil => rfl
  | cons a as ih =>
    obtain ⟨first, others⟩ := List.forall_mem_cons.mp h
    rw [List.map_cons, List.mapM_cons, first, ih others]
    rfl

namespace Json

theorem filter_record {ms : List (String × Json)} (distinct : (ms.map (·.1)).Nodup) (key : String) :
    (ms.map fun (k, v) => (some k, v)).filter (fun m => m.1 == some key) =
      ((List.lookup key ms).map fun v => (some key, v)).toList := by
  induction ms with
  | nil => rfl
  | cons m ms ih =>
    obtain ⟨k, v⟩ := m
    obtain ⟨new, distinct⟩ := List.nodup_cons.mp distinct
    rw [List.map_cons, List.filter_cons, ih distinct, List.lookup_cons]
    by_cases same : key = k
    · subst same
      have absent : List.lookup key ms = none := by
        rw [List.lookup_eq_none_iff]
        rintro ⟨k, w⟩ mem
        rw [bne_iff_ne]
        rintro rfl
        exact new (List.mem_map.mpr ⟨(key, w), mem, rfl⟩)
      simp [absent]
    · have other : (key == k) = false := beq_eq_false_iff_ne.mpr same
      simp [other, Ne.symm same]

@[simp] theorem record?_record {keys : List String} {ms : List (String × Json)}
    (distinct : (ms.map (·.1)).Nodup) :
    (record ms).record? keys = some (keys.map fun key => List.lookup key ms) := by
  have all : (ms.map fun (k, v) => (some k, v)).all (fun m => m.1.isSome) := by simp
  have member (key : String) : uniqueMember? key (ms.map fun (k, v) => (some k, v)) =
      some (List.lookup key ms) := by
    rw [uniqueMember?, filter_record distinct]
    cases List.lookup key ms <;> rfl
  rw [record, record?, if_pos all]
  induction keys with
  | nil => rfl
  | cons key keys ih =>
    rw [List.mapM_cons, member, ih]
    rfl

@[simp] theorem printable_record {ms : List (String × Json)} :
    (record ms).Printable ↔ ∀ m ∈ ms, m.2.Printable := by
  rw [record, printable_object, List.forall_mem_map]
  simp

@[simp] theorem printable_variant {name : String} {body : Json} :
    (variant name body).Printable ↔ body.Printable := by
  rw [variant, printable_object]
  simp

@[simp] theorem printable_ofString (s : String) : (ofString s).Printable := by
  rw [ofString, Printable]
  rfl

@[simp] theorem variant?_variant (name : String) (body : Json) :
    (variant name body).variant? = some (name, some body) := rfl

variable {α : Type} [Wire α] [Doubles α] [LawfulWire α]

theorem map_ofJson?_toJson {β : Type} {f : α → β} (a : α) (h : Each ReadsBack a) :
    (ofJson? (toJson a)).map f = some (f a) :=
  congrArg (Option.map f) (LawfulWire.ofJson?_toJson a h)

@[simp] theorem field?_toJson {a : α} (h : Each ReadsBack a) : field? (some (toJson a)) = some a :=
  LawfulWire.ofJson?_toJson a h

@[simp] theorem fieldOr?_toJson {a : α} (h : Each ReadsBack a) (default : α) :
    fieldOr? default (some (toJson a)) = some a :=
  LawfulWire.ofJson?_toJson a h

theorem yields_field? (member : Option Json) :
    Yields (Each (·.isFinite)) (field? member : Option α) := by
  match member with
  | none => exact .none
  | some v => exact LawfulWire.yields_ofJson? v

end Json

theorem Json.natBelow?_ofNat {n bound : Nat} (h : n < bound) :
    natBelow? bound (ofNat n) = some n := by
  change (Number.toNat? (.ofNat n)).bind _ = some n
  rw [Number.toNat?_ofNat, Option.bind_some, if_pos h]

namespace LawfulWire

instance : Doubles String := ⟨fun _ => []⟩
instance : Doubles Bool := ⟨fun _ => []⟩
instance : Doubles UInt32 := ⟨fun _ => []⟩
instance : Doubles Int64 := ⟨fun _ => []⟩
instance : Doubles Float := ⟨fun x => [x]⟩

instance : Plain String := ⟨fun _ => rfl⟩
instance : Plain Bool := ⟨fun _ => rfl⟩
instance : Plain UInt32 := ⟨fun _ => rfl⟩
instance : Plain Int64 := ⟨fun _ => rfl⟩

instance : LawfulWire String where
  printable s _ := printable_ofString s
  ofJson?_toJson _ _ := rfl
  yields_ofJson? _ := .of_forall each_of_plain _

instance : LawfulWire Bool where
  printable _ _ := trivial
  ofJson?_toJson _ _ := rfl
  yields_ofJson? _ := .of_forall each_of_plain _

instance : LawfulWire UInt32 where
  printable n _ := Number.wellFormed_ofNat n.toNat
  ofJson?_toJson n _ := by
    change (natBelow? UInt32.size (ofNat n.toNat)).map UInt32.ofNat = some n
    rw [natBelow?_ofNat n.toNat_lt_size, Option.map_some, UInt32.ofNat_toNat]
  yields_ofJson? _ := .of_forall each_of_plain _

instance : LawfulWire Int64 where
  printable i _ := Number.wellFormed_ofInt i.toInt
  ofJson?_toJson i _ := by
    change (Number.toInt? (.ofInt i.toInt)).bind _ = some i
    rw [Number.toInt?_ofInt, Option.bind_some, if_pos ⟨i.minValue_le_toInt, i.toInt_le⟩,
      Int64.ofInt_toInt]
  yields_ofJson? _ := .of_forall each_of_plain _

instance : LawfulWire Float where
  printable x h := by
    have finite : x.isFinite := h x List.mem_cons_self
    change (Json.ofFloat x).Printable
    rw [Json.ofFloat, if_pos finite]
    exact Number.wellFormed_ofFloat finite
  ofJson?_toJson x h := by
    obtain ⟨finite, read⟩ := h x List.mem_cons_self
    change (Json.ofFloat x).float? = some x
    rw [Json.ofFloat, if_pos finite]
    exact read
  yields_ofJson? j x h y mem := by
    cases List.mem_singleton.mp mem
    obtain ⟨n, -, read⟩ := Option.bind_eq_some_iff.mp h
    exact Number.isFinite_toFloat? n x read

variable {α : Type} [Wire α] [Doubles α] [LawfulWire α]

instance : LawfulWire (List α) where
  printable as h := by
    rw [each_list] at h
    exact printable_array.mpr (List.forall_mem_map.mpr fun a mem => printable a (h a mem))
  ofJson?_toJson as h := by
    rw [each_list] at h
    exact mapM_map fun a mem => ofJson?_toJson a (h a mem)
  yields_ofJson? j := by
    change Yields _ (list? ofJson? j)
    match j with
    | .array items =>
      refine (Yields.mapM yields_ofJson? items).imp fun as h => ?_
      exact each_list.mpr h
    | .null | .bool _ | .number _ | .string _ | .object _ => exact .none

theorem members?_record {ms : List (String × α)} (h : ∀ m ∈ ms, Each ReadsBack m.2) :
    (record (ms.map fun (k, a) => (k, toJson a))).members? ofJson? = some ms := by
  rw [record, members?, List.map_map]
  refine mapM_map fun m mem => ?_
  simp [ofJson?_toJson m.2 (h m mem)]

theorem yields_members? (j : Json) :
    Yields (fun ms => ∀ m ∈ ms, Each (·.isFinite) m.2)
      (j.members? (ofJson? : Json → Option α)) := by
  match j with
  | .object ms =>
    refine .mapM (fun m => ?_) ms
    exact .bind_any fun name => (yields_ofJson? m.2).bind fun a h => .pure h
  | .null | .bool _ | .number _ | .string _ | .array _ => exact .none

theorem nullable?_of_ne_null {β : Type} {read : Json → Option β} {j : Json} (h : j ≠ null) :
    nullable? read j = (read j).map some := by
  match j with
  | .null => exact absurd rfl h
  | .bool _ | .number _ | .string _ | .array _ | .object _ => rfl

instance [NeverNull α] : LawfulWire (Option α) where
  printable a h := by
    match a with
    | none => trivial
    | some a => exact printable a (each_some.mp h)
  ofJson?_toJson a h := by
    match a with
    | none => rfl
    | some a =>
      change nullable? ofJson? (toJson a) = some (some a)
      rw [nullable?_of_ne_null (NeverNull.toJson_ne_null a), ofJson?_toJson a (each_some.mp h)]
      rfl
  yields_ofJson? j := by
    change Yields _ (nullable? ofJson? j)
    by_cases absent : j = null
    · subst absent
      exact .pure each_none
    · rw [nullable?_of_ne_null absent]
      exact (yields_ofJson? j).map fun a h => each_some.mpr h

end LawfulWire

namespace Json

@[simp] theorem optionalField?_none {α : Type} [Wire α] :
    (optionalField? none : Option (Option α)) = some none := rfl

variable {α : Type} [Wire α] [Doubles α] [LawfulWire α] [NeverNull α]

@[simp] theorem optionalField?_toJson {a : Option α} (h : Each ReadsBack a) :
    optionalField? (some (toJson a)) = some a :=
  LawfulWire.ofJson?_toJson a h

@[simp] theorem optionalField?_given {a : α} (h : Each ReadsBack a) :
    optionalField? (some (toJson a)) = some (some a) :=
  LawfulWire.ofJson?_toJson (some a) (each_some.mpr h)

theorem yields_optionalField? (member : Option Json) :
    Yields (Each (·.isFinite)) (optionalField? member : Option (Option α)) := by
  match member with
  | none => exact .pure each_none
  | some v => exact (LawfulWire.yields_ofJson? v : Yields _ (ofJson? v : Option (Option α)))

end Json

instance : NeverNull String := ⟨nofun⟩
instance : NeverNull UInt32 := ⟨nofun⟩

end AgentBroker
