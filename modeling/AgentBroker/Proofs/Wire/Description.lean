import AgentBroker.Proofs.Map
import AgentBroker.Proofs.Wire.Lawful
import AgentBroker.Wire.Description

/-!
# Lawful descriptions and queries
-/

namespace AgentBroker

open Json LawfulWire

variable {p : Float → Prop}

instance : Doubles ValueType := ⟨fun _ => []⟩
instance : Doubles Attribute := ⟨fun _ => []⟩
instance : Doubles DataModel := ⟨fun _ => []⟩

instance : Plain ValueType := ⟨fun _ => rfl⟩
instance : Plain Attribute := ⟨fun _ => rfl⟩
instance : Plain DataModel := ⟨fun _ => rfl⟩

instance : LawfulWire ValueType where
  printable t _ := printable_ofString t.wireName
  ofJson?_toJson t _ := by cases t <;> rfl
  yields_ofJson? _ := .of_forall each_of_plain _

instance : LawfulWire Attribute where
  printable a _ := by
    delta instWireAttribute
    simp
  ofJson?_toJson a _ := by
    delta instWireAttribute
    simp [List.lookup_cons]
  yields_ofJson? _ := .of_forall each_of_plain _

instance : LawfulWire DataModel where
  printable m _ := by
    delta instWireDataModel
    simp
  ofJson?_toJson m _ := by
    delta instWireDataModel
    simp [List.lookup_cons]
  yields_ofJson? _ := .of_forall each_of_plain _

instance : Doubles Location := ⟨fun l => doubles l.latitude ++ doubles l.longitude⟩

theorem each_location {l : Location} : Each p l ↔ Each p l.latitude ∧ Each p l.longitude :=
  List.forall_mem_append

instance : LawfulWire Location where
  printable l h := by
    delta instWireLocation
    simp [each_location.mp h]
  ofJson?_toJson l h := by
    delta instWireLocation
    simp [List.lookup_cons, each_location.mp h]
  yields_ofJson? j := by
    delta instWireLocation
    refine .bind_any fun ms => ?_
    split
    · exact (yields_field? _).bind fun _ latitude => (yields_field? _).bind fun _ longitude =>
        .pure (each_location.mpr ⟨latitude, longitude⟩)
    · exact .none

instance : Doubles Value where
  doubles
    | .int i => doubles i
    | .float x => doubles x
    | .bool b => doubles b
    | .string s => doubles s
    | .location l => doubles l

instance : LawfulWire Value where
  printable v h := by
    delta instWireValue
    cases v <;> exact printable_variant.mpr (printable _ h)
  ofJson?_toJson v h := by
    delta instWireValue
    cases v with
    | int i => exact map_ofJson?_toJson i h
    | float x => exact map_ofJson?_toJson x h
    | bool b => exact map_ofJson?_toJson b h
    | string s => exact map_ofJson?_toJson s h
    | location l => exact map_ofJson?_toJson l h
  yields_ofJson? j := by
    delta instWireValue
    refine .bind_any fun choice => ?_
    split
    · split
      · exact (yields_ofJson? _).map fun _ h => h
      · exact (yields_ofJson? _).map fun _ h => h
      · exact (yields_ofJson? _).map fun _ h => h
      · exact (yields_ofJson? _).map fun _ h => h
      · exact (yields_ofJson? _).map fun _ h => h
      · exact .none
    · exact .none

instance : Doubles Values := ⟨fun vs => vs.toList.flatMap fun (_, v) => doubles v⟩

theorem each_values {vs : Values} : Each p vs ↔ ∀ m ∈ vs.toList, Each p m.2 := by
  constructor
  · intro h m mem x double
    exact h x (List.mem_flatMap.mpr ⟨m, mem, double⟩)
  · intro h x double
    obtain ⟨m, mem, double⟩ := List.mem_flatMap.mp double
    exact h m mem x double

instance : LawfulWire Values where
  printable vs h := by
    rw [each_values] at h
    delta instWireValues
    exact printable_record.mpr (List.forall_mem_map.mpr fun m mem => printable m.2 (h m mem))
  ofJson?_toJson vs h := by
    rw [each_values] at h
    delta instWireValues
    simp [members?_record h, Map.ofList_toList]
  yields_ofJson? j := by
    delta instWireValues
    refine (yields_members? j).map fun ms h => each_values.mpr fun (name, v) mem => ?_
    exact h _ (Map.mem_of_getElem?_ofList (Std.ExtTreeMap.mem_toList_iff_getElem?_eq_some.mp mem))

instance : Doubles Instance := ⟨fun i => doubles i.model ++ doubles i.values⟩

theorem each_instance {i : Instance} : Each p i ↔ Each p i.model ∧ Each p i.values :=
  List.forall_mem_append

instance : LawfulWire Instance where
  printable i h := by
    delta instWireInstance
    simp [each_instance.mp h]
  ofJson?_toJson i h := by
    delta instWireInstance
    simp [List.lookup_cons, each_instance.mp h]
  yields_ofJson? j := by
    delta instWireInstance
    refine .bind_any fun ms => ?_
    split
    · exact (yields_field? _).bind fun _ model => (yields_field? _).bind fun _ values =>
        .pure (each_instance.mpr ⟨model, values⟩)
    · exact .none

instance : Doubles RelationOp := ⟨fun _ => []⟩
instance : Doubles SetOp := ⟨fun _ => []⟩

instance : Plain RelationOp := ⟨fun _ => rfl⟩
instance : Plain SetOp := ⟨fun _ => rfl⟩

instance : LawfulWire RelationOp where
  printable op _ := printable_ofString op.wireName
  ofJson?_toJson op _ := by cases op <;> rfl
  yields_ofJson? _ := .of_forall each_of_plain _

instance : LawfulWire SetOp where
  printable op _ := printable_ofString op.wireName
  ofJson?_toJson op _ := by cases op <;> rfl
  yields_ofJson? _ := .of_forall each_of_plain _

instance : Doubles Relation := ⟨fun r => doubles r.op ++ doubles r.value⟩

theorem each_relation {r : Relation} : Each p r ↔ Each p r.op ∧ Each p r.value :=
  List.forall_mem_append

instance : LawfulWire Relation where
  printable r h := by
    delta instWireRelation
    simp [each_relation.mp h]
  ofJson?_toJson r h := by
    delta instWireRelation
    simp [List.lookup_cons, each_relation.mp h]
  yields_ofJson? j := by
    delta instWireRelation
    refine .bind_any fun ms => ?_
    split
    · exact (yields_field? _).bind fun _ op => (yields_field? _).bind fun _ value =>
        .pure (each_relation.mpr ⟨op, value⟩)
    · exact .none

instance : Doubles Condition where
  doubles
    | .relation r => doubles r
    | .range min max => doubles min ++ doubles max
    | .set op values => doubles op ++ doubles values
    | .distance center maxKm => doubles center ++ doubles maxKm

theorem each_range {min max : Value} : Each p (Condition.range min max) ↔ Each p min ∧ Each p max :=
  List.forall_mem_append

theorem each_set {op : SetOp} {values : List Value} :
    Each p (Condition.set op values) ↔ Each p op ∧ Each p values :=
  List.forall_mem_append

theorem each_distance {center : Location} {maxKm : Float} :
    Each p (Condition.distance center maxKm) ↔ Each p center ∧ Each p maxKm :=
  List.forall_mem_append

instance : LawfulWire Condition where
  printable c h := by
    delta instWireCondition
    cases c with
    | relation r => exact printable_variant.mpr (printable r h)
    | range min max => simp [each_range.mp h]
    | set op values => simp [(each_set.mp h).2]
    | distance center maxKm => simp [each_distance.mp h]
  ofJson?_toJson c h := by
    delta instWireCondition
    cases c with
    | relation r => exact map_ofJson?_toJson r h
    | range min max => simp [List.lookup_cons, each_range.mp h]
    | set op values => simp [List.lookup_cons, (each_set.mp h).2]
    | distance center maxKm => simp [List.lookup_cons, each_distance.mp h]
  yields_ofJson? j := by
    delta instWireCondition
    refine .bind_any fun choice => ?_
    split
    · split
      · exact (yields_ofJson? _).map fun _ h => h
      · refine .bind_any fun ms => ?_
        split
        · exact (yields_field? _).bind fun _ min => (yields_field? _).bind fun _ max =>
            .pure (each_range.mpr ⟨min, max⟩)
        · exact .none
      · refine .bind_any fun ms => ?_
        split
        · exact (yields_field? _).bind fun _ op => (yields_field? _).bind fun _ values =>
            .pure (each_set.mpr ⟨op, values⟩)
        · exact .none
      · refine .bind_any fun ms => ?_
        split
        · exact (yields_field? _).bind fun _ center => (yields_field? _).bind fun _ maxKm =>
            .pure (each_distance.mpr ⟨center, maxKm⟩)
        · exact .none
      · exact .none
    · exact .none

instance : Doubles Constraint := ⟨fun c => doubles c.attr ++ doubles c.condition⟩

theorem each_constraint {c : Constraint} : Each p c ↔ Each p c.attr ∧ Each p c.condition :=
  List.forall_mem_append

instance : LawfulWire Constraint where
  printable c h := by
    delta instWireConstraint
    simp [each_constraint.mp h]
  ofJson?_toJson c h := by
    delta instWireConstraint
    simp [List.lookup_cons, each_constraint.mp h]
  yields_ofJson? j := by
    delta instWireConstraint
    refine .bind_any fun ms => ?_
    split
    · exact (yields_field? _).bind fun _ attr => (yields_field? _).bind fun _ condition =>
        .pure (each_constraint.mpr ⟨attr, condition⟩)
    · exact .none

instance : NeverNull DataModel := ⟨nofun⟩

instance : Doubles Query := ⟨fun q => doubles q.constraints ++ doubles q.model⟩

theorem each_query {q : Query} : Each p q ↔ Each p q.constraints ∧ Each p q.model :=
  List.forall_mem_append

instance : LawfulWire Query where
  printable q h := by
    delta instWireQuery
    simp [each_query.mp h]
  ofJson?_toJson q h := by
    delta instWireQuery
    simp [List.lookup_cons, each_query.mp h]
  yields_ofJson? j := by
    delta instWireQuery
    refine .bind_any fun ms => ?_
    split
    · exact (yields_field? _).bind fun _ constraints =>
        (yields_optionalField? _).bind fun _ model => .pure (each_query.mpr ⟨constraints, model⟩)
    · exact .none

end AgentBroker
