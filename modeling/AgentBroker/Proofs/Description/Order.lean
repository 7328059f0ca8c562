import AgentBroker.Description.Value
import AgentBroker.Proofs.Map
import Mathlib.Order.Basic

/-!
# The order of values

Of two values with an order the one is less, equal or greater, and the other way round from the
other's side. Values of different types have none, and neither have places, nor doubles of which one
is no number.
-/

namespace AgentBroker

namespace Double

open Float.Model

theorem compare_swap (a b : UnpackedFloat) : b.compare a = (a.compare b).map .swap := by
  cases a with
  | notANumber => cases b <;> rfl
  | infinity s =>
    cases b with
    | infinity t => cases s <;> cases t <;> rfl
    | _ => cases s <;> rfl
  | zero s =>
    cases b with
    | infinity t => cases t <;> rfl
    | finite t => cases t <;> rfl
    | _ => rfl
  | finite s m e =>
    cases b with
    | infinity t => cases s <;> cases t <;> rfl
    | finite t m' e' =>
      have exponents : compare e' e = (compare e e').swap := Std.OrientedCmp.eq_swap
      have mantissas : compare m' m = (compare m m').swap := Std.OrientedCmp.eq_swap
      have places : (compare e' e).then (compare m' m) =
          ((compare e e').then (compare m m')).swap := by
        rw [Ordering.swap_then, exponents, mantissas]
      cases s <;> cases t
      case negative.negative => exact congrArg (fun o => some o.swap) places
      case positive.positive => exact congrArg some places
      all_goals rfl
    | _ => cases s <;> rfl

theorem lt_iff (x y : Float) : x < y ↔ x.toModel.unpack.compare y.toModel.unpack = some .lt := by
  change decide (x.toModel < y.toModel) = true ↔ _
  rw [decide_eq_true_iff]
  change (x.toModel.unpack.compare y.toModel.unpack == some Ordering.lt) = true ↔ _
  rw [beq_iff_eq]

theorem compareFloats?_eq (x y : Float) :
    compareFloats? x y = x.toModel.unpack.compare y.toModel.unpack := by
  have swap := compare_swap x.toModel.unpack y.toModel.unpack
  have eq : (x == y) = (x.toModel.unpack.compare y.toModel.unpack == some .eq) := rfl
  rw [compareFloats?, eq]
  simp only [lt_iff, swap]
  cases x.toModel.unpack.compare y.toModel.unpack with
  | none => rfl
  | some o => cases o <;> rfl

theorem compareFloats?_swap (x y : Float) :
    compareFloats? y x = (compareFloats? x y).map .swap := by
  rw [compareFloats?_eq, compareFloats?_eq, compare_swap]

theorem compareFloats?_eq_lt_iff {x y : Float} : compareFloats? x y = some .lt ↔ x < y := by
  rw [compareFloats?_eq, lt_iff]

theorem beq_eq (x y : Float) : (x == y) = (compareFloats? x y == some .eq) := by
  rw [compareFloats?_eq]
  rfl

/-- Equality of doubles is symmetric, although it is not reflexive. -/
theorem beq_comm (x y : Float) : (x == y) = (y == x) := by
  rw [beq_eq, beq_eq, compareFloats?_swap y x]
  cases compareFloats? y x with
  | none => rfl
  | some o => cases o <;> rfl

end Double

namespace Value

variable {v w : Value} {o : Ordering}

@[simp] theorem int_beq_int (a b : Int64) : (int a == int b) = (a == b) := rfl

@[simp] theorem float_beq_float (x y : Float) : (float x == float y) = (x == y) := rfl

@[simp] theorem bool_beq_bool (a b : Bool) : (bool a == bool b) = (a == b) := rfl

@[simp] theorem string_beq_string (s t : String) : (string s == string t) = (s == t) := rfl

inductive Less : Value → Value → Prop
  | int {a b : Int64} (less : a < b) : Less (int a) (int b)
  | float {x y : Float} (less : x < y) : Less (float x) (float y)
  | bool {a b : Bool} (less : a < b) : Less (bool a) (bool b)
  | string {s t : String} (less : s < t) : Less (string s) (string t)

/-- All values that have an order, and where they stand in it. -/
inductive Compares : Value → Value → Ordering → Prop
  | int (a b : Int64) : Compares (int a) (int b) (compare a b)
  | float {x y : Float} {o : Ordering} (h : compareFloats? x y = some o) :
    Compares (float x) (float y) o
  | bool (a b : Bool) : Compares (bool a) (bool b) (compare a b)
  | string (s t : String) : Compares (string s) (string t) (compare s t)

theorem compares_of_compare? (h : v.compare? w = some o) : Compares v w o := by
  cases v with
  | int a =>
    cases w with
    | int b => cases h; exact .int a b
    | _ => cases h
  | float x =>
    cases w with
    | float y => exact .float h
    | _ => cases h
  | bool a =>
    cases w with
    | bool b => cases h; exact .bool a b
    | _ => cases h
  | string s =>
    cases w with
    | string t => cases h; exact .string s t
    | _ => cases h
  | location l => cases w <;> cases h

theorem type_eq_of_compare? (h : v.compare? w = some o) : v.type = w.type := by
  cases compares_of_compare? h <;> rfl

theorem compare?_swap_of_some (h : v.compare? w = some o) : w.compare? v = some o.swap := by
  cases compares_of_compare? h with
  | int a b => exact congrArg some Std.OrientedCmp.eq_swap
  | float order => exact (Double.compareFloats?_swap _ _).trans (congrArg _ order)
  | bool a b => exact congrArg some Std.OrientedCmp.eq_swap
  | string s t => exact congrArg some Std.OrientedCmp.eq_swap

theorem compare?_eq_lt_iff : v.compare? w = some .lt ↔ v.Less w := by
  constructor
  · intro h
    generalize order : Ordering.lt = o at h
    cases compares_of_compare? h with
    | int a b => exact .int (Std.compare_eq_lt.mp order.symm)
    | float h => exact .float (Double.compareFloats?_eq_lt_iff.mp (order ▸ h))
    | bool a b => exact .bool (Std.LawfulLTCmp.eq_lt_iff_lt.mp order.symm)
    | string s t => exact .string (Map.compare_eq_lt.mp order.symm)
  · rintro (less | less | less | less)
    · exact congrArg some (Std.compare_eq_lt.mpr less)
    · exact Double.compareFloats?_eq_lt_iff.mpr less
    · exact congrArg some (Std.LawfulLTCmp.eq_lt_iff_lt.mpr less)
    · exact congrArg some (Map.compare_eq_lt.mpr less)

theorem compare?_eq_gt_iff : v.compare? w = some .gt ↔ w.Less v := by
  rw [← compare?_eq_lt_iff]
  exact ⟨compare?_swap_of_some, compare?_swap_of_some⟩

theorem beq_iff_of_compare? (h : v.compare? w = some o) : v == w ↔ o = .eq := by
  cases compares_of_compare? h with
  | int a b => rw [int_beq_int, beq_iff_eq, Std.compare_eq_iff_eq]
  | float order => rw [float_beq_float, Double.beq_eq, order, beq_iff_eq, Option.some.injEq]
  | bool a b => rw [bool_beq_bool, beq_iff_eq, Std.compare_eq_iff_eq]
  | string s t => rw [string_beq_string, beq_iff_eq, Std.compare_eq_iff_eq]

theorem exists_compare? (same : v.type = w.type)
    (ordered : v.type = .int ∨ v.type = .bool ∨ v.type = .string) :
    ∃ o, v.compare? w = some o := by
  cases v <;> cases w <;> simp [type] at same ordered <;> exact ⟨_, rfl⟩

theorem beq_comm (v w : Value) : (v == w) = (w == v) := by
  cases v with
  | int a =>
    cases w with
    | int b => rw [int_beq_int, int_beq_int, BEq.comm]
    | _ => rfl
  | float x =>
    cases w with
    | float y => exact Double.beq_comm x y
    | _ => rfl
  | bool a =>
    cases w with
    | bool b => rw [bool_beq_bool, bool_beq_bool, BEq.comm]
    | _ => rfl
  | string s =>
    cases w with
    | string t => rw [string_beq_string, string_beq_string, BEq.comm]
    | _ => rfl
  | location l =>
    cases w with
    | location m =>
      exact congrArg₂ (· && ·) (Double.beq_comm l.latitude m.latitude)
        (Double.beq_comm l.longitude m.longitude)
    | _ => rfl

end Value

end AgentBroker
