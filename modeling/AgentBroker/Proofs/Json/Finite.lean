import AgentBroker.Json.Number
import AgentBroker.Proofs.Double.Rounding

/-!
# Finite doubles from literals

Whatever a literal says, the double that it is read as is finite: what would overflow has no value.
-/

namespace AgentBroker.Json.Number

open Double Float.Model Float.Model.UnpackedFloat

theorem ofScientific_large {m e : Nat} (pos : 0 < m) (h : ¬ (m < 2 ^ 53 ∧ e ≤ 22)) (le : e ≤ 2048) :
    (Float.ofScientific m false e).toModel = Float.Model.pack
      (roundWithAccuracy Format.binary64 .positive (m * 2 ^ 53 * 10 ^ e) (-53) .exact) := by
  rw [Float.ofScientific, dif_neg h]
  change Float.Model.pack (UnpackedFloat.ofScientific Format.binary64 m (e : Int)) = _
  rw [UnpackedFloat.ofScientific, dif_neg (by omega), if_neg (show ¬ (e : Int) > 2 ^ 11 by omega),
    if_neg (show ¬ (e : Int) < -(2 ^ 11 + m.log2) by omega), if_pos (Int.natCast_nonneg e),
    UnpackedFloat.mul, Nat.shiftLeft_eq]
  rfl

theorem isFinite_ofScientific {m e : Nat} (pos : 0 < m) (h : ¬ (m < 2 ^ 53 ∧ e ≤ 22))
    (le : e ≤ 2048)
    (bound : m * 2 ^ 53 * 10 ^ e < (2 ^ 53 - 1) * 2 ^ 1024) :
    (Float.ofScientific m false e).isFinite := by
  rw [isFinite_iff, IsWithin, ofScientific_large pos h le]
  refine within_unpack_pack (by decide) (Int.le_refl _)
    (within_roundWithAccuracy (by decide) (by decide) ?_ _ _)
  rw [show (971 - -53 : Int).toNat = 1024 from rfl]
  exact bound

theorem isFinite_powerOfTen {k : Nat} (h : k ≤ 308) : (powerOfTen k).isFinite := by
  rcases Nat.lt_or_ge k 23 with small | large
  · have all : ∀ k < 23, (powerOfTen k).isFinite := by decide +kernel
    exact all k small
  · refine isFinite_ofScientific (by decide) (by omega) (by omega) ?_
    have all : ∀ k < 309, 1 * 2 ^ 53 * 10 ^ k < (2 ^ 53 - 1) * 2 ^ 1024 := by decide +kernel
    exact all k (Nat.lt_succ_of_le h)

theorem isAbove_powerOfTen {k : Nat} (pos : 0 < k) (h : k ≤ 308) :
    IsAbove (-51) (powerOfTen k) := by
  rcases Nat.lt_or_ge k 23 with small | large
  · have all : ∀ k < 23, 0 < k → IsAbove (-51) (powerOfTen k) := by decide +kernel
    exact all k small pos
  · rw [IsAbove, powerOfTen, ofScientific_large (by decide) (by omega) (by omega)]
    refine above_unpack_pack (by decide) (above_roundWithAccuracy (by decide) (by decide) ?_ _ _)
    calc 2 ^ 52 * 2 ^ (-51 - -53 : Int).toNat
      _ ≤ 1 * 2 ^ 53 * 10 ^ 1 := by decide
      _ ≤ 1 * 2 ^ 53 * 10 ^ k := Nat.mul_le_mul_left _ (Nat.pow_le_pow_right (by decide) pos)

theorem isWithin_toFloat {n : Nat} (h : n < 2 ^ 53) : IsWithin 1 n.toUInt64.toFloat := by
  have value : n.toUInt64.toNat = n := Nat.mod_eq_of_lt (by omega)
  refine within_unpack_pack (by decide) (by decide) ?_
  change Within 1 (UnpackedFloat.normalize Format.binary64 (n.toUInt64.toNat : Int) 0 .positive)
  rw [value, UnpackedFloat.normalize]
  rcases Nat.eq_zero_or_pos n with rfl | pos
  · trivial
  · rw [Int.compare_eq_gt.mpr (by omega)]
    dsimp only
    rw [UnpackedFloat.round, decreaseExponent, Int.toNat_natCast]
    dsimp only
    generalize (0 - Format.binary64.targetExponent (totalExponent n 0)).toNat = k
    refine within_roundWithAccuracy (by decide) (by omega) ?_ _ _
    rw [Nat.shiftLeft_eq, show (1 - (0 - k) : Int).toNat = 1 + k by omega, Nat.pow_add,
      ← Nat.mul_assoc]
    exact Nat.mul_lt_mul_of_pos_right (by omega) (Nat.two_pow_pos k)

theorem isFinite_ofNat {n : Nat} (h : n < significandLimit) : (Float.ofNat n).isFinite := by
  have same : Float.ofNat n = Float.ofScientific n false 0 := by
    rw [Float.ofNat]
    rfl
  rw [same]
  by_cases small : n < 2 ^ 53
  · have one : IsWithin (-52) Float.exactlyRepresentablePowersOfTen[0] := by decide +kernel
    rw [Float.ofScientific, dif_pos ⟨small, by decide⟩]
    exact isFinite_of_isWithin (by decide)
      (isWithin_mul (isWithin_toFloat small) one (by decide) (by decide))
  · have last : 2 ^ 64 * 2 ^ 53 * 10 ^ 0 < (2 ^ 53 - 1) * 2 ^ 1024 := by decide +kernel
    refine isFinite_ofScientific (by omega) (by omega) (by decide) (Nat.lt_of_le_of_lt ?_ last)
    exact Nat.mul_le_mul_right _ (Nat.mul_le_mul_right _ (Nat.le_of_lt h))

theorem absorb_lt {m : Nat} (h : m < significandLimit) (ds : List Char) :
    (absorb m ds).1 < significandLimit := by
  induction ds generalizing m with
  | nil => exact h
  | cons d ds ih =>
    rw [absorb]
    split
    next below => exact ih below
    next => exact h

theorem isFinite_scale {x y : Float} {e : Int} (finite : x.isFinite) (h : scale x e = some y) :
    y.isFinite := by
  fun_induction scale x e with
  | case1 x e nonneg most z infinite => cases h
  | case2 x e nonneg most z ordinary =>
    rw [← Option.some.inj h]
    exact isFinite_mul finite (isFinite_powerOfTen (by omega)) (Bool.eq_false_iff.mpr ordinary)
  | case3 x e nonneg much zero =>
    cases h
    exact finite
  | case4 x e nonneg much nonzero => cases h
  | case5 x e negative least =>
    cases h
    exact isFinite_div finite (isAbove_powerOfTen (by omega) (by omega))
  | case6 x e negative little zero =>
    cases h
    exact finite
  | case7 x e negative little nonzero ih =>
    have large : IsAbove (-51) (powerOfTen 308) :=
      @isAbove_powerOfTen 308 (by decide) (Nat.le_refl _)
    exact ih (isFinite_div finite large) h

theorem isFinite_toFloat? (n : Number) : ∀ x, n.toFloat? = some x → x.isFinite := by
  intro x read
  rw [toFloat?] at read
  have first := absorb_lt (show 0 < significandLimit by decide) n.whole
  have second := absorb_lt first n.fraction
  obtain ⟨y, scaled, rfl⟩ := Option.map_eq_some_iff.mp read
  have finite := isFinite_scale (isFinite_ofNat second) scaled
  split
  · exact isFinite_neg finite
  · exact finite

end AgentBroker.Json.Number
