import AgentBroker.Decimal.Shortest
import AgentBroker.Proofs.Double.Rounding

/-!
# Decimals of positive numbers

The shortest decimal of a positive number is not zero: a grid point that rounds to the number lies
above zero, and on the last grid, which is taken without a test, the step is not longer than the
number.
-/

namespace AgentBroker

namespace Binary

theorem ten_pow_le {k e : Nat} (h : 10 * ((k + 2) / 3) ≤ e) : 10 ^ k ≤ 2 ^ e := by
  calc 10 ^ k
    _ ≤ 10 ^ (3 * ((k + 2) / 3)) := Nat.pow_le_pow_right (by decide) (by omega)
    _ = (10 ^ 3) ^ ((k + 2) / 3) := Nat.pow_mul ..
    _ ≤ (2 ^ 10) ^ ((k + 2) / 3) := Nat.pow_le_pow_left (by decide) _
    _ = 2 ^ (10 * ((k + 2) / 3)) := (Nat.pow_mul ..).symm
    _ ≤ 2 ^ e := Nat.pow_le_pow_right (by decide) h

theorem two_pow_le {e k : Nat} (h : 4 * ((e + 12) / 13) ≤ k) : 2 ^ e ≤ 10 ^ k := by
  calc 2 ^ e
    _ ≤ 2 ^ (13 * ((e + 12) / 13)) := Nat.pow_le_pow_right (by decide) (by omega)
    _ = (2 ^ 13) ^ ((e + 12) / 13) := Nat.pow_mul ..
    _ ≤ (10 ^ 4) ^ ((e + 12) / 13) := Nat.pow_le_pow_left (by decide) _
    _ = 10 ^ (4 * ((e + 12) / 13)) := (Nat.pow_mul ..).symm
    _ ≤ 10 ^ k := Nat.pow_le_pow_right (by decide) h

theorem quarter_pos (b : Binary) (k : Int) : 0 < (b.scales k).1 :=
  Nat.mul_pos (Nat.pow_pos (by decide)) (Nat.pow_pos (by decide))

theorem step_pos (b : Binary) (k : Int) : 0 < (b.scales k).2 :=
  Nat.mul_pos (Nat.pow_pos (by decide)) (Nat.pow_pos (by decide))

theorem pos_of_meets {b : Binary} (pos : 0 < b.m) {k : Int} {c : Nat} (h : b.meets k c) :
    0 < c := by
  refine Nat.pos_of_ne_zero fun zero => ?_
  subst zero
  have low : 0 < (4 * b.m - if b.narrow then 1 else 2) * (b.scales k).1 :=
    Nat.mul_pos (by split <;> omega) (quarter_pos b k)
  simp only [meets, Nat.zero_mul] at h
  split at h
  · simp only [Bool.and_eq_true, decide_eq_true_eq] at h
    omega
  · simp at h

theorem onGrid?_pos {b : Binary} (pos : 0 < b.m) {k : Int} {c : Nat} (h : b.onGrid? k = some c) :
    0 < c := by
  rw [onGrid?] at h
  dsimp only at h
  split at h
  next => cases h
  next below above =>
    cases h
    exact pos_of_meets pos below
  next below above =>
    exact Nat.lt_of_lt_of_eq (Nat.succ_pos _) (Option.some.inj h)
  next below above =>
    split at h <;> cases h
    · exact pos_of_meets pos below
    · exact Nat.succ_pos _

def InRange (b : Binary) : Prop := -1200 ≤ b.q ∧ b.q + b.m.log2 ≤ 1200

/-- The last grid of a number with `l + 1` bits, on the scale of the comparisons. -/
theorem grid_le {l : Nat} {q k : Int} (least : -1200 ≤ q) (most : q + l ≤ 1200)
    (last : k = (q + l + 1) * 30103 / 100000 - 19) :
    10 ^ k.toNat * 2 ^ (2 - q).toNat ≤ 2 ^ (l + 2) * (2 ^ (q - 2).toNat * 10 ^ (-k).toNat) := by
  rcases Int.lt_or_le k 0 with negative | nonneg
  · rw [show k.toNat = 0 by omega, Nat.pow_zero, Nat.one_mul]
    have small : 2 ^ (-q - l).toNat ≤ 10 ^ (-k).toNat := two_pow_le (by omega)
    calc 2 ^ (2 - q).toNat
      _ ≤ 2 ^ (l + 2 + (q - 2).toNat + (-q - l).toNat) :=
        Nat.pow_le_pow_right (by decide) (by omega)
      _ = 2 ^ (l + 2) * (2 ^ (q - 2).toNat * 2 ^ (-q - l).toNat) := by
        rw [Nat.pow_add, Nat.pow_add 2 (l + 2), Nat.mul_assoc]
      _ ≤ 2 ^ (l + 2) * (2 ^ (q - 2).toNat * 10 ^ (-k).toNat) :=
        Nat.mul_le_mul_left _ (Nat.mul_le_mul_left _ small)
  · rw [show (-k).toNat = 0 by omega, Nat.pow_zero, Nat.mul_one]
    have small : 10 ^ k.toNat ≤ 2 ^ (q + l).toNat := ten_pow_le (by omega)
    calc 10 ^ k.toNat * 2 ^ (2 - q).toNat
      _ ≤ 2 ^ (q + l).toNat * 2 ^ (2 - q).toNat := Nat.mul_le_mul_right _ small
      _ = 2 ^ ((q + l).toNat + (2 - q).toNat) := (Nat.pow_add ..).symm
      _ ≤ 2 ^ (l + 2 + (q - 2).toNat) := Nat.pow_le_pow_right (by decide) (by omega)
      _ = 2 ^ (l + 2) * 2 ^ (q - 2).toNat := Nat.pow_add ..

theorem step_le {b : Binary} (pos : 0 < b.m) (range : b.InRange) :
    (b.scales (b.topExponent - 20)).2 ≤ 4 * b.m * (b.scales (b.topExponent - 20)).1 := by
  have mantissa : 2 ^ (b.m.log2 + 2) ≤ 4 * b.m := by
    have := Nat.log2_self_le (show b.m ≠ 0 by omega)
    rw [Nat.pow_add]
    omega
  have grid :=
    @grid_le b.m.log2 b.q (b.topExponent - 20) range.1 range.2 (by rw [topExponent]; omega)
  exact Nat.le_trans grid (Nat.mul_le_mul_right _ mantissa)

theorem firstHit_pos {b : Binary} (pos : 0 < b.m) (range : b.InRange) {n : Nat} {k : Int}
    (h : k - n = b.topExponent - 20) : 0 < (b.firstHit k n).digits := by
  induction n generalizing k with
  | zero =>
    have last : k = b.topExponent - 20 := by omega
    rw [firstHit, last]
    exact Nat.div_pos (step_le pos range) (step_pos b _)
  | succ n ih =>
    rw [firstHit]
    split
    next c hit => exact onGrid?_pos pos hit
    next => exact ih (by omega)

/-- The shortest decimal of a positive number is positive. -/
theorem shortest_pos {b : Binary} (pos : 0 < b.m) (range : b.InRange) : 0 < b.shortest.digits :=
  firstHit_pos pos range rfl

theorem ofBits_inRange (bits : Nat) : (ofBits bits).InRange := by
  have mantissa {m : Nat} (h : m < 2 ^ 53) : m.log2 ≤ 52 := by
    rcases Nat.eq_zero_or_pos m with rfl | pos
    · decide
    · have := (Nat.log2_lt (by omega)).mpr h
      omega
  rw [InRange, ofBits, mantissaSize]
  split
  next =>
    have := @mantissa (bits % 4503599627370496) (by omega)
    dsimp only
    omega
  next =>
    have := @mantissa (4503599627370496 + bits % 4503599627370496) (by omega)
    dsimp only
    omega

open Double in
theorem ofBits_pos {x : Float} (finite : x.isFinite) (nonzero : (x == 0) = false) :
    0 < (ofBits x.abs.toBits.toNat).m := by
  obtain ⟨s, m, e, pos, same⟩ := unpack_of_ne_zero finite nonzero
  have bits : x.abs.toBits.toBitVec =
      Float.Model.UnpackedFloat.pack Float.Model.Format.binary64 (.finite .positive m e pos) := by
    change Float.Model.UnpackedFloat.pack _ x.toModel.unpack.abs = _
    rw [same]
    rfl
  have fields := fields_ne_zero same .positive
  rw [← bits, exponentField_eq, mantissaField_eq] at fields
  change x.abs.toBits.toNat / 4503599627370496 % 2048 = 0 →
    x.abs.toBits.toNat % 4503599627370496 ≠ 0 at fields
  rw [ofBits, mantissaSize]
  split
  next zero => exact Nat.pos_of_ne_zero (fields zero)
  next =>
    dsimp only
    omega

end Binary

theorem Decimal.ofFloat_pos {x : Float} (finite : x.isFinite) (nonzero : (x == 0) = false) :
    0 < (Decimal.ofFloat x).digits :=
  Binary.shortest_pos (Binary.ofBits_pos finite nonzero) (Binary.ofBits_inRange _)

end AgentBroker
