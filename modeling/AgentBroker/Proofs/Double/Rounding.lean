import Mathlib

/-!
# Rounding to doubles

A binary number is rounded by a shift that leaves at most 53 bits, a choice between two neighbours,
and one more shift where this choice carries. This gives bounds for the exponent of the result.
-/

namespace AgentBroker.Double

open Float.Model Float.Model.UnpackedFloat

theorem mantissa_shiftRight (em : ExtendedMantissa) (k : Nat) :
    (em >>> k).mantissa = em.mantissa / 2 ^ k := by
  induction k with
  | zero => exact (Nat.div_one _).symm
  | succ k ih =>
    change (em >>> k).mantissa / 2 = _
    rw [ih, Nat.div_div_eq_div_mul, Nat.pow_succ]

theorem mantissa_ofMantissaAndAccuracy (m : Nat) (a : Accuracy) :
    (ExtendedMantissa.ofMantissaAndAccuracy m a).mantissa = m := by
  match a with
  | .exact | .inexact .lt | .inexact .eq | .inexact .gt => rfl

theorem roundedMantissa_bounds (em : ExtendedMantissa) :
    em.mantissa ≤ em.roundedMantissa ∧ em.roundedMantissa ≤ em.mantissa + 1 := by
  obtain ⟨m, round, sticky⟩ := em
  cases round <;> cases sticky <;>
    simp only [ExtendedMantissa.roundedMantissa, ExtendedMantissa.accuracy,
      Accuracy.roundToNearestEven] <;>
    omega

/-- The exponent of the last place that is kept of `m * 2 ^ e`. -/
def place (m : Nat) (e : Int) : Int := max (m.log2 - 52 + e) (-1074)

theorem targetExponent_eq_place (m : Nat) (e : Int) :
    Format.binary64.targetExponent (totalExponent m e) = place m e := by
  simp only [Format.targetExponent, totalExponent, Format.mantissaBits, Format.minExponent, place]
  omega

theorem shiftToTargetExponent_eq (m : Nat) (e : Int) (a : Accuracy) :
    shiftToTargetExponent Format.binary64 m e a =
      (ExtendedMantissa.ofMantissaAndAccuracy m a >>> (place m e - e).toNat,
        e + (place m e - e).toNat) := by
  rw [shiftToTargetExponent, targetExponent_eq_place]
  rfl

theorem div_place_lt (m : Nat) (e : Int) : m / 2 ^ (place m e - e).toNat < 2 ^ 53 := by
  rw [Nat.div_lt_iff_lt_mul (Nat.two_pow_pos _), ← Nat.pow_add]
  refine Nat.lt_of_lt_of_le Nat.lt_log2_self (Nat.pow_le_pow_right (by decide) ?_)
  rw [place]
  omega

theorem shiftToTargetExponent_of_lt {m : Nat} (small : m < 2 ^ 53) {e : Int} (h : -1074 ≤ e) :
    shiftToTargetExponent Format.binary64 m e .exact = (⟨m, false, false⟩, e) := by
  have bits : m.log2 ≤ 52 := by
    rcases Nat.eq_zero_or_pos m with rfl | pos
    · decide
    · have := (Nat.log2_lt (by omega)).mpr small
      omega
  have none : (place m e - e).toNat = 0 := by
    rw [place]
    omega
  rw [shiftToTargetExponent_eq, none]
  simp only [Int.natCast_zero, Int.add_zero]
  rfl

theorem shiftToTargetExponent_carry {e : Int} (h : -1074 ≤ e) :
    shiftToTargetExponent Format.binary64 (2 ^ 53) e .exact = (⟨2 ^ 52, false, false⟩, e + 1) := by
  have one : (place (2 ^ 53) e - e).toNat = 1 := by
    rw [place, Nat.log2_two_pow]
    omega
  rw [shiftToTargetExponent_eq, one]
  rfl

/-- The two outcomes of rounding: `r` without a carry or with one, in the place `t`. -/
theorem roundWithAccuracy_eq (s : Sign) (m : Nat) (e : Int) (a : Accuracy) :
    ∃ r t, m / 2 ^ (place m e - e).toNat ≤ r ∧ r ≤ m / 2 ^ (place m e - e).toNat + 1 ∧
      t = e + (place m e - e).toNat ∧
      roundWithAccuracy Format.binary64 s m e a =
        if h : r = 0 then .zero s
        else if r < 2 ^ 53 then .finite s r t (Nat.pos_of_ne_zero h)
        else .finite s (2 ^ 52) (t + 1) (by decide) := by
  have first := shiftToTargetExponent_eq m e a
  have bounds := roundedMantissa_bounds (shiftToTargetExponent Format.binary64 m e a).1
  have mantissa : (shiftToTargetExponent Format.binary64 m e a).1.mantissa =
      m / 2 ^ (place m e - e).toNat := by
    rw [first, mantissa_shiftRight, mantissa_ofMantissaAndAccuracy]
  have least : -1074 ≤ e + (place m e - e).toNat := by
    rw [place]
    omega
  have fits := div_place_lt m e
  rw [mantissa] at bounds
  refine ⟨(shiftToTargetExponent Format.binary64 m e a).1.roundedMantissa, _, bounds.1, bounds.2,
    rfl, ?_⟩
  rw [roundWithAccuracy]
  rw [first] at bounds ⊢
  dsimp only at bounds ⊢
  generalize
    (ExtendedMantissa.ofMantissaAndAccuracy m a >>> (place m e - e).toNat).roundedMantissa = r
    at bounds ⊢
  rcases Nat.lt_or_ge r (2 ^ 53) with small | large
  · rw [shiftToTargetExponent_of_lt small least]
    simp only [small, if_true]
  · have carry : r = 2 ^ 53 := by omega
    subst carry
    rw [shiftToTargetExponent_carry least]
    rfl

/-- Zero, or a number with an exponent of at most `b`. -/
inductive Within (b : Int) : UnpackedFloat → Prop
  | zero (s : Sign) : Within b (.zero s)
  | finite (s : Sign) (m : Nat) (e : Int) (pos : 0 < m) (le : e ≤ b) : Within b (.finite s m e pos)

/-- Infinity, or a number of 53 bits with an exponent of at least `b`. -/
inductive Above (b : Int) : UnpackedFloat → Prop
  | infinity (s : Sign) : Above b (.infinity s)
  | finite (s : Sign) (m : Nat) (e : Int) (pos : 0 < m) (bits : m.log2 = 52) (ge : b ≤ e) :
    Above b (.finite s m e pos)

instance (b : Int) : DecidablePred (Within b)
  | .zero s => isTrue (.zero s)
  | .finite s m e pos =>
    decidable_of_iff (e ≤ b) ⟨.finite s m e pos, fun | .finite _ _ _ _ le => le⟩
  | .infinity _ | .notANumber => isFalse nofun

instance (b : Int) : DecidablePred (Above b)
  | .infinity s => isTrue (.infinity s)
  | .finite s m e pos => decidable_of_iff (m.log2 = 52 ∧ b ≤ e)
    ⟨fun h => .finite s m e pos h.1 h.2, fun | .finite _ _ _ _ bits ge => ⟨bits, ge⟩⟩
  | .zero _ | .notANumber => isFalse nofun

/-- Below the last number with this exponent, rounding does not go beyond it. -/
theorem within_roundWithAccuracy {m : Nat} {e b : Int} (least : -1074 ≤ b) (above : e ≤ b)
    (bound : m < (2 ^ 53 - 1) * 2 ^ (b - e).toNat) (s : Sign) (a : Accuracy) :
    Within b (roundWithAccuracy Format.binary64 s m e a) := by
  obtain ⟨r, t, -, upper, place_eq, result⟩ := roundWithAccuracy_eq s m e a
  have bits : m ≠ 0 → m.log2 < 53 + (b - e).toNat := fun nonzero => by
    rw [Nat.log2_lt nonzero, Nat.pow_add]
    exact Nat.lt_of_lt_of_le bound (Nat.mul_le_mul_right _ (by decide))
  have last : t ≤ b := by
    rw [place_eq, place]
    by_cases zero : m = 0
    · subst zero
      have : Nat.log2 0 = 0 := by decide
      omega
    · have := bits zero
      omega
  rw [result]
  split
  next => exact .zero s
  next nonzero =>
    split
    next => exact .finite _ _ _ _ last
    next carry =>
      have fits := div_place_lt m e
      -- with the exponent `b` there is room for the last step upwards
      have below : t ≠ b := by
        rintro rfl
        have shift : (place m e - e).toNat = (t - e).toNat := by omega
        rw [shift] at upper
        have := (Nat.div_lt_iff_lt_mul (Nat.two_pow_pos _)).mpr bound
        omega
      exact .finite _ _ _ _ (by omega)

/-- What has 53 bits in front of the place `b` keeps them. -/
theorem above_roundWithAccuracy {m : Nat} {e b : Int} (least : -1074 ≤ b) (above : e ≤ b)
    (bound : 2 ^ 52 * 2 ^ (b - e).toNat ≤ m) (s : Sign) (a : Accuracy) :
    Above b (roundWithAccuracy Format.binary64 s m e a) := by
  obtain ⟨r, t, lower, -, place_eq, result⟩ := roundWithAccuracy_eq s m e a
  have pos : m ≠ 0 := by
    have := Nat.two_pow_pos (b - e).toNat
    omega
  have bits : 52 + (b - e).toNat ≤ m.log2 := by
    rw [Nat.le_log2 pos, Nat.pow_add]
    exact bound
  have exact : (place m e - e).toNat + 52 = m.log2 := by
    rw [place]
    omega
  have kept : 2 ^ 52 ≤ r := by
    refine Nat.le_trans ?_ lower
    rw [Nat.le_div_iff_mul_le (Nat.two_pow_pos _), ← Nat.pow_add, Nat.add_comm, exact]
    exact Nat.log2_self_le pos
  have first : b ≤ t := by
    rw [place_eq]
    omega
  rw [result, dif_neg (by omega)]
  split
  next small => exact .finite _ _ _ _ ((Nat.log2_eq_iff (by omega)).mpr ⟨kept, small⟩) first
  next => exact .finite _ _ _ _ Nat.log2_two_pow (by omega)

def exponentField (bits : BitVec 64) : Nat :=
  (@unpackExponent Format.binary64 bits).toNat

def mantissaField (bits : BitVec 64) : Nat :=
  (@unpackMantissa Format.binary64 bits).toNat

theorem exponentField_eq (bits : BitVec 64) :
    exponentField bits = bits.toNat / 2 ^ 52 % 2 ^ 11 := by
  rw [exponentField, unpackExponent, BitVec.toNat_cast, BitVec.extractLsb_toNat,
    Nat.shiftRight_eq_div_pow]
  rfl

theorem mantissaField_eq (bits : BitVec 64) : mantissaField bits = bits.toNat % 2 ^ 52 := by
  rw [mantissaField, unpackMantissa, BitVec.toNat_cast, BitVec.extractLsb_toNat]
  rfl

theorem within_unpack {bits : BitVec 64} {b : Int} (least : -1074 ≤ b)
    (finite : exponentField bits ≠ 2047) (h : exponentField bits ≤ b + 1075) :
    Within b (UnpackedFloat.unpack Format.binary64 bits) := by
  have ordinary : @unpackExponent Format.binary64 bits ≠ -1#11 := fun same =>
    finite (congrArg BitVec.toNat same)
  rw [UnpackedFloat.unpack]
  dsimp only
  rw [if_neg ordinary]
  split
  next zero =>
    split
    next => exact .zero _
    next =>
      refine .finite _ _ _ _ ?_
      rw [zero]
      change (0 : Int) - 1075 + 1 ≤ b
      omega
  next =>
    refine .finite _ _ _ _ ?_
    change (exponentField bits : Int) - 1075 ≤ b
    omega

theorem log2_normal (bits : BitVec 52) : (1#1 ++ bits).toNat.log2 = 52 := by
  have small := bits.isLt
  have value : (1#1 ++ bits).toNat = 2 ^ 52 + bits.toNat := by
    rw [BitVec.toNat_append, ← Nat.shiftLeft_add_eq_or_of_lt small]
    rfl
  rw [value, Nat.log2_eq_iff (by omega)]
  omega

theorem above_unpack {bits : BitVec 64} {b : Int} (least : -1074 ≤ b)
    (finite : exponentField bits ≠ 2047) (h : b + 1075 ≤ exponentField bits) :
    Above b (UnpackedFloat.unpack Format.binary64 bits) := by
  have ordinary : @unpackExponent Format.binary64 bits ≠ -1#11 := fun same =>
    finite (congrArg BitVec.toNat same)
  have normal : @unpackExponent Format.binary64 bits ≠ 0#11 := fun same => by
    have : exponentField bits = 0 := congrArg BitVec.toNat same
    omega
  rw [UnpackedFloat.unpack]
  dsimp only
  rw [if_neg ordinary, if_neg normal]
  refine .finite _ _ _ _ (log2_normal _) ?_
  change b ≤ (exponentField bits : Int) - 1075
  omega

theorem biasedExponent (e : Int) :
    (e + Format.binary64.exponentBias + Format.binary64.mantissaBitsWithoutImplicit).toNat =
      (e + 1075).toNat := by
  change (e + 1023 + 52).toNat = _
  omega

theorem pack_large (s : Sign) (m : Nat) {e : Int} (pos : 0 < m) (large : 971 < e) :
    UnpackedFloat.pack Format.binary64 (.finite s m e pos) = packedInfinity Format.binary64 s := by
  rw [UnpackedFloat.pack, biasedExponent]
  exact if_pos (show 2 ^ 11 ≤ (e + 1075).toNat + 1 by omega)

theorem exponentField_pack (s : Sign) (m : Nat) {e : Int} (pos : 0 < m) (small : e ≤ 971) :
    exponentField (UnpackedFloat.pack Format.binary64 (.finite s m e pos)) =
      if m.log2 = 52 then (e + 1075).toNat else 0 := by
  have field : (BitVec.ofNat 11 (e + 1075).toNat).toNat = (e + 1075).toNat := by
    rw [BitVec.toNat_ofNat]
    exact Nat.mod_eq_of_lt (by omega)
  rw [UnpackedFloat.pack, biasedExponent]
  dsimp only
  rw [if_neg (show ¬ 2 ^ 11 ≤ (e + 1075).toNat + 1 by omega)]
  have full : m.log2 + 1 = Format.binary64.mantissaBits ↔ m.log2 = 52 := Nat.succ_inj
  by_cases normal : m.log2 = 52
  · rw [if_pos normal, if_pos (full.mpr normal), exponentField, unpackExponent_packComponents,
      field]
  · rw [if_neg normal, if_neg (mt full.mp normal), exponentField, unpackExponent_packComponents]
    rfl

theorem mantissaField_pack (s : Sign) (m : Nat) {e : Int} (pos : 0 < m) (small : e ≤ 971) :
    mantissaField (UnpackedFloat.pack Format.binary64 (.finite s m e pos)) = m % 2 ^ 52 := by
  rw [UnpackedFloat.pack, biasedExponent]
  dsimp only
  rw [if_neg (show ¬ 2 ^ 11 ≤ (e + 1075).toNat + 1 by omega), mantissaField]
  split <;> rw [unpackMantissa_packComponents, BitVec.toNat_ofNat]

theorem unpack_pack (f : UnpackedFloat) :
    (Float.Model.pack f).unpack =
      UnpackedFloat.unpack Format.binary64 (UnpackedFloat.pack Format.binary64 f) := rfl

theorem within_unpack_pack {b : Int} (least : -1074 ≤ b) (most : b ≤ 971) {f : UnpackedFloat}
    (h : Within b f) : Within b (Float.Model.pack f).unpack := by
  cases h with
  | zero s => cases s <;> exact .zero _
  | finite s m e pos le =>
    have field := exponentField_pack s m pos (Int.le_trans le most)
    have bound : exponentField (UnpackedFloat.pack Format.binary64 (.finite s m e pos)) ≤
        (e + 1075).toNat := by
      rw [field]
      split <;> omega
    rw [unpack_pack]
    exact within_unpack least (by omega) (by omega)

theorem above_unpack_pack {b : Int} (least : -1074 ≤ b) {f : UnpackedFloat} (h : Above b f) :
    Above b (Float.Model.pack f).unpack := by
  rw [unpack_pack]
  cases h with
  | infinity s => cases s <;> exact .infinity _
  | finite s m e pos bits ge =>
    rcases Int.lt_or_le 971 e with large | small
    · rw [pack_large s m pos large]
      cases s <;> exact .infinity _
    · have field := exponentField_pack s m pos small
      rw [if_pos bits] at field
      exact above_unpack least (by omega) (by omega)

/-- The double is zero or has an exponent of at most `b`. -/
abbrev IsWithin (b : Int) (x : Float) : Prop := Within b x.toModel.unpack

/-- The double is infinite or has 53 bits and an exponent of at least `b`. -/
abbrev IsAbove (b : Int) (x : Float) : Prop := Above b x.toModel.unpack

theorem Within.cases {b : Int} {f : UnpackedFloat} (h : Within b f) :
    (∃ s, f = .zero s) ∨ ∃ s m e pos, f = .finite s m e pos ∧ e ≤ b := by
  cases h with
  | zero s => exact .inl ⟨s, rfl⟩
  | finite s m e pos le => exact .inr ⟨s, m, e, pos, rfl, le⟩

theorem Within.mono {b c : Int} (le : b ≤ c) {f : UnpackedFloat} (h : Within b f) : Within c f := by
  cases h with
  | zero s => exact .zero s
  | finite s m e pos small => exact .finite s m e pos (Int.le_trans small le)

theorem unpack_bounds {bits : BitVec 64} {s : Sign} {m : Nat} {e : Int} {pos : 0 < m}
    (h : UnpackedFloat.unpack Format.binary64 bits = .finite s m e pos) :
    m < 2 ^ 53 ∧ -1074 ≤ e ∧ e ≤ 971 := by
  have small : (@unpackMantissa Format.binary64 bits).toNat < 2 ^ 52 := BitVec.isLt _
  have field : exponentField bits < 2 ^ 11 := BitVec.isLt _
  rw [UnpackedFloat.unpack] at h
  dsimp only at h
  split at h
  next => split at h <;> cases h
  next ordinary =>
    have finite : exponentField bits ≠ 2047 := fun same => ordinary (BitVec.eq_of_toNat_eq same)
    split at h
    next zero =>
      split at h
      next => cases h
      next =>
        cases h
        refine ⟨by omega, ?_⟩
        rw [zero]
        decide
    next normal =>
      have nonzero : exponentField bits ≠ 0 := fun same => normal (BitVec.eq_of_toNat_eq same)
      cases h
      refine ⟨BitVec.isLt _, ?_⟩
      change -1074 ≤ (exponentField bits : Int) - 1075 ∧ (exponentField bits : Int) - 1075 ≤ 971
      omega

theorem isFinite_iff (x : Float) : x.isFinite ↔ IsWithin 971 x := by
  change x.toModel.unpack.isFinite ↔ Within 971 x.toModel.unpack
  match same : x.toModel.unpack with
  | .notANumber | .infinity _ => exact ⟨nofun, nofun⟩
  | .zero s => exact ⟨fun _ => .zero s, fun _ => rfl⟩
  | .finite s m e pos => exact ⟨fun _ => .finite s m e pos (unpack_bounds same).2.2, fun _ => rfl⟩

theorem isFinite_of_isWithin {b : Int} (most : b ≤ 971) {x : Float} (h : IsWithin b x) :
    x.isFinite :=
  (isFinite_iff x).mpr (h.mono most)

theorem fields_ne_zero {bits : BitVec 64} {s : Sign} {m : Nat} {e : Int} {pos : 0 < m}
    (h : UnpackedFloat.unpack Format.binary64 bits = .finite s m e pos) (t : Sign)
    (zero : exponentField (UnpackedFloat.pack Format.binary64 (.finite t m e pos)) = 0) :
    mantissaField (UnpackedFloat.pack Format.binary64 (.finite t m e pos)) ≠ 0 := by
  obtain ⟨small, least, most⟩ := unpack_bounds h
  rw [exponentField_pack t m pos most] at zero
  rw [mantissaField_pack t m pos most]
  split at zero
  next => omega
  next subnormal =>
    rw [Nat.log2_eq_iff (by omega)] at subnormal
    rw [Nat.mod_eq_of_lt (by omega)]
    omega

theorem unpack_of_ne_zero {x : Float} (finite : x.isFinite) (nonzero : (x == 0) = false) :
    ∃ s m e pos, x.toModel.unpack = .finite s m e pos := by
  obtain ⟨s, zero⟩ | ⟨s, m, e, pos, same, -⟩ := ((isFinite_iff x).mp finite).cases
  · have equal : (x == 0) = true := by
      change x.toModel.unpack.beq (0 : Float).toModel.unpack = true
      rw [zero, show (0 : Float).toModel.unpack = .zero .positive from rfl]
      rfl
    rw [equal] at nonzero
    cases nonzero
  · exact ⟨s, m, e, pos, same⟩

theorem Within.neg {b : Int} {f : UnpackedFloat} (h : Within b f) : Within b f.neg := by
  cases h with
  | zero s => exact .zero _
  | finite s m e pos le => exact .finite _ m e pos le

theorem isFinite_neg {x : Float} (h : x.isFinite) : (-x).isFinite := by
  rw [isFinite_iff] at h ⊢
  exact within_unpack_pack (by decide) (Int.le_refl _) h.neg

theorem Within.mul_cases {b c : Int} {f g : UnpackedFloat} (hf : Within b f) (hg : Within c g) :
    (∃ s, UnpackedFloat.mul Format.binary64 f g = .zero s) ∨
      ∃ s₁ m₁ e₁ pos₁ s₂ m₂ e₂ pos₂, f = .finite s₁ m₁ e₁ pos₁ ∧ e₁ ≤ b ∧
        g = .finite s₂ m₂ e₂ pos₂ ∧ e₂ ≤ c := by
  obtain ⟨s₁, rfl⟩ | ⟨s₁, m₁, e₁, pos₁, rfl, le₁⟩ := hf.cases <;>
    obtain ⟨s₂, rfl⟩ | ⟨s₂, m₂, e₂, pos₂, rfl, le₂⟩ := hg.cases
  · exact .inl ⟨_, rfl⟩
  · exact .inl ⟨_, rfl⟩
  · exact .inl ⟨_, rfl⟩
  · exact .inr ⟨_, _, _, pos₁, _, _, _, pos₂, rfl, le₁, rfl, le₂⟩

theorem isWithin_mul {b c : Int} {x y : Float} (hx : IsWithin b x) (hy : IsWithin c y)
    (least : -1074 ≤ b + c + 54) (most : b + c + 54 ≤ 971) : IsWithin (b + c + 54) (x * y) := by
  refine within_unpack_pack least most ?_
  obtain ⟨s, zero⟩ | ⟨s₁, m₁, e₁, pos₁, s₂, m₂, e₂, pos₂, same₁, le₁, same₂, le₂⟩ := hx.mul_cases hy
  · rw [zero]
    exact .zero s
  · rw [same₁, same₂]
    have small₁ := (unpack_bounds same₁).1
    have small₂ := (unpack_bounds same₂).1
    refine within_roundWithAccuracy least (by omega) ?_ _ _
    calc m₁ * m₂
      _ < 2 ^ 53 * 2 ^ 53 := Nat.mul_lt_mul_of_lt_of_le small₁ (Nat.le_of_lt small₂) (by decide)
      _ ≤ (2 ^ 53 - 1) * 2 ^ 54 := by decide
      _ ≤ (2 ^ 53 - 1) * 2 ^ (b + c + 54 - (e₁ + e₂)).toNat :=
        Nat.mul_le_mul_left _ (Nat.pow_le_pow_right (by decide) (by omega))

theorem isFinite_unpack_pack {f : UnpackedFloat} (finite : f.isFinite)
    (h : (Float.Model.pack f).unpack.isInf = false) : (Float.Model.pack f).unpack.isFinite := by
  match f with
  | .zero s => cases s <;> rfl
  | .finite s m e pos =>
    rcases Int.lt_or_le 971 e with large | small
    · rw [unpack_pack, pack_large s m pos large] at h
      cases s <;> cases h
    · have packed := within_unpack_pack (by decide) (Int.le_refl _)
        (Within.finite s m e pos small)
      generalize (Float.Model.pack (.finite s m e pos)).unpack = g at packed ⊢
      cases packed <;> rfl

theorem isFinite_roundWithAccuracy (s : Sign) (m : Nat) (e : Int) (a : Accuracy) :
    (roundWithAccuracy Format.binary64 s m e a).isFinite := by
  rw [roundWithAccuracy]
  dsimp only
  split <;> rfl

theorem isFinite_mul {x y : Float} (hx : x.isFinite) (hy : y.isFinite)
    (h : (x * y).isInf = false) : (x * y).isFinite := by
  rw [isFinite_iff] at hx hy
  refine isFinite_unpack_pack ?_ h
  obtain ⟨s, zero⟩ | ⟨s₁, m₁, e₁, pos₁, s₂, m₂, e₂, pos₂, same₁, le₁, same₂, le₂⟩ := hx.mul_cases hy
  · rw [zero]
    rfl
  · rw [same₁, same₂]
    exact isFinite_roundWithAccuracy _ _ _ _

theorem within_div {m₁ m₂ : Nat} {e₁ e₂ : Int} (small : m₁ < 2 ^ 53) (le : e₁ ≤ 971)
    (bits : m₂.log2 = 52) (ge : -51 ≤ e₂) (s₁ s₂ : Sign) (pos₁ : 0 < m₁) (pos₂ : 0 < m₂) :
    Within 971
      (UnpackedFloat.div Format.binary64 (.finite s₁ m₁ e₁ pos₁) (.finite s₂ m₂ e₂ pos₂)) := by
  have large : 2 ^ 52 ≤ m₂ := ((Nat.log2_eq_iff (by omega)).mp bits).1
  have bits₁ : m₁.log2 < 53 := (Nat.log2_lt (by omega)).mpr small
  rw [UnpackedFloat.div, divCore]
  dsimp only
  generalize target : min (e₁ - e₂)
    (Format.binary64.targetExponent (totalExponent m₁ e₁ - totalExponent m₂ e₂)) = t
  have last : t ≤ 969 := by
    simp only [← target, Format.targetExponent, totalExponent, Format.mantissaBits,
      Format.minExponent]
    omega
  have shift : (e₁ - e₂ - t).toNat + 1 ≤ 52 + (971 - t).toNat := by omega
  generalize (e₁ - e₂ - t).toNat = k at shift ⊢
  refine within_roundWithAccuracy (by decide) (by omega) ?_ _ _
  calc m₁ <<< k / m₂
    _ < 2 ^ (k + 1) := by
      rw [Nat.div_lt_iff_lt_mul pos₂, Nat.shiftLeft_eq]
      calc m₁ * 2 ^ k
        _ < 2 ^ 53 * 2 ^ k := Nat.mul_lt_mul_of_pos_right small (Nat.two_pow_pos k)
        _ = 2 ^ (k + 1) * 2 ^ 52 := by rw [← Nat.pow_add, ← Nat.pow_add, Nat.add_comm]
        _ ≤ 2 ^ (k + 1) * m₂ := Nat.mul_le_mul_left _ large
    _ ≤ 2 ^ (52 + (971 - t).toNat) := Nat.pow_le_pow_right (by decide) shift
    _ = 2 ^ 52 * 2 ^ (971 - t).toNat := Nat.pow_add ..
    _ ≤ (2 ^ 53 - 1) * 2 ^ (971 - t).toNat := Nat.mul_le_mul_right _ (by decide)

theorem Above.cases {b : Int} {f : UnpackedFloat} (h : Above b f) :
    (∃ s, f = .infinity s) ∨ ∃ s m e pos, f = .finite s m e pos ∧ m.log2 = 52 ∧ b ≤ e := by
  cases h with
  | infinity s => exact .inl ⟨s, rfl⟩
  | finite s m e pos bits ge => exact .inr ⟨s, m, e, pos, rfl, bits, ge⟩

theorem isFinite_div {x y : Float} (hx : x.isFinite) (hy : IsAbove (-51) y) : (x / y).isFinite := by
  rw [isFinite_iff] at hx ⊢
  refine within_unpack_pack (by decide) (Int.le_refl _) ?_
  obtain ⟨s₁, zero⟩ | ⟨s₁, m₁, e₁, pos₁, same₁, le₁⟩ := hx.cases <;>
    obtain ⟨s₂, infinity⟩ | ⟨s₂, m₂, e₂, pos₂, same₂, bits, ge⟩ := hy.cases
  · rw [zero, infinity]
    exact .zero _
  · rw [zero, same₂]
    exact .zero _
  · rw [same₁, infinity]
    exact .zero _
  · rw [same₁, same₂]
    exact within_div (unpack_bounds same₁).1 le₁ bits ge s₁ s₂ pos₁ pos₂

end AgentBroker.Double
