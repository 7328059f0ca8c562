import AgentBroker.Json.Real
import AgentBroker.Proofs.Decimal.Positive
import AgentBroker.Proofs.Json.Lexical
import AgentBroker.Proofs.Text.Digit

/-!
# Literals of numbers

The literals that are written for integers and finite doubles are well formed, and the literal of
an integer names this integer.
-/

namespace AgentBroker.Json.Number

theorem isDigit_replicate (n : Nat) : ∀ c ∈ List.replicate n '0', c.isDigit := fun c h => by
  rw [List.eq_of_mem_replicate h]
  rfl

theorem wellFormed_whole (negative : Bool) (n : Nat) :
    (Number.mk negative (Nat.toDigits 10 n) [] none).WellFormed where
  whole := isDigit_toDigits n
  whole_ne_nil := Nat.toDigits_ne_nil
  leading zero := by
    rcases Nat.eq_zero_or_pos n with rfl | pos
    · rfl
    · exact absurd zero (head?_toDigits pos)
  fraction := nofun
  exponent := nofun

theorem wellFormed_ofNat (n : Nat) : (ofNat n).WellFormed := wellFormed_whole false n

theorem wellFormed_ofInt (i : Int) : (ofInt i).WellFormed := wellFormed_whole _ i.natAbs

theorem toInt?_ofNat (n : Nat) : (ofNat n).toInt? = some (n : Int) := by
  rw [toInt?, if_pos ⟨rfl, rfl⟩]
  change some ((Nat.ofDigitChars 10 (Nat.toDigits 10 n) 0 : Nat) : Int) = _
  rw [Nat.ofDigitChars_ten_toDigits]

theorem toNat?_ofNat (n : Nat) : (ofNat n).toNat? = some n := by
  rw [toNat?, toInt?_ofNat, Option.bind_some, if_pos (Int.natCast_nonneg n), Int.toNat_natCast]

theorem toInt?_ofInt (i : Int) : (ofInt i).toInt? = some i := by
  have value : digitsValue (ofInt i).whole = i.natAbs := Nat.ofDigitChars_ten_toDigits
  have sign : (ofInt i).negative = decide (i < 0) := rfl
  rw [toInt?, if_pos ⟨rfl, rfl⟩, value]
  simp only [sign, decide_eq_true_eq]
  split
  next negative =>
    rw [if_neg (by omega)]
    congr 1
    omega
  next nonneg =>
    congr 1
    omega

theorem isDigit_append {xs ys : List Char} (hx : ∀ c ∈ xs, c.isDigit) (hy : ∀ c ∈ ys, c.isDigit) :
    ∀ c ∈ xs ++ ys, c.isDigit :=
  List.forall_mem_append.mpr ⟨hx, hy⟩

/-- In all three notations no zero stands in front of the first digit, which is none itself. -/
theorem wellFormed_ofDecimal (negative : Bool) {d : Decimal} (pos : 0 < d.digits) :
    (ofDecimal negative d).WellFormed := by
  have digits := isDigit_toDigits d.digits
  have first := head?_toDigits pos
  obtain ⟨c, ds, same⟩ := List.exists_cons_of_ne_nil (@Nat.toDigits_ne_nil d.digits 10)
  unfold ofDecimal
  rw [same] at digits first ⊢
  dsimp only
  generalize d.exponent + ((c :: ds).length - 1 : Nat) = e
  split
  next positional =>
    exact {
      whole := isDigit_append (fun x h => digits x (List.mem_of_mem_take h)) (isDigit_replicate _)
      whole_ne_nil := by simp
      leading := fun zero => absurd zero first
      fraction := by
        split
        · exact isDigit_replicate 1
        · exact fun x h => digits x (List.mem_of_mem_drop h)
      exponent := nofun }
  split
  next small =>
    exact {
      whole := isDigit_replicate 1
      whole_ne_nil := List.cons_ne_nil _ _
      leading := fun _ => rfl
      fraction := isDigit_append (isDigit_replicate _) digits
      exponent := nofun }
  next =>
    exact {
      whole := fun x h => digits x (List.mem_of_mem_take h)
      whole_ne_nil := List.cons_ne_nil _ _
      leading := fun _ => rfl
      fraction := fun x h => digits x (List.mem_of_mem_drop h)
      exponent := fun negative ds h => by
        cases h
        exact ⟨Nat.toDigits_ne_nil, isDigit_toDigits _⟩ }

theorem wellFormed_ofFloat {x : Float} (finite : x.isFinite) : (ofFloat x).WellFormed := by
  rw [ofFloat]
  split
  next zero =>
    exact {
      whole := isDigit_replicate 1
      whole_ne_nil := List.cons_ne_nil _ _
      leading := fun _ => rfl
      fraction := isDigit_replicate 1
      exponent := nofun }
  next nonzero =>
    exact wellFormed_ofDecimal _ (Decimal.ofFloat_pos finite (Bool.eq_false_iff.mpr nonzero))

end AgentBroker.Json.Number
