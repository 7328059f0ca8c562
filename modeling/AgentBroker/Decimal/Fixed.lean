import AgentBroker.Decimal.Shortest

/-!
# Decimals with fixed places

The exact value of a double is rounded to the nearest decimal with the given number of places; a
value in the middle goes to the even neighbour.
-/

namespace AgentBroker

/-- The quotient rounded to the nearest integer, in the middle to the even one. -/
def roundDiv (num den : Nat) : Nat :=
  let below := num / den
  let rest := num % den
  if 2 * rest < den ∨ (2 * rest = den ∧ below % 2 = 0) then below else below + 1

def Binary.units (b : Binary) (places : Nat) : Nat :=
  roundDiv (b.m * Nat.pow 10 places * Nat.pow 2 b.q.toNat) (Nat.pow 2 (-b.q).toNat)

def fixedDigits (places units : Nat) : String :=
  let ds := Nat.toDigits 10 units
  let ds := List.replicate (places + 1 - ds.length) '0' ++ ds
  let whole := ds.take (ds.length - places)
  String.ofList whole ++ (if places = 0 then "" else "." ++ String.ofList (ds.drop whole.length))

def fixedText (places : Nat) (x : Float) : String :=
  if x.isNaN then "NaN"
  else
    let sign := if x.toBits.toNat / signBit == 1 then "-" else ""
    if x.isInf then sign ++ "inf"
    else sign ++ fixedDigits places ((Binary.ofBits x.abs.toBits.toNat).units places)

end AgentBroker
