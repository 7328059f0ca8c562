/-!
# Number literals

The digits of a JSON number as they stand in the text. What a literal means depends on who reads
it: an integer field takes only literals without fraction and exponent, a floating-point field
takes any literal that does not overflow.
-/

namespace AgentBroker.Json

/-- A number literal: sign, digits before and after the point, and exponent digits with their
sign. -/
structure Number where
  negative : Bool
  whole : List Char
  fraction : List Char
  exponent : Option (Bool × List Char)
  deriving DecidableEq, Repr, Inhabited

namespace Number

def ofNat (n : Nat) : Number := ⟨false, Nat.toDigits 10 n, [], none⟩

def ofInt (i : Int) : Number := ⟨i < 0, Nat.toDigits 10 i.natAbs, [], none⟩

def digitsValue (ds : List Char) : Nat := Nat.ofDigitChars 10 ds 0

/-- The integer a literal names. Fractions, exponents and the negative zero name none. -/
def toInt? (n : Number) : Option Int :=
  if n.fraction = [] ∧ n.exponent = none then
    let value := digitsValue n.whole
    if n.negative then (if value = 0 then none else some (-value)) else some value
  else none

def toNat? (n : Number) : Option Nat :=
  n.toInt?.bind fun i => if 0 ≤ i then some i.toNat else none

/-- The largest significand that is kept exactly while the digits of a literal are read. -/
def significandLimit : Nat := UInt64.size

/-- Appends digits to a significand while it stays below the limit. Also gives the number of
digits left over. -/
def absorb (m : Nat) : List Char → Nat × Nat
  | [] => (m, 0)
  | d :: ds =>
    let next := m * 10 + (d.toNat - '0'.toNat)
    if next < significandLimit then absorb next ds else (m, ds.length + 1)

def exponentValue (n : Number) : Int :=
  match n.exponent with
  | none => 0
  | some (true, ds) => -digitsValue ds
  | some (false, ds) => digitsValue ds

/-- The power of ten nearest to `10 ^ k`, for `k` at most 308. -/
def powerOfTen (k : Nat) : Float := Float.ofScientific 1 false k

/-- Scales by a power of ten with one multiplication or division, after divisions by `1e308` while
the exponent lies below -308. An overflow has no value. -/
def scale (x : Float) (e : Int) : Option Float :=
  if 0 ≤ e then
    if e ≤ 308 then
      let y := x * powerOfTen e.natAbs
      if y.isInf then none else some y
    else if x == 0 then some x
    else none
  else if -308 ≤ e then some (x / powerOfTen e.natAbs)
  else if x == 0 then some x
  else scale (x / powerOfTen 308) (e + 308)
termination_by e.natAbs

/-- The double a literal names: its leading digits as a significand below `2 ^ 64`, rounded to a
double, times a power of ten. A literal of plain digits below the limit is rounded only once. An
overflow has no value. -/
def toFloat? (n : Number) : Option Float :=
  let (m, dropped) := absorb 0 n.whole
  let (m, left) := absorb m n.fraction
  let shift : Int := dropped - (n.fraction.length - left : Nat)
  (scale (Float.ofNat m) (shift + n.exponentValue)).map fun x => if n.negative then -x else x

def text (n : Number) : List Char :=
  (if n.negative then ['-'] else []) ++ n.whole ++
    (if n.fraction = [] then [] else '.' :: n.fraction) ++
    match n.exponent with
    | none => []
    | some (negative, ds) => 'e' :: (if negative then '-' else '+') :: ds

end Number

end AgentBroker.Json
