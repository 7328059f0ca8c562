/-!
# Shortest decimals

A positive double is `m * 2 ^ q`. The decimals that are rounded to it form an interval, whose ends
belong to it when `m` is even. The shortest decimal is the one on the coarsest power-of-ten grid
that meets the interval, and of two such neighbours the nearer one. All comparisons are made
between natural numbers.
-/

namespace AgentBroker

/-- The decimal `digits * 10 ^ exponent`. -/
structure Decimal where
  digits : Nat
  exponent : Int
  deriving DecidableEq, Repr, Inhabited

/-- The positive binary number `m * 2 ^ q`. Below a power of two the neighbour is only half as far
away as above it; `narrow` says that the number has such a neighbour below. -/
structure Binary where
  m : Nat
  q : Int
  narrow : Bool
  deriving DecidableEq, Repr, Inhabited

def signBit : Nat := 9223372036854775808

def mantissaSize : Nat := 4503599627370496

namespace Binary

def ofBits (bits : Nat) : Binary :=
  let exponent : Nat := bits / mantissaSize % 2048
  let mantissa := bits % mantissaSize
  if exponent = 0 then ⟨mantissa, -1074, false⟩
  else ⟨mantissaSize + mantissa, (exponent : Int) - 1075, mantissa == 0 && exponent != 1⟩

/-- A quarter of the last binary place and one step of the grid `10 ^ k`, as natural numbers on a
common scale. -/
def scales (b : Binary) (k : Int) : Nat × Nat :=
  (Nat.pow 2 (b.q - 2).toNat * Nat.pow 10 (-k).toNat,
    Nat.pow 10 k.toNat * Nat.pow 2 (2 - b.q).toNat)

/-- The grid point `c * 10 ^ k` rounds to `b`. -/
def meets (b : Binary) (k : Int) (c : Nat) : Bool :=
  let (quarter, step) := b.scales k
  let low := (4 * b.m - if b.narrow then 1 else 2) * quarter
  let high := (4 * b.m + 2) * quarter
  if b.m % 2 = 0 then low ≤ c * step && c * step ≤ high
  else low < c * step && c * step < high

/-- The grid point next to `b` that rounds to it, the nearer one of two, the even one of two
equally near. -/
def onGrid? (b : Binary) (k : Int) : Option Nat :=
  let (quarter, step) := b.scales k
  let value := 4 * b.m * quarter
  let below := value / step
  match b.meets k below, b.meets k (below + 1) with
  | false, false => none
  | true, false => some below
  | false, true => some (below + 1)
  | true, true =>
    let rest := value % step
    if 2 * rest < step ∨ (2 * rest = step ∧ below % 2 = 0) then some below else some (below + 1)

/-- The first hit on the grids from `10 ^ k` downwards. The last grid is taken without a test. -/
def firstHit (b : Binary) (k : Int) : Nat → Decimal
  | 0 => ⟨4 * b.m * (b.scales k).1 / (b.scales k).2, k⟩
  | n + 1 =>
    match b.onGrid? k with
    | some c => ⟨c, k⟩
    | none => firstHit b (k - 1) n

/-- A power of ten above the number, found with an approximation of the logarithm of two. -/
def topExponent (b : Binary) : Int := (b.q + b.m.log2 + 1) * 30103 / 100000 + 1

/-- The shortest decimal that rounds to the number; seventeen digits are always enough. -/
def shortest (b : Binary) : Decimal := b.firstHit b.topExponent 20

end Binary

def Decimal.ofFloat (x : Float) : Decimal := (Binary.ofBits (x.abs.toBits.toNat)).shortest

end AgentBroker
