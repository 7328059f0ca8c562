import AgentBroker.Decimal.Shortest
import AgentBroker.Json.Record

/-!
# Writing doubles

A double is written with the fewest digits that read back as it, always with a fraction or an
exponent, so that it stays apart from the integers.
-/

namespace AgentBroker.Json

/-- The literal of a decimal whose first digit stands for `10 ^ e`: positional while `e` is at least
-5 and below 16, with an exponent otherwise. -/
def Number.ofDecimal (negative : Bool) (d : Decimal) : Number :=
  let ds := Nat.toDigits 10 d.digits
  let e : Int := d.exponent + (ds.length - 1 : Nat)
  if 0 ≤ e ∧ e < 16 then
    let whole := ds.take (e.toNat + 1)
    let fraction := ds.drop (e.toNat + 1)
    ⟨negative, whole ++ List.replicate (e.toNat + 1 - whole.length) '0',
      if fraction = [] then ['0'] else fraction, none⟩
  else if -5 ≤ e ∧ e < 0 then
    ⟨negative, ['0'], List.replicate ((-e).toNat - 1) '0' ++ ds, none⟩
  else ⟨negative, ds.take 1, ds.drop 1, some (e < 0, Nat.toDigits 10 e.natAbs)⟩

/-- The literal of a finite double. The sign of zero is kept. -/
def Number.ofFloat (x : Float) : Number :=
  let negative := x.toBits.toNat / signBit == 1
  if x == 0 then ⟨negative, ['0'], ['0'], none⟩ else ofDecimal negative (.ofFloat x)

/-- A double; there is no JSON for infinities and for what is no number, which become null. -/
def ofFloat (x : Float) : Json := if x.isFinite then number (.ofFloat x) else null

end AgentBroker.Json
