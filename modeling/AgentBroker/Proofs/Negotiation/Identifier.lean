import AgentBroker.Uuid
import Mathlib.Algebra.Group.Nat.Defs
import Mathlib.Logic.Function.Basic

/-!
# The canonical text of an identifier

Reading the canonical text of an identifier gives the identifier back. So no two identifiers have
the same canonical text.
-/

namespace AgentBroker

theorem digitInBase?_digitChar {d : Nat} (small : d < 16) :
    digitInBase? 16 (Nat.digitChar d) = some d := by
  have all : ∀ d < 16, digitInBase? 16 (Nat.digitChar d) = some d := by decide
  exact all d small

theorem mapM_digitChar {ds : List Nat} (small : ∀ d ∈ ds, d < 16) :
    (ds.map Nat.digitChar).mapM (digitInBase? 16) = some ds := by
  induction ds with
  | nil => rfl
  | cons d ds ih =>
    have first := digitInBase?_digitChar (small d List.mem_cons_self)
    have rest := ih fun d' mem => small d' (List.mem_cons_of_mem d mem)
    rw [List.map_cons, List.mapM_cons, first, rest]
    rfl

def lastDigits (base n x : Nat) : List Nat :=
  (List.range n).map fun k => x / Nat.pow base (n - 1 - k) % base

theorem lastDigits_succ (base n x : Nat) :
    lastDigits base (n + 1) x = lastDigits base n (x / base) ++ [x % base] := by
  rw [lastDigits, List.range_succ, List.map_append, List.map_singleton, lastDigits]
  congr 1
  · refine List.map_congr_left fun k mem => ?_
    have below : k < n := List.mem_range.mp mem
    have exponent : n + 1 - 1 - k = (n - 1 - k) + 1 := by omega
    rw [exponent, Nat.div_div_eq_div_mul]
    change x / base ^ (n - 1 - k + 1) % base = x / (base * base ^ (n - 1 - k)) % base
    rw [Nat.pow_succ']
  · rw [Nat.add_sub_cancel, Nat.sub_self]
    change [x / base ^ 0 % base] = [x % base]
    rw [Nat.pow_zero, Nat.div_one]

theorem ofDigits_lastDigits (base n x : Nat) :
    ofDigits base (lastDigits base n x) = x % base ^ n := by
  induction n generalizing x with
  | zero => rw [Nat.pow_zero, Nat.mod_one]; rfl
  | succ n ih =>
    rw [lastDigits_succ, ofDigits, List.foldl_append, ← ofDigits, ih, List.foldl_cons,
      List.foldl_nil, Nat.pow_succ', Nat.mod_mul, Nat.add_comm, Nat.mul_comm]

theorem lastDigits_lt {base : Nat} (pos : 0 < base) (n x : Nat) :
    ∀ d ∈ lastDigits base n x, d < base := by
  intro d mem
  obtain ⟨k, -, rfl⟩ := List.mem_map.mp mem
  exact Nat.mod_lt _ pos

namespace Uuid

theorem length_digits (u : Uuid) : u.digits.length = 32 := by
  rw [digits, List.length_map, List.length_range]

theorem digits_eq (u : Uuid) : u.digits = (lastDigits 16 32 u.toNat).map Nat.digitChar := by
  rw [digits, lastDigits, List.map_map]
  rfl

theorem ofDigits?_digits (u : Uuid) : ofDigits? u.digits = some u := by
  have read : u.digits.mapM (digitInBase? 16) = some (lastDigits 16 32 u.toNat) := by
    rw [digits_eq]
    exact mapM_digitChar (lastDigits_lt (by decide) 32 u.toNat)
  have whole : u.toNat % 16 ^ 32 = u.toNat := Nat.mod_eq_of_lt u.isLt
  rw [ofDigits?, if_pos (length_digits u), read, Option.map_some, ofDigits_lastDigits, whole,
    BitVec.ofNat_toNat, BitVec.setWidth_eq]

/-- Digits in groups of eight, four, four, four and twelve. -/
def grouped (ds : List Char) : List Char :=
  ds.take 8 ++ '-' :: (ds.drop 8).take 4 ++ '-' :: (ds.drop 12).take 4 ++
    '-' :: (ds.drop 16).take 4 ++ '-' :: ds.drop 20

theorem length_grouped {ds : List Char} (length : ds.length = 32) : (grouped ds).length = 36 := by
  simp [grouped, length]

theorem eq_map_range (cs : List Char) :
    cs = (List.range cs.length).map fun k => cs[k]?.getD ' ' := by
  refine List.ext_getElem (by simp) fun k inside _ => ?_
  simp [inside]

theorem ofGroups?_grouped {ds : List Char} (length : ds.length = 32) :
    ofGroups? (grouped ds) = ofDigits? ds := by
  have places (digit : Nat → Char) :
      ofGroups? (grouped ((List.range 32).map digit)) =
        ofDigits? ((List.range 32).map digit) := rfl
  have known := places fun k => ds[k]?.getD ' '
  rwa [← length, ← eq_map_range] at known

theorem parse?_text (u : Uuid) : parse? u.text = some u := by
  have groups : u.text.toList = grouped u.digits := String.toList_ofList
  rw [parse?, groups, ofChars?, length_grouped (length_digits u),
    ofGroups?_grouped (length_digits u), ofDigits?_digits]
  rfl

theorem text_injective : Function.Injective text := by
  intro u v same
  have read : parse? u.text = parse? v.text := congrArg parse? same
  rw [parse?_text, parse?_text] at read
  exact Option.some.inj read

end Uuid

end AgentBroker
