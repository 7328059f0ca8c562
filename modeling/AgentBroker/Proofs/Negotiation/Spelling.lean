import AgentBroker.Proofs.Negotiation.Identifier
import Mathlib

/-!
# The spellings of an identifier

A text spells an identifier when it holds its 32 digits, of either case, in one of four layouts.
These are the texts that are read as the identifier, so a text spells at most one.
-/

namespace AgentBroker

theorem toNat_lt_of_digitInBase? {base : Nat} {c : Char} {d : Nat}
    (h : digitInBase? base c = some d) : c.toNat < 128 := by
  have bounded {top : Char} (below : c ≤ top) (small : top.toNat < 128) : c.toNat < 128 :=
    Nat.lt_of_le_of_lt (UInt32.le_iff_toNat_le.mp below) small
  rw [digitInBase?] at h
  split at h
  next digit => exact bounded digit.2 (by decide)
  next =>
    split at h
    next lower => exact bounded lower.2 (by decide)
    next =>
      split at h
      next upper => exact bounded upper.2 (by decide)
      next => cases h

theorem toNat_lt_of_toLower {c : Char} (small : c.toLower.toNat < 128) : c.toNat < 128 := by
  rw [Char.toLower] at small
  split at small
  next upper => exact Nat.lt_of_le_of_lt (UInt32.le_iff_toNat_le.mp upper.2) (by decide)
  next => exact small

theorem digitInBase?_eq_some_iff {c : Char} {d : Nat} :
    digitInBase? 16 c = some d ↔ d < 16 ∧ c.toLower = d.digitChar := by
  have chars : ∀ d < 16, d.digitChar.toNat < 128 := by decide
  -- A digit is one of the first 128 characters, and these can be gone through.
  have all : ∀ n < 128, ∀ d < 16,
      digitInBase? 16 (Char.ofNat n) = some d ↔ (Char.ofNat n).toLower = d.digitChar := by
    decide +kernel
  have read (ascii : c.toNat < 128) (small : d < 16) :
      digitInBase? 16 c = some d ↔ c.toLower = d.digitChar := by
    have known := all c.toNat ascii d small
    rwa [Char.ofNat_toNat] at known
  constructor
  · intro h
    have small : d < 16 := by
      rw [digitInBase?, Option.filter_eq_some_iff] at h
      exact of_decide_eq_true h.2
    exact ⟨small, (read (toNat_lt_of_digitInBase? h) small).mp h⟩
  · rintro ⟨small, same⟩
    exact (read (toNat_lt_of_toLower (same ▸ chars d small)) small).mpr same

theorem mapM_digitInBase?_eq_some_iff {cs : List Char} {ds : List Nat} :
    cs.mapM (digitInBase? 16) = some ds ↔
      (∀ d ∈ ds, d < 16) ∧ cs.map Char.toLower = ds.map Nat.digitChar := by
  induction cs generalizing ds with
  | nil => cases ds <;> simp
  | cons c cs ih =>
    have split : (c :: cs).mapM (digitInBase? 16) = some ds ↔
        ∃ d rest, digitInBase? 16 c = some d ∧ cs.mapM (digitInBase? 16) = some rest ∧
          d :: rest = ds := by
      simp [List.mapM_cons, Option.bind_eq_some_iff]
    rw [split]
    constructor
    · rintro ⟨d, rest, first, others, rfl⟩
      obtain ⟨small, same⟩ := digitInBase?_eq_some_iff.mp first
      obtain ⟨smalls, sames⟩ := ih.mp others
      exact ⟨List.forall_mem_cons.mpr ⟨small, smalls⟩, List.cons_eq_cons.mpr ⟨same, sames⟩⟩
    · rintro ⟨smalls, sames⟩
      obtain ⟨d, rest, rfl⟩ : ∃ d rest, ds = d :: rest := by
        cases ds with
        | nil => cases sames
        | cons d rest => exact ⟨d, rest, rfl⟩
      obtain ⟨small, smalls⟩ := List.forall_mem_cons.mp smalls
      obtain ⟨same, sames⟩ := List.cons_eq_cons.mp sames
      exact ⟨d, rest, digitInBase?_eq_some_iff.mpr ⟨small, same⟩, ih.mpr ⟨smalls, sames⟩, rfl⟩

theorem ofDigits_concat (base : Nat) (ds : List Nat) (d : Nat) :
    ofDigits base (ds ++ [d]) = ofDigits base ds * base + d := by
  rw [ofDigits, List.foldl_append]
  rfl

theorem ofDigits_lt {base : Nat} {ds : List Nat} (small : ∀ d ∈ ds, d < base) :
    ofDigits base ds < base ^ ds.length := by
  induction ds using List.reverseRecOn with
  | nil => simp [ofDigits]
  | append_singleton ds d ih =>
    have front := ih fun d' mem => small d' (List.mem_append_left _ mem)
    have last := small d (by simp)
    rw [ofDigits_concat, List.length_append, List.length_singleton, Nat.pow_succ]
    calc ofDigits base ds * base + d < ofDigits base ds * base + base := by omega
      _ = (ofDigits base ds + 1) * base := by rw [Nat.add_mul, Nat.one_mul]
      _ ≤ base ^ ds.length * base := Nat.mul_le_mul_right base front

theorem lastDigits_ofDigits {base : Nat} {ds : List Nat} (small : ∀ d ∈ ds, d < base) :
    lastDigits base ds.length (ofDigits base ds) = ds := by
  induction ds using List.reverseRecOn with
  | nil => rfl
  | append_singleton ds d ih =>
    have front := ih fun d' mem => small d' (List.mem_append_left _ mem)
    have last := small d (by simp)
    have quotient : (ofDigits base ds * base + d) / base = ofDigits base ds := by
      rw [Nat.mul_comm, Nat.mul_add_div (Nat.zero_lt_of_lt last), Nat.div_eq_of_lt last,
        Nat.add_zero]
    have rest : (ofDigits base ds * base + d) % base = d := by
      rw [Nat.mul_comm, Nat.mul_add_mod, Nat.mod_eq_of_lt last]
    rw [ofDigits_concat, List.length_append, List.length_singleton, lastDigits_succ, quotient,
      rest, front]

namespace Uuid

theorem ofDigits?_eq_some_iff {cs : List Char} {u : Uuid} :
    ofDigits? cs = some u ↔ cs.map Char.toLower = u.digits := by
  constructor
  · intro h
    rw [ofDigits?] at h
    split at h
    next length =>
      obtain ⟨ds, read, rfl⟩ := Option.map_eq_some_iff.mp h
      obtain ⟨small, lower⟩ := mapM_digitInBase?_eq_some_iff.mp read
      have count : ds.length = 32 := by
        rw [← length, ← List.length_map Char.toLower, lower, List.length_map]
      have bound : ofDigits 16 ds < 2 ^ 128 := by
        have bound := ofDigits_lt small
        rw [count] at bound
        exact bound
      rw [lower, digits_eq, BitVec.toNat_ofNat, Nat.mod_eq_of_lt bound, ← count,
        lastDigits_ofDigits small]
    next => cases h
  · intro h
    have length : cs.length = 32 := by
      rw [← List.length_map Char.toLower, h, length_digits]
    have read : cs.mapM (digitInBase? 16) = u.digits.mapM (digitInBase? 16) := by
      have small := lastDigits_lt (show 0 < 16 by decide) 32 u.toNat
      rw [digits_eq, mapM_digitChar small]
      exact mapM_digitInBase?_eq_some_iff.mpr ⟨small, h.trans (digits_eq u)⟩
    rw [← ofDigits?_digits u, ofDigits?, ofDigits?, if_pos length, if_pos (length_digits u), read]

/-- What surrounds the digits. -/
inductive Layout where
  | plain
  | grouped
  | braced
  | urn

def Layout.write : Layout → List Char → List Char
  | plain, ds => ds
  | grouped, ds => Uuid.grouped ds
  | braced, ds => '{' :: Uuid.grouped ds ++ ['}']
  | urn, ds => urnScheme ++ Uuid.grouped ds

/-- A text spells an identifier: it holds its digits, of either case, in one of the layouts. -/
def Spells (s : String) (u : Uuid) : Prop :=
  ∃ (layout : Layout) (ds : List Char),
    ds.map Char.toLower = u.digits ∧ s.toList = layout.write ds

variable {cs : List Char} {u v : Uuid} {s : String}

theorem eq_grouped (length : cs.length = 36)
    (hyphens : ∀ k ∈ [8, 13, 18, 23], cs[k]? = some '-') :
    cs = grouped ((cs.zipIdx.filter fun p => !([8, 13, 18, 23].contains p.2)).map (·.1)) := by
  have places (char : Nat → Char) (hyphens : ∀ k ∈ [8, 13, 18, 23], char k = '-') :
      let cs := (List.range 36).map char
      cs = grouped
        ((cs.zipIdx.filter fun p => !([8, 13, 18, 23].contains p.2)).map (·.1)) := by
    have filled : (List.range 36).map char =
        (List.range 36).map fun k => if k ∈ [8, 13, 18, 23] then '-' else char k := by
      refine List.map_congr_left fun k _ => ?_
      split
      next hyphen => exact hyphens k hyphen
      next => rfl
    exact filled
  have known := places (fun k => cs[k]?.getD ' ') fun k mem => by
    rw [hyphens k mem]
    rfl
  dsimp only at known
  rwa [← length, ← eq_map_range] at known

theorem ofGroups?_eq_some_iff :
    ofGroups? cs = some u ↔ ∃ ds, ds.map Char.toLower = u.digits ∧ cs = grouped ds := by
  constructor
  · intro h
    rw [ofGroups?] at h
    split at h
    next length =>
      dsimp only at h
      split at h
      next hyphens =>
        refine ⟨_, ofDigits?_eq_some_iff.mp h, eq_grouped length fun k mem => ?_⟩
        exact eq_of_beq (List.all_eq_true.mp hyphens k mem)
      next => cases h
    next => cases h
  · rintro ⟨ds, same, rfl⟩
    have length : ds.length = 32 := by
      rw [← List.length_map Char.toLower, same, length_digits]
    rw [ofGroups?_grouped length]
    exact ofDigits?_eq_some_iff.mpr same

theorem length_urnScheme : urnScheme.length = 9 := by decide

theorem ofChars?_write {ds : List Char} (length : ds.length = 32) (layout : Layout) :
    ofChars? (layout.write ds) = ofDigits? ds := by
  have count := length_grouped length
  cases layout with
  | plain => rw [Layout.write, ofChars?, if_pos length]
  | grouped =>
    rw [Layout.write, ofChars?, count]
    exact ofGroups?_grouped length
  | braced =>
    have whole : ('{' :: grouped ds ++ ['}']).length = 38 := by simp [count]
    have closed : ('{' :: grouped ds ++ ['}']).getLast? = some '}' := List.getLast?_concat
    rw [Layout.write, ofChars?, whole, if_neg (by decide), if_neg (by decide), if_pos rfl,
      if_pos ⟨rfl, closed⟩, List.cons_append, List.tail_cons, List.dropLast_concat,
      ofGroups?_grouped length]
  | urn =>
    have whole : (urnScheme ++ grouped ds).length = 45 := by
      rw [List.length_append, length_urnScheme, count]
    rw [Layout.write, ofChars?, whole, if_neg (by decide), if_neg (by decide), if_neg (by decide),
      if_pos rfl, if_pos (List.take_left' length_urnScheme), List.drop_left' length_urnScheme,
      ofGroups?_grouped length]

theorem exists_write_of_ofChars? (h : ofChars? cs = some u) :
    ∃ (layout : Layout) (ds : List Char),
      ds.map Char.toLower = u.digits ∧ cs = layout.write ds := by
  rw [ofChars?] at h
  split at h
  next => exact ⟨.plain, cs, ofDigits?_eq_some_iff.mp h, rfl⟩
  split at h
  next =>
    obtain ⟨ds, same, written⟩ := ofGroups?_eq_some_iff.mp h
    exact ⟨.grouped, ds, same, written⟩
  split at h
  next length =>
    split at h
    next braces =>
      obtain ⟨ds, same, written⟩ := ofGroups?_eq_some_iff.mp h
      refine ⟨.braced, ds, same, ?_⟩
      rw [Layout.write, ← written]
      obtain ⟨first, last⟩ := braces
      rcases cs with _ | ⟨c, _ | ⟨b, rest⟩⟩
      · cases first
      · cases length
      · cases first
        rw [List.getLast?_cons_cons] at last
        exact congrArg ('{' :: ·) (List.dropLast_append_getLast? '}' last).symm
    next => cases h
  split at h
  next length =>
    split at h
    next scheme =>
      obtain ⟨ds, same, written⟩ := ofGroups?_eq_some_iff.mp h
      refine ⟨.urn, ds, same, ?_⟩
      rw [Layout.write, ← scheme, ← written, List.take_append_drop]
    next => cases h
  next => cases h

/-- The texts that are read as an identifier are those that spell it. -/
theorem parse?_eq_some_iff : parse? s = some u ↔ Spells s u := by
  constructor
  · exact exists_write_of_ofChars?
  · rintro ⟨layout, ds, same, written⟩
    have length : ds.length = 32 := by
      rw [← List.length_map Char.toLower, same, length_digits]
    rw [parse?, written, ofChars?_write length]
    exact ofDigits?_eq_some_iff.mpr same

theorem Spells.unique (h : Spells s u) (h' : Spells s v) : u = v := by
  have read := parse?_eq_some_iff.mpr h
  rw [parse?_eq_some_iff.mpr h'] at read
  exact (Option.some.inj read).symm

end Uuid

end AgentBroker
