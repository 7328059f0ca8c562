import AgentBroker.Agent.Numbering
import AgentBroker.Proofs.Run
import Mathlib

/-!
# The numbers of a run of envelopes

Envelopes with a number of their own keep it. The others are numbered one after the other, modulo
`2 ^ 32`: the numbers increase, and none of them is zero, exactly as long as there are fewer of
these envelopes than numbers.
-/

namespace AgentBroker.Numbering

def Unnumbered (e : Envelope) : Prop := e.msgId = 0

instance : DecidablePred Unnumbered := fun e => inferInstanceAs (Decidable (e.msgId = 0))

def next (n : Numbering) (e : Envelope) : Numbering := (n.stamp e).2

def outgoing (n : Numbering) (run : List Envelope) : List Envelope :=
  Run.log next (fun n e => [(n.stamp e).1]) n run

/-- The numbers that a run is given, in the order of the envelopes. -/
def given (n : Numbering) (run : List Envelope) : List UInt32 :=
  Run.log next (fun n e => if Unnumbered e then [(n.stamp e).1.msgId] else []) n run

/-- How many envelopes of a run have to be numbered. -/
def demand (run : List Envelope) : Nat := run.countP fun e => Unnumbered e

variable {n : Numbering} {e : Envelope} {run : List Envelope}

theorem stamp_of_unnumbered (h : Unnumbered e) :
    n.stamp e = ({ e with msgId := n.last + 1 }, ⟨n.last + 1⟩) :=
  if_pos h

theorem outgoing_kept (n : Numbering) (run : List Envelope) :
    List.Forall₂ (fun e out => out.request = e.request ∧ (¬ Unnumbered e → out = e)) run
      (n.outgoing run) := by
  induction run generalizing n with
  | nil => exact .nil
  | cons e rest ih =>
    refine .cons ?_ (ih (n.next e))
    by_cases h : Unnumbered e
    · rw [stamp_of_unnumbered h]
      exact ⟨rfl, fun numbered => absurd h numbered⟩
    · rw [stamp_of_ne_zero h]
      exact ⟨rfl, fun _ => rfl⟩

theorem next_of_unnumbered (h : Unnumbered e) : n.next e = ⟨n.last + 1⟩ :=
  congrArg Prod.snd (stamp_of_unnumbered h)

theorem next_of_not_unnumbered (h : ¬ Unnumbered e) : n.next e = n :=
  congrArg Prod.snd (stamp_of_ne_zero h)

theorem demand_cons (e : Envelope) (rest : List Envelope) :
    demand (e :: rest) = demand rest + if Unnumbered e then 1 else 0 := by
  simp [demand, List.countP_cons]

theorem last_add_one (last : UInt32) (k : Nat) :
    last + 1 + UInt32.ofNat k = last + UInt32.ofNat (k + 1) := by
  rw [UInt32.ofNat_add, UInt32.add_comm (.ofNat k), ← UInt32.add_assoc]
  rfl

theorem last_run (n : Numbering) (run : List Envelope) :
    (Run.last next n run).last = n.last + UInt32.ofNat (demand run) := by
  induction run generalizing n with
  | nil => exact (UInt32.add_zero _).symm
  | cons e rest ih =>
    rw [Run.last_cons, ih, demand_cons]
    split
    next h => rw [next_of_unnumbered h, last_add_one]
    next h => rw [next_of_not_unnumbered h, Nat.add_zero]

theorem given_cons (n : Numbering) (e : Envelope) (rest : List Envelope) :
    n.given (e :: rest) =
      (if Unnumbered e then [(n.stamp e).1.msgId] else []) ++ (n.next e).given rest :=
  rfl

theorem given_eq (n : Numbering) (run : List Envelope) :
    n.given run = (List.range (demand run)).map fun k => n.last + UInt32.ofNat (k + 1) := by
  induction run generalizing n with
  | nil => rfl
  | cons e rest ih =>
    rw [given_cons, ih, demand_cons]
    split
    next h =>
      rw [List.range_succ_eq_map, next_of_unnumbered h, stamp_of_unnumbered h, List.map_cons,
        List.map_map, List.singleton_append]
      congr 1
      exact List.map_congr_left fun k _ => last_add_one n.last (k + 1)
    next h => rw [next_of_not_unnumbered h, Nat.add_zero, List.nil_append]

theorem outgoing_ne_zero_iff (n : Numbering) (run : List Envelope) :
    (∀ out ∈ n.outgoing run, out.msgId ≠ 0) ↔ 0 ∉ n.given run := by
  induction run generalizing n with
  | nil => exact iff_of_true nofun nofun
  | cons e rest ih =>
    have sent : n.outgoing (e :: rest) = (n.stamp e).1 :: (n.next e).outgoing rest := rfl
    rw [sent, given_cons, List.forall_mem_cons, ih, List.mem_append, not_or]
    refine and_congr_left fun _ => ?_
    split
    next h => rw [List.mem_singleton, ne_comm]
    next h =>
      rw [stamp_of_ne_zero h]
      exact iff_of_true h nofun

theorem exists_turn {k : Nat} (asked : k < demand run) :
    ∃ before e after, run = before ++ e :: after ∧ Unnumbered e ∧ demand before = k := by
  induction run generalizing k with
  | nil => cases asked
  | cons e rest ih =>
    rw [demand_cons] at asked
    split at asked
    next h =>
      cases k with
      | zero => exact ⟨[], e, rest, rfl, h, rfl⟩
      | succ k =>
        obtain ⟨before, e', after, rfl, bare, count⟩ := ih (Nat.lt_of_succ_lt_succ asked)
        exact ⟨e :: before, e', after, rfl, bare, by rw [demand_cons, if_pos h, count]⟩
    next h =>
      obtain ⟨before, e', after, rfl, bare, count⟩ := ih asked
      have same : demand (e :: before) = k := by rw [demand_cons, if_neg h, count, Nat.add_zero]
      exact ⟨e :: before, e', after, rfl, bare, same⟩

theorem given_start (run : List Envelope) :
    start.given run = (List.range (demand run)).map fun k => UInt32.ofNat (k + 1) := by
  rw [given_eq]
  exact List.map_congr_left fun k _ => UInt32.zero_add _

theorem toNat_turn {k : Nat} (fits : k + 1 < UInt32.size) : (UInt32.ofNat (k + 1)).toNat = k + 1 :=
  UInt32.toNat_ofNat_of_lt' fits

theorem zero_notMem_given_iff : 0 ∉ start.given run ↔ demand run < UInt32.size := by
  have size : UInt32.size = 4294967296 := rfl
  have zero : UInt32.ofNat (UInt32.size - 1 + 1) = 0 := by decide
  rw [given_start, List.mem_map]
  constructor
  · intro absent
    by_contra more
    exact absent ⟨UInt32.size - 1, List.mem_range.mpr (by omega), zero⟩
  · rintro fits ⟨k, asked, same⟩
    have turn := toNat_turn (Nat.lt_of_le_of_lt (List.mem_range.mp asked) fits)
    rw [same] at turn
    cases turn

theorem given_increasing_iff :
    (start.given run).Pairwise (· < ·) ↔ demand run < UInt32.size := by
  have size : UInt32.size = 4294967296 := rfl
  have zero : ¬ UInt32.ofNat (0 + 1) < UInt32.ofNat (UInt32.size - 1 + 1) := by decide
  rw [given_start, List.pairwise_map]
  constructor
  · intro increasing
    by_contra more
    -- The first number and the zero.
    have first : 0 < (List.range (demand run)).length := by rw [List.length_range]; omega
    have wrapped : UInt32.size - 1 < (List.range (demand run)).length := by
      rw [List.length_range]
      omega
    have lt := List.pairwise_iff_getElem.mp increasing 0 (UInt32.size - 1) first wrapped (by omega)
    rw [List.getElem_range, List.getElem_range] at lt
    exact zero lt
  · intro fits
    refine List.pairwise_lt_range.imp_of_mem fun {j k} _ asked lt => ?_
    have later := Nat.lt_of_le_of_lt (List.mem_range.mp asked) fits
    rw [UInt32.lt_iff_toNat_lt, toNat_turn later, toNat_turn (by omega)]
    omega

theorem given_nodup_iff : (start.given run).Nodup ↔ demand run ≤ UInt32.size := by
  have size : UInt32.size = 4294967296 := rfl
  have again : UInt32.ofNat (0 + 1) = UInt32.ofNat (UInt32.size + 1) := by decide
  rw [given_start, List.nodup_map_iff_inj_on List.nodup_range]
  constructor
  · intro distinct
    by_contra more
    have same := distinct 0 (List.mem_range.mpr (by omega)) UInt32.size
      (List.mem_range.mpr (by omega)) again
    cases same
  · intro fits j early k late same
    have turn := congrArg UInt32.toNat same
    rw [UInt32.toNat_ofNat', UInt32.toNat_ofNat'] at turn
    have := List.mem_range.mp early
    have := List.mem_range.mp late
    omega

theorem not_overflow_iff :
    (∀ before e after, run = before ++ e :: after → Unnumbered e →
      (Run.last next start before).last.toNat + 1 < UInt32.size) ↔ demand run < UInt32.size := by
  have size : UInt32.size = 4294967296 := rfl
  have behind {before : List Envelope} (fits : demand before < UInt32.size) :
      (Run.last next start before).last.toNat = demand before := by
    rw [last_run, start, UInt32.zero_add]
    exact UInt32.toNat_ofNat_of_lt' fits
  constructor
  · intro fits
    by_contra more
    have asked : UInt32.size - 1 < demand run := by omega
    obtain ⟨before, e, after, split, bare, count⟩ := exists_turn asked
    have below := fits before e after split bare
    rw [behind (by omega)] at below
    omega
  · rintro fits before e after rfl bare
    rw [demand, List.countP_append, List.countP_cons_of_pos (by simpa)] at fits
    rw [behind (by rw [demand]; omega), demand]
    omega

/-- In every run an envelope with a number of its own keeps it, and the others get the numbers from
one on, modulo `2 ^ 32`. No number is zero, the numbers increase and the counter does not overflow
exactly as long as fewer than `2 ^ 32` envelopes ask for a number; no two are the same exactly as
long as at most `2 ^ 32` do. -/
theorem numbers_exact (run : List Envelope) :
    List.Forall₂ (fun e out => out.request = e.request ∧ (¬ Unnumbered e → out = e)) run
      (start.outgoing run) ∧
    start.given run = ((List.range (demand run)).map fun k => UInt32.ofNat (k + 1)) ∧
    ((∀ out ∈ start.outgoing run, out.msgId ≠ 0) ↔ demand run < UInt32.size) ∧
    ((start.given run).Pairwise (· < ·) ↔ demand run < UInt32.size) ∧
    ((∀ before e after, run = before ++ e :: after → Unnumbered e →
      (Run.last next start before).last.toNat + 1 < UInt32.size) ↔ demand run < UInt32.size) ∧
    ((start.given run).Nodup ↔ demand run ≤ UInt32.size) :=
  ⟨outgoing_kept start run, given_start run,
    (outgoing_ne_zero_iff start run).trans zero_notMem_given_iff, given_increasing_iff,
    not_overflow_iff, given_nodup_iff⟩

/-- In a run of more than `2 ^ 32` envelopes without a number one goes out without a number, and the
numbers come round. -/
theorem numbers_come_round :
    let run : List Envelope := List.replicate 4294967297 ⟨0, none⟩
    (∃ out ∈ start.outgoing run, out.msgId = 0) ∧ ¬ (start.given run).Pairwise (· < ·) ∧
      ¬ (start.given run).Nodup := by
  intro run
  have size : UInt32.size = 4294967296 := rfl
  have asked : demand run = 4294967297 := by
    rw [demand, List.countP_replicate, if_pos (by decide)]
  refine ⟨?_, ?_, ?_⟩
  · by_contra numbered
    have nonzero : ∀ out ∈ start.outgoing run, out.msgId ≠ 0 := fun out sent zero =>
      numbered ⟨out, sent, zero⟩
    have := zero_notMem_given_iff.mp ((outgoing_ne_zero_iff start run).mp nonzero)
    omega
  · rw [given_increasing_iff]
    omega
  · rw [given_nodup_iff]
    omega

end AgentBroker.Numbering
