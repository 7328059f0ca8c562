import AgentBroker.Proofs.Run
import AgentBroker.Wire.Metrics
import Mathlib

/-!
# The window of dispatch times

The metrics keep how long the last thousand envelopes took, in whole microseconds that are cut off
at the largest number of 64 bits. The sum behind the mean is formed in 64 bits as well. As long as
it fits, the mean lies between the shortest and the longest of these times; two times that have been
cut off are too much for it, and the program panics.
-/

namespace AgentBroker.Metrics

structure Dispatch where
  operation : String
  elapsed : Nanos
  ok : Bool

/-- Its time in whole microseconds, at most what 64 bits hold. -/
def Dispatch.time (d : Dispatch) : Nat := min (d.elapsed / 1000) (UInt64.size - 1)

/-- The metrics behind a run of processed envelopes. -/
def processed (m : Metrics) (run : List Dispatch) : Metrics :=
  Run.last (fun m d => m.envelopeProcessed d.operation d.elapsed d.ok) m run

/-- The last values of a list, `size` of them if there are as many. -/
def lastOf {α : Type} (size : Nat) (values : List α) : List α := values.drop (values.length - size)

/-- What the times come to. -/
def total (times : List UInt64) : Nat := (times.map UInt64.toNat).sum

variable {times : List UInt64}

theorem toNat_micros (elapsed : Nanos) :
    (micros elapsed).toNat = min (elapsed / 1000) (UInt64.size - 1) := by
  have size : UInt64.size = 18446744073709551616 := rfl
  rw [micros, UInt64.toNat_ofNat', Nat.mod_eq_of_lt]
  omega

theorem lastOf_append (times : List UInt64) (t : UInt64) (size : Nat) :
    lastOf size (lastOf size times ++ [t]) = lastOf size (times ++ [t]) := by
  have front : lastOf size times ++ [t] = (times ++ [t]).drop (times.length - size) :=
    (List.drop_append_of_le_length (Nat.sub_le ..)).symm
  rw [front, lastOf, lastOf, List.drop_drop, List.length_drop, List.length_append,
    List.length_singleton]
  congr 1
  omega

theorem dispatchTimes_envelopeProcessed (m : Metrics) (operation : String) (elapsed : Nanos)
    (ok : Bool) : (m.envelopeProcessed operation elapsed ok).dispatchTimes =
      lastOf window (m.dispatchTimes ++ [micros elapsed]) := by
  simp only [envelopeProcessed, appendToWindow, lastOf]

theorem processed_concat (m : Metrics) (before : List Dispatch) (d : Dispatch) :
    m.processed (before ++ [d]) =
      (m.processed before).envelopeProcessed d.operation d.elapsed d.ok :=
  Run.last_concat ..

theorem dispatchTimes_processed (run : List Dispatch) :
    (empty.processed run).dispatchTimes = lastOf window (run.map fun d => micros d.elapsed) := by
  induction run using List.reverseRecOn with
  | nil => exact List.drop_nil.symm
  | append_singleton before d ih =>
    rw [processed_concat, dispatchTimes_envelopeProcessed, ih, lastOf_append, List.map_append,
      List.map_singleton]

theorem map_toNat_processed (run : List Dispatch) :
    (empty.processed run).dispatchTimes.map UInt64.toNat =
      (lastOf window run).map Dispatch.time := by
  rw [dispatchTimes_processed, lastOf, List.length_map, ← List.map_drop, List.map_map]
  exact List.map_congr_left fun d _ => toNat_micros d.elapsed

theorem add64?_eq_some_iff {a b sum : UInt64} :
    add64? a b = some sum ↔ sum.toNat = a.toNat + b.toNat := by
  rw [add64?]
  by_cases fits : a.toNat + b.toNat < UInt64.size
  · have added : (a + b).toNat = a.toNat + b.toNat := by
      rw [UInt64.toNat_add, Nat.mod_eq_of_lt fits]
    rw [if_pos fits, Option.some.injEq, ← UInt64.toNat_inj, added]
    exact eq_comm
  · rw [if_neg fits]
    refine ⟨nofun, fun same => ?_⟩
    exact absurd (same ▸ sum.toNat_lt_size) fits

/-- Adding never fails on the way: if a part of the sum overflows, so does the whole of it. -/
theorem sum64?_eq_some_iff {sum : UInt64} : sum64? times = some sum ↔ sum.toNat = total times := by
  have shifted (start : UInt64) :
      times.foldlM add64? start = some sum ↔ sum.toNat = start.toNat + total times := by
    induction times generalizing start with
    | nil =>
      rw [List.foldlM_nil, Option.pure_def, Option.some.injEq, ← UInt64.toNat_inj]
      exact eq_comm
    | cons t times ih =>
      have whole : total (t :: times) = t.toNat + total times := List.sum_cons
      rw [List.foldlM_cons, Option.bind_eq_bind, Option.bind_eq_some_iff, whole, ← Nat.add_assoc]
      constructor
      · rintro ⟨front, added, rest⟩
        rw [← add64?_eq_some_iff.mp added]
        exact (ih front).mp rest
      · intro same
        have fits : start.toNat + t.toNat < UInt64.size := by
          have below := sum.toNat_lt_size
          omega
        have added : add64? start t = some (start + t) := if_pos fits
        refine ⟨_, added, (ih _).mpr ?_⟩
        rw [add64?_eq_some_iff.mp added]
        exact same
  have zero : (0 : UInt64).toNat + total times = total times := Nat.zero_add _
  rw [sum64?, shifted, zero]

theorem exists_sum64? (fits : total times < UInt64.size) :
    ∃ sum, sum64? times = some sum ∧ sum.toNat = total times := by
  have same : (UInt64.ofNat (total times)).toNat = total times := UInt64.toNat_ofNat_of_lt fits
  exact ⟨_, sum64?_eq_some_iff.mpr same, same⟩

theorem sum64?_eq_none_iff : sum64? times = none ↔ UInt64.size ≤ total times := by
  constructor
  · intro none
    by_contra fits
    obtain ⟨sum, some, -⟩ := exists_sum64? (Nat.not_le.mp fits)
    cases none.symm.trans some
  · intro large
    rw [Option.eq_none_iff_forall_ne_some]
    intro sum some
    exact absurd (sum64?_eq_some_iff.mp some ▸ sum.toNat_lt_size) (Nat.not_lt.mpr large)

theorem total_sortedTimes (m : Metrics) : total m.sortedTimes = total m.dispatchTimes :=
  ((List.mergeSort_perm _ _).map _).sum_eq

theorem total_between {least greatest : UInt64}
    (bounds : ∀ t ∈ times, least ≤ t ∧ t ≤ greatest) :
    least.toNat * times.length ≤ total times ∧ total times ≤ greatest.toNat * times.length := by
  have below : ∀ n ∈ times.map UInt64.toNat, least.toNat ≤ n := by
    intro n mem
    obtain ⟨t, kept, rfl⟩ := List.mem_map.mp mem
    exact (bounds t kept).1
  have above : ∀ n ∈ times.map UInt64.toNat, n ≤ greatest.toNat := by
    intro n mem
    obtain ⟨t, kept, rfl⟩ := List.mem_map.mp mem
    exact (bounds t kept).2
  have lower := List.card_nsmul_le_sum _ _ below
  have upper := List.sum_le_card_nsmul _ _ above
  rw [List.length_map, smul_eq_mul, Nat.mul_comm] at lower upper
  exact ⟨lower, upper⟩

theorem exists_extremes (nonempty : times ≠ []) :
    ∃ least ∈ times, ∃ greatest ∈ times, ∀ t ∈ times, least ≤ t ∧ t ≤ greatest := by
  have finite : {t | t ∈ times}.Finite := times.finite_toSet
  have inhabited : {t | t ∈ times}.Nonempty := List.exists_mem_of_ne_nil times nonempty
  obtain ⟨least, first, below⟩ := Set.exists_min_image _ UInt64.toNat finite inhabited
  obtain ⟨greatest, last, above⟩ := Set.exists_max_image _ UInt64.toNat finite inhabited
  exact ⟨least, first, greatest, last, fun t mem => ⟨below t mem, above t mem⟩⟩

theorem mean?_eq (nonempty : times ≠ []) :
    mean? times = (sum64? times).map fun sum => sum.toFloat / Float.ofNat times.length := by
  rw [mean?, if_neg]
  rwa [List.isEmpty_iff]

theorem mean_sortedTimes (m : Metrics) (nonempty : m.dispatchTimes ≠ []) :
    mean? m.sortedTimes = (sum64? m.sortedTimes).map fun sum =>
      sum.toFloat / Float.ofNat m.dispatchTimes.length := by
  have length : m.sortedTimes.length = m.dispatchTimes.length := List.length_mergeSort _
  rw [mean?_eq, length]
  rw [← List.length_pos_iff, length]
  exact List.length_pos_iff.mpr nonempty

theorem total_div_between (nonempty : times ≠ []) :
    ∃ least ∈ times, ∃ greatest ∈ times, (∀ t ∈ times, least ≤ t ∧ t ≤ greatest) ∧
      (least.toNat : ℚ) ≤ total times / times.length ∧
      (total times : ℚ) / times.length ≤ greatest.toNat := by
  obtain ⟨least, first, greatest, last, bounds⟩ := exists_extremes nonempty
  obtain ⟨lower, upper⟩ := total_between bounds
  have pos : (0 : ℚ) < times.length := by
    exact_mod_cast List.length_pos_iff.mpr nonempty
  refine ⟨least, first, greatest, last, bounds, ?_, ?_⟩
  · rw [le_div_iff₀ pos]
    exact_mod_cast lower
  · rw [div_le_iff₀ pos]
    exact_mod_cast upper

theorem mean?_eq_none_iff : mean? times = none ↔ UInt64.size ≤ total times := by
  by_cases empty : times = []
  · subst empty
    exact ⟨nofun, fun large => absurd large (by decide)⟩
  · rw [mean?_eq empty, Option.map_eq_none_iff, sum64?_eq_none_iff]

theorem snapshotJson?_eq_none_iff (m : Metrics) (withTimes : Bool) :
    m.snapshotJson? withTimes = none ↔ UInt64.size ≤ total m.dispatchTimes := by
  rw [snapshotJson?, timesJson?, Option.map_eq_none_iff, Option.map_eq_none_iff, mean?_eq_none_iff,
    total_sortedTimes]

/-- Whatever has been processed, the metrics keep the times of the last envelopes, as many as the
window holds. If these times come to less than `2 ^ 64`, their mean is formed from exactly what they
come to and lies between the shortest and the longest of them. Otherwise their sum overflows, and
there is no mean and no snapshot of the metrics: the program panics. -/
theorem retained_exact (run : List Dispatch) :
    let m := empty.processed run
    m.dispatchTimes.map UInt64.toNat = (lastOf window run).map Dispatch.time ∧
    m.dispatchTimes.length = min run.length window ∧
    (total m.dispatchTimes < UInt64.size →
      ∃ sum, sum64? m.sortedTimes = some sum ∧ sum.toNat = total m.dispatchTimes ∧
        (m.dispatchTimes ≠ [] →
          mean? m.sortedTimes = some (sum.toFloat / Float.ofNat m.dispatchTimes.length) ∧
          ∃ least ∈ m.dispatchTimes, ∃ greatest ∈ m.dispatchTimes,
            (∀ t ∈ m.dispatchTimes, least ≤ t ∧ t ≤ greatest) ∧
            (least.toNat : ℚ) ≤ sum.toNat / m.dispatchTimes.length ∧
            (sum.toNat : ℚ) / m.dispatchTimes.length ≤ greatest.toNat)) ∧
    (UInt64.size ≤ total m.dispatchTimes →
      sum64? m.sortedTimes = none ∧ mean? m.sortedTimes = none) ∧
    ∀ withTimes, m.snapshotJson? withTimes = none ↔ UInt64.size ≤ total m.dispatchTimes := by
  intro m
  have kept : m.dispatchTimes.map UInt64.toNat = (lastOf window run).map Dispatch.time :=
    map_toNat_processed run
  have length : m.dispatchTimes.length = min run.length window := by
    have same := congrArg List.length kept
    rw [List.length_map, List.length_map, lastOf, List.length_drop] at same
    omega
  refine ⟨kept, length, fun fits => ?_, fun large => ?_, m.snapshotJson?_eq_none_iff⟩
  · rw [← total_sortedTimes] at fits
    obtain ⟨sum, formed, total_eq⟩ := exists_sum64? fits
    rw [total_sortedTimes] at total_eq
    refine ⟨sum, formed, total_eq, fun nonempty => ⟨?_, ?_⟩⟩
    · rw [mean_sortedTimes m nonempty, formed, Option.map_some]
    · exact total_eq ▸ total_div_between nonempty
  · rw [← total_sortedTimes] at large
    exact ⟨sum64?_eq_none_iff.mpr large, mean?_eq_none_iff.mpr large⟩

/-- Two short times fit. -/
theorem retained_exact_short :
    let m := empty.processed [⟨"SEND_MESSAGE", 3000, true⟩, ⟨"SEND_MESSAGE", 5999, false⟩]
    m.dispatchTimes = [3, 5] ∧ total m.dispatchTimes < UInt64.size ∧
    ∃ sum, sum64? m.sortedTimes = some sum ∧ sum.toNat = 8 ∧
      mean? m.sortedTimes = some (sum.toFloat / Float.ofNat 2) ∧
      ∃ least ∈ m.dispatchTimes, ∃ greatest ∈ m.dispatchTimes,
        (∀ t ∈ m.dispatchTimes, least ≤ t ∧ t ≤ greatest) ∧
        (least.toNat : ℚ) ≤ sum.toNat / m.dispatchTimes.length ∧
        (sum.toNat : ℚ) / m.dispatchTimes.length ≤ greatest.toNat := by
  intro m
  have kept : m.dispatchTimes = [3, 5] := by decide +kernel
  have nonempty : m.dispatchTimes ≠ [] := by rw [kept]; exact List.cons_ne_nil _ _
  have fits : total m.dispatchTimes < UInt64.size := by rw [kept]; decide +kernel
  obtain ⟨-, -, retained, -⟩ := retained_exact
    [⟨"SEND_MESSAGE", 3000, true⟩, ⟨"SEND_MESSAGE", 5999, false⟩]
  obtain ⟨sum, formed, same, bounded⟩ := retained fits
  obtain ⟨mean, between⟩ := bounded nonempty
  refine ⟨kept, fits, sum, formed, ?_, ?_, between⟩
  · rw [same, kept]
    rfl
  · rw [mean, kept]
    rfl

/-- Two envelopes that took as long as can be told. -/
def ages : List Dispatch :=
  [⟨"SEND_MESSAGE", 18446744073709551615000, true⟩, ⟨"SEND_MESSAGE", 18446744073709551615000, true⟩]

/-- Both times are the largest that there is, and their sum overflows. -/
theorem sum_of_ages_overflows :
    (empty.processed ages).dispatchTimes = [18446744073709551615, 18446744073709551615] ∧
    sum64? (empty.processed ages).sortedTimes = none ∧
    mean? (empty.processed ages).sortedTimes = none ∧
    (empty.processed ages).snapshotJson? true = none := by
  have kept : (empty.processed ages).dispatchTimes =
      [18446744073709551615, 18446744073709551615] := by decide +kernel
  have large : UInt64.size ≤ total (empty.processed ages).dispatchTimes := by
    rw [kept]
    decide +kernel
  have sorted := (total_sortedTimes (empty.processed ages)).symm ▸ large
  exact ⟨kept, sum64?_eq_none_iff.mpr sorted, mean?_eq_none_iff.mpr sorted,
    (snapshotJson?_eq_none_iff _ true).mpr large⟩

end AgentBroker.Metrics
