import Std.Data.ExtTreeMap

/-!
# Ordered maps

The values of a map are those behind its pairs, the keys of any part of it increase, and a map is
made again from its pairs.
-/

namespace AgentBroker.Map

variable {α : Type}

theorem values_eq_map_toList (t : Std.ExtTreeMap String α) : t.values = t.toList.map (·.2) := by
  obtain ⟨⟨t⟩⟩ := t
  induction t using Quotient.ind with
  | _ t =>
    change Std.DTreeMap.Internal.Impl.values t.inner =
      (Std.DTreeMap.Internal.Impl.Const.toList t.inner).map (·.2)
    rw [Std.DTreeMap.Internal.Impl.values_eq_map_snd,
      Std.DTreeMap.Internal.Impl.Const.toList_eq_toListModel_map]
    simp

theorem mem_values {t : Std.ExtTreeMap String α} {a : α} :
    a ∈ t.values ↔ ∃ k : String, t[k]? = some a := by
  rw [values_eq_map_toList]
  simp

theorem compare_eq_lt {a b : String} : compare a b = .lt ↔ a < b :=
  compareOfLessAndEq_eq_lt

theorem pairwise_keys_filter (t : Std.ExtTreeMap String α) (p : String × α → Bool) :
    ((t.toList.filter p).map (·.1)).Pairwise (· < ·) := by
  rw [List.pairwise_map]
  apply List.Pairwise.filter
  exact t.ordered_keys_toList.imp compare_eq_lt.mp

theorem erase_eq_self {t : Std.ExtTreeMap String α} {k : String} (absent : t[k]? = none) :
    t.erase k = t := by
  apply Std.ExtTreeMap.ext_getElem?
  intro other
  rw [Std.ExtTreeMap.getElem?_erase]
  split
  next same =>
    cases Std.LawfulEqCmp.eq_of_compare same
    exact absent.symm
  · rfl

theorem erase_insert (t : Std.ExtTreeMap String α) (k : String) (a : α) :
    (t.insert k a).erase k = t.erase k := by
  apply Std.ExtTreeMap.ext_getElem?
  intro other
  rw [Std.ExtTreeMap.getElem?_erase, Std.ExtTreeMap.getElem?_erase,
    Std.ExtTreeMap.getElem?_insert]
  split <;> rfl

theorem size_erase_add (t : Std.ExtTreeMap String α) (k : String) :
    (t.erase k).size + (if t.contains k then 1 else 0) = t.size := by
  rw [Std.ExtTreeMap.size_erase]
  split
  next present =>
    have nonempty : t.size ≠ 0 := fun zero => by
      rw [Std.ExtTreeMap.eq_empty_iff_size_eq_zero.mpr zero] at present
      simp at present
    omega
  next => rfl

theorem erase_comm (t : Std.ExtTreeMap String α) (k l : String) :
    (t.erase k).erase l = (t.erase l).erase k := by
  apply Std.ExtTreeMap.ext_getElem?
  intro other
  rw [Std.ExtTreeMap.getElem?_erase, Std.ExtTreeMap.getElem?_erase,
    Std.ExtTreeMap.getElem?_erase, Std.ExtTreeMap.getElem?_erase]
  split
  · split <;> rfl
  · rfl

theorem ofList_toList (t : Std.ExtTreeMap String α) : Std.ExtTreeMap.ofList t.toList = t := by
  apply Std.ExtTreeMap.ext_getElem?
  intro k
  match found : t[k]? with
  | some a =>
    exact Std.ExtTreeMap.getElem?_ofList_of_mem Std.ReflCmp.compare_self t.distinct_keys_toList
      (Std.ExtTreeMap.mem_toList_iff_getElem?_eq_some.mpr found)
  | none =>
    apply Std.ExtTreeMap.getElem?_ofList_of_contains_eq_false
    rw [Std.ExtTreeMap.map_fst_toList_eq_keys]
    simpa using found

theorem mem_of_getElem?_foldl {k : String} {a : α} (pairs : List (String × α))
    (t : Std.ExtTreeMap String α) (h : (pairs.foldl (fun t p => t.insert p.1 p.2) t)[k]? = some a) :
    t[k]? = some a ∨ (k, a) ∈ pairs := by
  induction pairs generalizing t with
  | nil => exact .inl h
  | cons p pairs ih =>
    rcases ih _ h with before | behind
    · rw [Std.ExtTreeMap.getElem?_insert] at before
      split at before
      next same =>
        cases before
        cases Std.LawfulEqCmp.eq_of_compare same
        exact .inr List.mem_cons_self
      next => exact .inl before
    · exact .inr (List.mem_cons_of_mem p behind)

theorem mem_of_getElem?_ofList {pairs : List (String × α)} {k : String} {a : α}
    (h : (Std.ExtTreeMap.ofList pairs)[k]? = some a) : (k, a) ∈ pairs := by
  rw [Std.ExtTreeMap.ofList_eq_foldl] at h
  rcases mem_of_getElem?_foldl pairs ∅ h with before | mem
  · simp at before
  · exact mem

end AgentBroker.Map
