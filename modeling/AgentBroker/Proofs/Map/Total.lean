import AgentBroker.Proofs.Map
import Mathlib.Data.List.Nodup

/-!
# Sums over ordered maps

What all values of a map come to, and how this changes with one of its entries.
-/

namespace AgentBroker.Map

variable {α : Type}

theorem nodup_toList (t : Std.ExtTreeMap String α) : t.toList.Nodup := by
  have keys := t.nodup_keys
  rw [← Std.ExtTreeMap.map_fst_toList_eq_keys] at keys
  exact keys.of_map _

theorem perm_toList {t : Std.ExtTreeMap String α} {k : String} {a : α} (h : t[k]? = some a) :
    t.toList.Perm ((k, a) :: (t.erase k).toList) := by
  have absent : (k, a) ∉ (t.erase k).toList := by
    simp [Std.ExtTreeMap.mem_toList_iff_getElem?_eq_some]
  rw [List.perm_ext_iff_of_nodup (nodup_toList t) ((nodup_toList _).cons absent)]
  rintro ⟨k', a'⟩
  rw [List.mem_cons, Std.ExtTreeMap.mem_toList_iff_getElem?_eq_some,
    Std.ExtTreeMap.mem_toList_iff_getElem?_eq_some, Std.ExtTreeMap.getElem?_erase]
  by_cases same : k = k'
  · subst same
    simp [h, eq_comm]
  · simp [same, Ne.symm same]

def total (f : α → Nat) (t : Std.ExtTreeMap String α) : Nat :=
  t.values.foldl (fun n a => n + f a) 0

theorem total_of_getElem? (f : α → Nat) {t : Std.ExtTreeMap String α} {k : String} {a : α}
    (h : t[k]? = some a) : total f t = total f (t.erase k) + f a := by
  have shift (l : List α) (n : Nat) :
      l.foldl (fun n a => n + f a) n = l.foldl (fun n a => n + f a) 0 + n := by
    induction l generalizing n with
    | nil => exact (Nat.zero_add n).symm
    | cons b l ih =>
      rw [List.foldl_cons, ih, List.foldl_cons, ih (0 + f b)]
      omega
  have perm : t.values.Perm (a :: (t.erase k).values) := by
    rw [values_eq_map_toList, values_eq_map_toList]
    exact (perm_toList h).map (·.2)
  rw [total, total, perm.foldl_eq' fun x _ y _ z => by omega, List.foldl_cons, shift, Nat.zero_add]

theorem total_insert (f : α → Nat) (t : Std.ExtTreeMap String α) (k : String) (a : α) :
    total f (t.insert k a) = total f (t.erase k) + f a := by
  rw [total_of_getElem? f Std.ExtTreeMap.getElem?_insert_self, erase_insert]

end AgentBroker.Map
