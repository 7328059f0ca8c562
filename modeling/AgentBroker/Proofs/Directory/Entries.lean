import AgentBroker.Directory
import AgentBroker.Proofs.Map

/-!
# The entries of a directory

For every operation: which service it leaves under an agent and a model name, and which description
under an agent. A search finds the agents with a fitting entry, in the order of their ids.
-/

namespace AgentBroker.Directory

variable {d : Directory} {agent other model : String} {i : Instance}

@[simp] theorem service?_empty : Directory.empty.service? agent model = none := by
  simp [service?, offers, Directory.empty]

@[simp] theorem description?_empty : Directory.empty.description? agent = none := by
  simp [description?, Directory.empty]

theorem offers_eq (d : Directory) (agent : String) : d.offers agent = d.services[agent]?.getD ∅ :=
  Std.ExtTreeMap.getD_eq_getD_getElem?

theorem services_setOffers_of_ne (offers : Std.ExtTreeMap String Instance) (h : other ≠ agent) :
    (d.setOffers agent offers).services[other]? = d.services[other]? := by
  unfold setOffers
  split
  · simp [Std.ExtTreeMap.getElem?_erase, Ne.symm h]
  · simp [Std.ExtTreeMap.getElem?_insert, Ne.symm h]

theorem offers_setOffers_self (offers : Std.ExtTreeMap String Instance) :
    (d.setOffers agent offers).offers agent = offers := by
  rw [offers_eq]
  unfold setOffers
  split
  next h => simp [Std.ExtTreeMap.isEmpty_iff.mp h]
  next h => simp

theorem service?_setOffers_self (offers : Std.ExtTreeMap String Instance) :
    (d.setOffers agent offers).service? agent model = offers[model]? := by
  rw [service?, offers_setOffers_self]

theorem service?_setOffers_of_ne (offers : Std.ExtTreeMap String Instance) (h : other ≠ agent) :
    (d.setOffers agent offers).service? other model = d.service? other model := by
  rw [service?, service?, offers_eq, offers_eq, services_setOffers_of_ne offers h]

theorem service?_register :
    (d.register agent i).service? other model =
      if other = agent ∧ model = i.model.name then some i else d.service? other model := by
  unfold register
  by_cases h : other = agent
  · subst h
    rw [service?_setOffers_self, Std.ExtTreeMap.getElem?_insert]
    by_cases hm : model = i.model.name
    · simp [hm]
    · simp [hm, Ne.symm hm, service?]
  · rw [service?_setOffers_of_ne _ h, if_neg (fun both => h both.1)]

theorem service?_unregister :
    (d.unregister agent i).2.service? other model =
      if other = agent ∧ model = i.model.name then none else d.service? other model := by
  unfold unregister
  by_cases h : other = agent
  · subst h
    rw [service?_setOffers_self, Std.ExtTreeMap.getElem?_erase]
    by_cases hm : model = i.model.name
    · simp [hm]
    · simp [hm, Ne.symm hm, service?]
  · rw [service?_setOffers_of_ne _ h, if_neg (fun both => h both.1)]

theorem service?_removeAgent :
    (d.removeAgent agent).service? other model =
      if other = agent then none else d.service? other model := by
  unfold removeAgent service?
  rw [offers_eq, offers_eq, Std.ExtTreeMap.getElem?_erase]
  by_cases h : other = agent
  · simp [h]
  · simp [h, Ne.symm h]

theorem description?_describe :
    (d.describe agent i).description? other =
      if other = agent then some i else d.description? other := by
  unfold describe description?
  rw [Std.ExtTreeMap.getElem?_insert]
  by_cases h : other = agent
  · simp [h]
  · simp [h, Ne.symm h]

theorem description?_undescribe :
    (d.undescribe agent).2.description? other =
      if other = agent then none else d.description? other := by
  unfold undescribe description?
  rw [Std.ExtTreeMap.getElem?_erase]
  by_cases h : other = agent
  · simp [h]
  · simp [h, Ne.symm h]

theorem description?_removeAgent :
    (d.removeAgent agent).description? other =
      if other = agent then none else d.description? other :=
  description?_undescribe

@[simp] theorem description?_register :
    (d.register agent i).description? other = d.description? other := rfl

@[simp] theorem description?_unregister :
    (d.unregister agent i).2.description? other = d.description? other := rfl

@[simp] theorem service?_describe :
    (d.describe agent i).service? other model = d.service? other model := rfl

@[simp] theorem service?_undescribe :
    (d.undescribe agent).2.service? other model = d.service? other model := rfl

theorem mem_searchServices {q : Query} :
    agent ∈ d.searchServices q ↔ ∃ model i, d.service? agent model = some i ∧ q.check i := by
  have any (offers : Std.ExtTreeMap String Instance) :
      offers.values.any q.check ↔ ∃ (model : String) (i : Instance), offers[model]? = some i ∧ q.check i := by
    simp only [List.any_eq_true, Map.mem_values]
    exact ⟨fun ⟨i, ⟨model, h⟩, check⟩ => ⟨model, i, h, check⟩,
      fun ⟨model, i, h, check⟩ => ⟨i, ⟨model, h⟩, check⟩⟩
  simp only [searchServices, List.mem_map, List.mem_filter, Prod.exists, exists_and_right,
    exists_eq_right, Std.ExtTreeMap.mem_toList_iff_getElem?_eq_some, any, service?, offers_eq]
  cases h : d.services[agent]? with
  | none => simp
  | some offers => simp

theorem mem_searchAgents {q : Query} :
    agent ∈ d.searchAgents q ↔ ∃ i, d.description? agent = some i ∧ q.check i := by
  simp [searchAgents, description?]

theorem pairwise_searchServices (q : Query) : (d.searchServices q).Pairwise (· < ·) :=
  Map.pairwise_keys_filter d.services _

theorem pairwise_searchAgents (q : Query) : (d.searchAgents q).Pairwise (· < ·) :=
  Map.pairwise_keys_filter d.descriptions _

end AgentBroker.Directory
