import AgentBroker.Proofs.Directory.Entries
import AgentBroker.Proofs.Map.Total
import AgentBroker.Proofs.Run
import Mathlib.Data.Set.Card

/-!
# The counts of a directory

Whatever is filed and removed, no agent is left with an empty entry and every service stands under
the name of its own model. So the counts are exact: they are the numbers of the pairs of an agent
and a model, and of the agents, that readers of the directory see.
-/

namespace AgentBroker.Directory

/-- What can be done to a directory. -/
inductive Edit where
  | register (agent : String) (i : Instance)
  | unregister (agent : String) (i : Instance)
  | describe (agent : String) (i : Instance)
  | undescribe (agent : String)
  | removeAgent (agent : String)

def edit (d : Directory) : Edit → Directory
  | .register agent i => d.register agent i
  | .unregister agent i => (d.unregister agent i).2
  | .describe agent i => d.describe agent i
  | .undescribe agent => (d.undescribe agent).2
  | .removeAgent agent => d.removeAgent agent

def edited (edits : List Edit) : Directory := Run.last edit .empty edits

def lists (d : Directory) (agent model : String) : Bool :=
  (d.servicesOf agent).any (·.model.name == model)

/-- No agent has an empty entry, and every service stands under the name of its model. -/
structure Tidy (d : Directory) : Prop where
  occupied (agent : String) : d.services[agent]? ≠ some ∅
  filed {agent model : String} {i : Instance} (h : d.service? agent model = some i) :
    i.model.name = model

/-- The counts are those of what is seen, now and behind one more registration or its removal. -/
structure Accurate (d : Directory) : Prop extends Tidy d where
  searched (agent : String) (m : DataModel) :
    agent ∈ d.searchServices ⟨[], some m⟩ ↔ d.lists agent m.name
  counted : {pair : String × String | d.lists pair.1 pair.2}.encard = d.serviceCount
  described : {agent | (d.description? agent).isSome}.encard = d.descriptionCount
  registers (agent : String) (i : Instance) :
    (d.register agent i).serviceCount =
      d.serviceCount + if d.lists agent i.model.name then 0 else 1
  unregisters (agent : String) (i : Instance) :
    (d.unregister agent i).1 ↔ (d.unregister agent i).2.serviceCount + 1 = d.serviceCount
  spares (agent : String) (i : Instance) :
    (d.unregister agent i).1 = false → (d.unregister agent i).2 = d
  restores (agent : String) (i j : Instance) :
    d.lists agent i.model.name = false → j.model.name = i.model.name →
      (d.register agent i).unregister agent j = (true, d)

variable {d : Directory} {agent model : String} {i j : Instance}

theorem services_setOffers (d : Directory) (agent : String)
    (offers : Std.ExtTreeMap String Instance compare) (other : String) :
    (d.setOffers agent offers).services[other]? =
      if other = agent then if offers.isEmpty then none else some offers
      else d.services[other]? := by
  by_cases same : other = agent
  · subst same
    rw [if_pos rfl, setOffers]
    split <;> simp
  · rw [services_setOffers_of_ne offers same, if_neg same]

theorem setOffers_setOffers (d : Directory) (agent : String)
    (before offers : Std.ExtTreeMap String Instance) :
    (d.setOffers agent before).setOffers agent offers = d.setOffers agent offers := by
  have same : ((d.setOffers agent before).setOffers agent offers).services =
      (d.setOffers agent offers).services := by
    apply Std.ExtTreeMap.ext_getElem?
    intro other
    simp only [services_setOffers]
    split <;> rfl
  exact congrArg (Directory.mk · d.descriptions) same

theorem Tidy.setOffers_offers (tidy : d.Tidy) (agent : String) :
    d.setOffers agent (d.offers agent) = d := by
  have same : (d.setOffers agent (d.offers agent)).services = d.services := by
    apply Std.ExtTreeMap.ext_getElem?
    intro other
    rw [services_setOffers]
    split
    next here =>
      subst here
      rw [offers_eq]
      cases found : d.services[other]? with
      | none => rfl
      | some offers =>
        have occupied : ¬ offers.isEmpty := fun empty =>
          tidy.occupied other (Std.ExtTreeMap.isEmpty_iff.mp empty ▸ found)
        exact if_neg occupied
    next => rfl
  exact congrArg (Directory.mk · d.descriptions) same

theorem tidy_empty : Tidy .empty := by
  refine ⟨fun agent => ?_, fun h => ?_⟩
  · simp [Directory.empty]
  · simp at h

theorem Tidy.occupied_setOffers (tidy : d.Tidy) (offers : Std.ExtTreeMap String Instance)
    (other : String) : (d.setOffers agent offers).services[other]? ≠ some ∅ := by
  rw [services_setOffers]
  split
  next =>
    split
    next => exact nofun
    next nonempty =>
      rintro ⟨⟩
      exact nonempty Std.ExtTreeMap.isEmpty_empty
  next => exact tidy.occupied other

theorem tidy_register (tidy : d.Tidy) (agent : String) (i : Instance) :
    (d.register agent i).Tidy := by
  refine ⟨tidy.occupied_setOffers _, fun h => ?_⟩
  rw [service?_register] at h
  split at h
  next new =>
    cases h
    exact new.2.symm
  next => exact tidy.filed h

theorem tidy_unregister (tidy : d.Tidy) (agent : String) (i : Instance) :
    (d.unregister agent i).2.Tidy := by
  refine ⟨tidy.occupied_setOffers _, fun h => ?_⟩
  rw [service?_unregister] at h
  split at h
  next => cases h
  next => exact tidy.filed h

theorem tidy_removeAgent (tidy : d.Tidy) (agent : String) : (d.removeAgent agent).Tidy := by
  refine ⟨fun other => ?_, fun h => ?_⟩
  · rw [removeAgent, Std.ExtTreeMap.getElem?_erase]
    split
    next => exact nofun
    next => exact tidy.occupied other
  · rw [service?_removeAgent] at h
    split at h
    next => cases h
    next => exact tidy.filed h

theorem tidy_edit (tidy : d.Tidy) (e : Edit) : (d.edit e).Tidy := by
  cases e with
  | register agent i => exact tidy_register tidy agent i
  | unregister agent i => exact tidy_unregister tidy agent i
  | describe agent i => exact ⟨tidy.occupied, tidy.filed⟩
  | undescribe agent => exact ⟨tidy.occupied, tidy.filed⟩
  | removeAgent agent => exact tidy_removeAgent tidy agent

theorem tidy_edited (edits : List Edit) : (edited edits).Tidy :=
  Run.last_induction (P := Tidy) (fun _ e tidy => tidy_edit tidy e) empty tidy_empty edits

theorem mem_searchServices_iff {q : Query} :
    agent ∈ d.searchServices q ↔ ∃ i ∈ d.servicesOf agent, q.check i := by
  simp only [mem_searchServices, servicesOf, Map.mem_values, service?]
  constructor
  · rintro ⟨model, i, found, check⟩
    exact ⟨i, ⟨model, found⟩, check⟩
  · rintro ⟨i, ⟨model, found⟩, check⟩
    exact ⟨model, i, found, check⟩

theorem mem_searchServices_model (agent : String) (m : DataModel) :
    agent ∈ d.searchServices ⟨[], some m⟩ ↔ d.lists agent m.name := by
  have check (i : Instance) : (⟨[], some m⟩ : Query).check i = (i.model.name == m.name) :=
    (Bool.and_true _).trans BEq.comm
  simp only [mem_searchServices_iff, check, lists, List.any_eq_true]

theorem Tidy.lists_eq (tidy : d.Tidy) (agent model : String) :
    d.lists agent model = (d.service? agent model).isSome := by
  rw [Bool.eq_iff_iff, lists, servicesOf, List.any_eq_true, Option.isSome_iff_exists]
  constructor
  · rintro ⟨i, mem, name⟩
    obtain ⟨stored, found⟩ := Map.mem_values.mp mem
    rw [← beq_iff_eq.mp name, tidy.filed found]
    exact ⟨i, found⟩
  · rintro ⟨i, found⟩
    exact ⟨i, Map.mem_values.mpr ⟨model, found⟩, beq_iff_eq.mpr (tidy.filed found)⟩

def listings (d : Directory) : List (String × String) :=
  d.services.toList.flatMap fun (agent, offers) => offers.keys.map (agent, ·)

theorem mem_listings : (agent, model) ∈ d.listings ↔ (d.service? agent model).isSome := by
  simp only [listings, List.mem_flatMap, Prod.exists, List.mem_map, Prod.mk.injEq,
    Std.ExtTreeMap.mem_toList_iff_getElem?_eq_some, service?, offers_eq]
  constructor
  · rintro ⟨_, offers, found, _, mem, rfl, rfl⟩
    rw [found]
    simpa using mem
  · intro filed
    cases found : d.services[agent]? with
    | none => simp [found] at filed
    | some offers =>
      rw [found] at filed
      exact ⟨agent, offers, found, model, by simpa using filed, rfl, rfl⟩

theorem nodup_listings (d : Directory) : d.listings.Nodup := by
  rw [listings, List.nodup_flatMap]
  refine ⟨fun entry _ => ?_, ?_⟩
  · exact entry.2.nodup_keys.map (Prod.mk_right_injective _)
  · refine d.services.distinct_keys_toList.imp fun {entry entry'} apart pair mem mem' => ?_
    obtain ⟨_, -, rfl⟩ := List.mem_map.mp mem
    obtain ⟨_, -, same⟩ := List.mem_map.mp mem'
    rw [(Prod.mk.inj same).1] at apart
    exact apart Std.ReflCmp.compare_self

theorem length_listings (d : Directory) : d.listings.length = d.serviceCount := by
  rw [listings, List.length_flatMap, serviceCount, Map.values_eq_map_toList, List.foldl_map,
    List.sum_eq_foldl, List.foldl_map]
  simp

theorem Tidy.encard_lists (tidy : d.Tidy) :
    {pair : String × String | d.lists pair.1 pair.2}.encard = d.serviceCount := by
  have same : {pair : String × String | d.lists pair.1 pair.2} = d.listings.toFinset := by
    ext ⟨agent, model⟩
    simp [tidy.lists_eq, mem_listings]
  rw [same, Set.encard_coe_eq_coe_finsetCard, List.toFinset_card_of_nodup d.nodup_listings,
    length_listings]

theorem encard_descriptions (d : Directory) :
    {agent | (d.description? agent).isSome}.encard = d.descriptionCount := by
  have same : {agent | (d.description? agent).isSome} = d.descriptions.keys.toFinset := by
    ext agent
    simp [description?]
  rw [same, Set.encard_coe_eq_coe_finsetCard,
    List.toFinset_card_of_nodup d.descriptions.nodup_keys, Std.ExtTreeMap.length_keys,
    descriptionCount]

theorem serviceCount_eq (d : Directory) (agent : String) :
    d.serviceCount = Map.total (·.size) (d.services.erase agent) + (d.offers agent).size := by
  change Map.total (·.size) d.services = _
  rw [offers_eq]
  cases found : d.services[agent]? with
  | none => rw [Map.erase_eq_self found, Option.getD_none, Std.ExtTreeMap.size_empty, Nat.add_zero]
  | some offers => exact Map.total_of_getElem? _ found

theorem erase_services_setOffers (d : Directory) (agent : String)
    (offers : Std.ExtTreeMap String Instance) :
    (d.setOffers agent offers).services.erase agent = d.services.erase agent := by
  apply Std.ExtTreeMap.ext_getElem?
  intro other
  rw [Std.ExtTreeMap.getElem?_erase, Std.ExtTreeMap.getElem?_erase, services_setOffers]
  split
  next => rfl
  next apart =>
    have other_ne : other ≠ agent := fun same => apart (same ▸ Std.ReflCmp.compare_self)
    rw [if_neg other_ne]

theorem serviceCount_setOffers (d : Directory) (agent : String)
    (offers : Std.ExtTreeMap String Instance) :
    (d.setOffers agent offers).serviceCount + (d.offers agent).size =
      d.serviceCount + offers.size := by
  rw [serviceCount_eq _ agent, serviceCount_eq d agent, erase_services_setOffers,
    offers_setOffers_self]
  omega

theorem serviceCount_register (d : Directory) (agent : String) (i : Instance) :
    (d.register agent i).serviceCount =
      d.serviceCount + if (d.service? agent i.model.name).isSome then 0 else 1 := by
  have count := d.serviceCount_setOffers agent ((d.offers agent).insert i.model.name i)
  rw [Std.ExtTreeMap.size_insert, Std.ExtTreeMap.contains_eq_isSome_getElem?] at count
  rw [register, service?]
  split at count
  next present =>
    rw [if_pos present]
    omega
  next absent =>
    rw [if_neg absent]
    omega

theorem serviceCount_unregister (d : Directory) (agent : String) (i : Instance) :
    (d.unregister agent i).2.serviceCount + (if (d.unregister agent i).1 then 1 else 0) =
      d.serviceCount := by
  have count := d.serviceCount_setOffers agent ((d.offers agent).erase i.model.name)
  have size := Map.size_erase_add (d.offers agent) i.model.name
  rw [unregister]
  dsimp only
  omega

theorem unregister_fst (d : Directory) (agent : String) (i : Instance) :
    (d.unregister agent i).1 = (d.service? agent i.model.name).isSome :=
  Std.ExtTreeMap.contains_eq_isSome_getElem?

theorem Tidy.unregister_of_false (tidy : d.Tidy) (missed : (d.unregister agent i).1 = false) :
    (d.unregister agent i).2 = d := by
  have absent : d.service? agent i.model.name = none := by simpa [unregister_fst] using missed
  rw [unregister, Map.erase_eq_self absent]
  exact tidy.setOffers_offers agent

theorem Tidy.unregister_register (tidy : d.Tidy) (fresh : d.service? agent i.model.name = none)
    (name : j.model.name = i.model.name) :
    (d.register agent i).unregister agent j = (true, d) := by
  refine Prod.ext ?_ ?_
  · rw [unregister_fst, service?_register, if_pos ⟨rfl, name⟩]
    rfl
  · rw [unregister, register, name, offers_setOffers_self, Map.erase_insert,
      Map.erase_eq_self fresh, setOffers_setOffers]
    exact tidy.setOffers_offers agent

theorem Tidy.accurate (tidy : d.Tidy) : d.Accurate where
  toTidy := tidy
  searched := mem_searchServices_model
  counted := tidy.encard_lists
  described := d.encard_descriptions
  registers agent i := by rw [serviceCount_register, tidy.lists_eq]
  unregisters agent i := by
    have count := d.serviceCount_unregister agent i
    split at count
    next removed => exact iff_of_true removed count
    next missed => exact iff_of_false missed fun lower => by omega
  spares _ _ missed := tidy.unregister_of_false missed
  restores agent i j unlisted name := by
    rw [tidy.lists_eq] at unlisted
    exact tidy.unregister_register (by simpa using unlisted) name

/-- Behind every sequence of edits the directory is tidy and its counts are exact. -/
theorem edited_accurate (edits : List Edit) : (edited edits).Accurate :=
  (tidy_edited edits).accurate

/-- Two agents file a book, and one of them takes it back. -/
def shelf : List Edit :=
  let book : Instance := ⟨⟨"book", [], "A book."⟩, ∅⟩
  [.register "Alice" book, .register "Bob" book, .describe "Bob" book, .unregister "Bob" book]

theorem edited_accurate_shelf :
    (edited shelf).lists "Bob" "book" = false ∧
    ((edited shelf).register "Bob" ⟨⟨"book", [], "Another book."⟩, ∅⟩).unregister "Bob"
      ⟨⟨"book", [], "A book."⟩, ∅⟩ = (true, edited shelf) := by
  have unlisted : (edited shelf).lists "Bob" "book" = false := by
    rw [(tidy_edited shelf).lists_eq]
    simp [shelf, edited, Run.last, edit, service?_unregister]
  exact ⟨unlisted, (edited_accurate shelf).restores "Bob" _ _ unlisted rfl⟩

end AgentBroker.Directory
