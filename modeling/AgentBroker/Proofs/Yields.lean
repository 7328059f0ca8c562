/-!
# Computations that yield

A property of whatever a computation gives, if it gives anything, put together from the properties
of its steps.
-/

namespace AgentBroker

/-- Whatever the computation gives has the property. -/
def Yields {α : Type} (p : α → Prop) (o : Option α) : Prop := ∀ a, o = some a → p a

namespace Yields

variable {α β : Type} {p : α → Prop} {q : β → Prop}

theorem none : Yields p none := nofun

theorem pure {a : α} (h : p a) : Yields p (pure a) := fun _ same => Option.some.inj same ▸ h

theorem ite {c : Prop} [Decidable c] {a : α} (h : p a) :
    Yields p (if c then some a else .none) := by
  split
  · exact .pure h
  · exact .none

theorem of_forall (h : ∀ a, p a) (o : Option α) : Yields p o := fun a _ => h a

theorem bind {o : Option α} {f : α → Option β} (h : Yields p o) (hf : ∀ a, p a → Yields q (f a)) :
    Yields q (o >>= f) := fun b same => by
  obtain ⟨a, first, second⟩ := Option.bind_eq_some_iff.mp same
  exact hf a (h a first) b second

theorem imp {o : Option α} (h : Yields p o) {r : α → Prop} (hr : ∀ a, p a → r a) : Yields r o :=
  fun a same => hr a (h a same)

theorem bind_any {o : Option α} {f : α → Option β} (h : ∀ a, Yields q (f a)) : Yields q (o >>= f) :=
  (of_forall (fun _ => trivial) o : Yields (fun _ => True) o).bind fun a _ => h a

theorem map {o : Option α} {f : α → β} (h : Yields p o) (hf : ∀ a, p a → q (f a)) :
    Yields q (o.map f) := fun b same => by
  obtain ⟨a, first, rfl⟩ := Option.map_eq_some_iff.mp same
  exact hf a (h a first)

theorem or {o o' : Option α} (h : Yields p o) (h' : Yields p o') : Yields p (o.or o') := by
  cases o with
  | none => exact h'
  | some a => exact h

theorem mapM {f : β → Option α} (h : ∀ b, Yields p (f b)) (bs : List β) :
    Yields (fun as => ∀ a ∈ as, p a) (bs.mapM f) := by
  induction bs with
  | nil => exact .pure nofun
  | cons b bs ih =>
    rw [List.mapM_cons]
    exact (h b).bind fun a first => ih.bind fun as others =>
      .pure (List.forall_mem_cons.mpr ⟨first, others⟩)

end Yields

end AgentBroker
