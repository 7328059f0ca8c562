import AgentBroker.Proofs.Wire.Message

/-!
# Messages on the wire

Every message is read back from the bytes it is written as, provided its doubles are finite and are
read back themselves. What is read from any bytes holds finite doubles only, so it may be written
and read again.
-/

namespace AgentBroker

open Json Wire

variable {α : Type} [Wire α]

namespace Wire

/-- Between a value and its bytes stands only its wire form. -/
theorem decode?_encode {a : α} (h : (toJson a).Printable) :
    (decode? (encode a) : Option α) = ofJson? (toJson a) := by
  rw [decode?, encode, parse?_encode h, Option.bind_some]

theorem readsBack_iff {x : Float} :
    ReadsBack x ↔ x.isFinite ∧ decode? (encode x) = some x := by
  constructor
  · intro h
    have single : Each ReadsBack x := fun y mem => List.mem_singleton.mp mem ▸ h
    rw [decode?_encode (LawfulWire.printable x fun y mem => (single y mem).finite)]
    exact ⟨h.finite, LawfulWire.ofJson?_toJson x single⟩
  · rintro ⟨finite, h⟩
    have single : Each (·.isFinite) x := fun y mem => List.mem_singleton.mp mem ▸ finite
    have literal : (Json.ofFloat x).float? = some x := by
      rwa [decode?_encode (LawfulWire.printable x single)] at h
    rw [Json.ofFloat, if_pos finite] at literal
    exact ⟨finite, literal⟩

end Wire

/-- The wire form of a type keeps its values. -/
structure KeepsValues (α : Type) [Wire α] [Doubles α] : Prop where
  /-- A value whose doubles are finite and read back is read back. -/
  decode?_encode (a : α) : (∀ x ∈ doubles a, x.isFinite) →
    (∀ x ∈ doubles a, x.isFinite → decode? (encode x) = some x) → decode? (encode a) = some a
  /-- Only finite doubles are read. -/
  finite (bytes : List UInt8) (a : α) : decode? bytes = some a → ∀ x ∈ doubles a, x.isFinite
  /-- What has been read is the same when it is written and read again. -/
  decode?_encode_of_decode? (bytes : List UInt8) (a : α) : decode? bytes = some a →
    (∀ x ∈ doubles a, x.isFinite → decode? (encode x) = some x) → decode? (encode a) = some a

theorem LawfulWire.keepsValues [Doubles α] [LawfulWire α] : KeepsValues α := by
  have kept (a : α) (finite : ∀ x ∈ doubles a, x.isFinite)
      (back : ∀ x ∈ doubles a, x.isFinite → decode? (encode x) = some x) :
      decode? (encode a) = some a := by
    rw [Wire.decode?_encode (LawfulWire.printable a finite)]
    exact LawfulWire.ofJson?_toJson a fun x mem =>
      readsBack_iff.mpr ⟨finite x mem, back x mem (finite x mem)⟩
  have read (bytes : List UInt8) (a : α) (h : decode? bytes = some a) :
      ∀ x ∈ doubles a, x.isFinite := by
    obtain ⟨j, -, typed⟩ := Option.bind_eq_some_iff.mp h
    exact LawfulWire.yields_ofJson? j a typed
  exact ⟨kept, read, fun bytes a h => kept a (read bytes a h)⟩

theorem readsBack_oneAndAHalf : ReadsBack 1.5 := by
  have literal : Number.ofFloat 1.5 = ⟨false, ['1'], ['5'], none⟩ := by decide +kernel
  have scaled : Number.scale (Float.ofNat 15) (-1) = some 1.5 := by
    rw [Number.scale, if_neg (by decide), if_pos (by decide)]
    exact congrArg some (Float.toBits_inj.mp (by decide +kernel))
  refine ⟨by decide +kernel, ?_⟩
  rw [literal]
  exact congrArg (Option.map _) scaled

/-- All messages between agent and broker are kept on the wire. -/
theorem messages_keepValues :
    KeepsValues Envelope ∧ KeepsValues Notice ∧ KeepsValues Introduction ∧
      KeepsValues Challenge ∧ KeepsValues Answer ∧ KeepsValues Verdict :=
  ⟨LawfulWire.keepsValues, LawfulWire.keepsValues, LawfulWire.keepsValues,
    LawfulWire.keepsValues, LawfulWire.keepsValues, LawfulWire.keepsValues⟩

/-- A search for what costs at most one and a half. -/
theorem messages_keepValues_search :
    let query : Query := ⟨[⟨⟨"price", .float, true⟩, .relation ⟨.ltEq, .float 1.5⟩⟩], none⟩
    let envelope : Envelope := ⟨7, some (.searchServices ⟨1, query⟩)⟩
    (∀ x ∈ doubles envelope, x.isFinite) ∧ (decode? (encode 1.5) : Option Float) = some 1.5 ∧
      decode? (encode envelope) = some envelope := by
  intro query envelope
  obtain ⟨finite, read⟩ := readsBack_iff.mp readsBack_oneAndAHalf
  have only (x : Float) (mem : x ∈ doubles envelope) : x = 1.5 := List.mem_singleton.mp mem
  have all : ∀ x ∈ doubles envelope, x.isFinite := fun x mem => only x mem ▸ finite
  exact ⟨all, read, messages_keepValues.1.decode?_encode envelope all fun x mem _ =>
    only x mem ▸ read⟩

end AgentBroker
