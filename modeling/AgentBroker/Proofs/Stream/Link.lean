import AgentBroker.Proofs.Stream.Party
import AgentBroker.Stream.Link

/-!
# Two parties that wait for each other

When neither of two parties at one stream can go on, both have left, or both wait for a frame where
nothing is under way, or both wait for room where nobody reads.
-/

namespace AgentBroker.Link

open AgentBroker.Frame

variable {σ τ : Type} [Party σ] [Party τ] {l : Link σ τ}

/-- The stream is open while both are there, and something goes in each way. -/
structure Joined (l : Link σ τ) : Prop where
  near : l.near.Placed l.far.isPresent l.inward l.outward
  far : l.far.Placed l.near.isPresent l.outward l.inward
  inward : 0 < l.inward.capacity
  outward : 0 < l.outward.capacity

theorem joined_start (near : σ) (far : τ) {capacity : Nat} (room : 0 < capacity) :
    (start near far capacity).Joined :=
  ⟨⟨rfl, rfl, fun gone => by cases gone⟩, ⟨rfl, rfl, fun gone => by cases gone⟩, room, room⟩

theorem Joined.stepNear {near : Seat σ} {inward outward : Pipe} (h : l.Joined)
    (step : Seat.Step l.near l.now l.inward l.outward near inward outward) :
    { l with near, inward, outward, nearWorks := true }.Joined := by
  have placed := step.placed h.near
  obtain ⟨inwards, outwards⟩ := step.capacity_eq
  refine ⟨placed, ⟨?_, ?_, h.far.leave⟩, ?_, ?_⟩
  · exact placed.sink.trans (Bool.and_comm _ _)
  · exact placed.source.trans (Bool.and_comm _ _)
  · exact inwards ▸ h.inward
  · exact outwards ▸ h.outward

theorem Joined.stepFar {far : Seat τ} {inward outward : Pipe} (h : l.Joined)
    (step : Seat.Step l.far l.now l.outward l.inward far outward inward) :
    { l with far, inward, outward, nearWorks := false }.Joined := by
  have placed := step.placed h.far
  obtain ⟨outwards, inwards⟩ := step.capacity_eq
  refine ⟨⟨?_, ?_, h.near.leave⟩, placed, ?_, ?_⟩
  · exact placed.sink.trans (Bool.and_comm _ _)
  · exact placed.source.trans (Bool.and_comm _ _)
  · exact inwards ▸ h.inward
  · exact outwards ▸ h.outward

/-- All that can keep both parties from a step. -/
inductive Stuck (l : Link σ τ) : Prop
  | deserted (near : l.near.isPresent = false) (far : l.far.isPresent = false)
  | silent {max max' : Nat} (near : Party.need l.near.state = .frame max)
      (incomplete : next max l.near.seen = .incomplete) (inward : l.inward.bytes = [])
      (far : Party.need l.far.state = .frame max')
      (incomplete' : next max' l.far.seen = .incomplete) (outward : l.outward.bytes = [])
  | jammed {bytes bytes' : Bytes} (near : Party.need l.near.state = .write (.ok bytes))
      (waits : bytes.drop l.near.gone ≠ []) (inward : l.inward.bytes ≠ [])
      (far : Party.need l.far.state = .write (.ok bytes'))
      (waits' : bytes'.drop l.far.gone ≠ []) (outward : l.outward.bytes ≠ [])
  | idle (rests : Party.need l.near.state = .rest ∨ Party.need l.far.state = .rest)

theorem bytes_ne_nil {p : Pipe} (room : 0 < p.capacity) (full : p.room = 0) : p.bytes ≠ [] := by
  intro empty
  rw [Pipe.room, empty, List.length_nil, Nat.sub_zero] at full
  exact absurd room (by omega)

theorem Joined.stuck (h : l.Joined) (near : l.near.Waits l.inward l.outward)
    (far : l.far.Waits l.outward l.inward) : l.Stuck := by
  have closed {p : Pipe} {a b : Bool} (gone : a = false) (isOpen : p.isOpen = (a && b)) :
      p.isOpen = false := by
    rw [isOpen, gone, Bool.false_and]
  cases near with
  | reads reads incomplete empty isOpen =>
    cases far with
    | reads reads' incomplete' empty' =>
      exact .silent reads incomplete empty reads' incomplete' empty'
    | writes _ _ _ full => exact absurd empty (bytes_ne_nil h.inward full)
    | rests rest => exact .idle (.inr rest)
    | absent _ absent => exact absurd isOpen (by simp [closed absent h.far.sink])
  | writes writes waits isOpen full =>
    cases far with
    | reads _ _ empty => exact absurd empty (bytes_ne_nil h.outward full)
    | writes writes' waits' _ full' =>
      exact .jammed writes waits (bytes_ne_nil h.inward full') writes' waits'
        (bytes_ne_nil h.outward full)
    | rests rest => exact .idle (.inr rest)
    | absent _ absent => exact absurd isOpen (by simp [closed absent h.far.source])
  | rests rest => exact .idle (.inl rest)
  | absent _ absent =>
    cases far with
    | reads _ _ _ isOpen => exact absurd isOpen (by simp [closed absent h.near.sink])
    | writes _ _ isOpen => exact absurd isOpen (by simp [closed absent h.near.source])
    | rests rest => exact .idle (.inr rest)
    | absent _ absent' => exact .deserted absent absent'

end AgentBroker.Link
