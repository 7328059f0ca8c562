import AgentBroker.Proofs.Frame.Arrival

/-!
# Steps of a party

A party at its end of a stream reads no byte that is not of the frame it waits for, and writes the
bytes of its message in their order. What it waits for happens once, when the frame or the message
is complete or the stream fails.
-/

namespace AgentBroker

def Need.isMet : Need → Happening → Prop
  | .frame _, .received _ | .write _, .written _ | .turn, .turn => True
  | _, _ => False

namespace Seat

open AgentBroker.Frame

variable {σ : Type} [Party σ] {s s' : Seat σ} {now : Nanos} {source source' sink sink' : Pipe}

/-- All that a step of a party can do to its seat and to the pipes. -/
inductive Step (s : Seat σ) (now : Nanos) (source sink : Pipe) : Seat σ → Pipe → Pipe → Prop
  | receives {max : Nat} {body rest : Bytes} (reads : Party.need s.state = .frame max)
      (whole : next max s.seen = .frame body rest) :
      Step s now source sink (s.happen now (.received (.ok body))) source sink
  | refuses {max size : Nat} (reads : Party.need s.state = .frame max)
      (above : next max s.seen = .tooLarge size) :
      Step s now source sink (s.happen now (.received (.error (.tooLarge size max)))) source sink
  | takes {max : Nat} {piece left : Bytes} (reads : Party.need s.state = .frame max)
      (incomplete : next max s.seen = .incomplete) (few : piece.length ≤ lacking s.seen)
      (split : source.bytes = piece ++ left) (some : piece ≠ []) :
      Step s now source sink { s with seen := s.seen ++ piece } { source with bytes := left } sink
  | finishes {max : Nat} (reads : Party.need s.state = .frame max)
      (closed : source.isOpen = false) (incomplete : next max s.seen = .incomplete)
      (empty : source.bytes = []) :
      Step s now source sink (s.happen now (.received (.error (endError s.seen)))) source sink
  | fails {e : WireError} (writes : Party.need s.state = .write (.error e)) :
      Step s now source sink (s.happen now (.written (.error e))) source sink
  | completes {bytes : Bytes} (writes : Party.need s.state = .write (.ok bytes))
      (out : bytes.drop s.gone = []) :
      Step s now source sink (s.happen now (.written (.ok ()))) source sink
  | breaks {bytes : Bytes} (writes : Party.need s.state = .write (.ok bytes))
      (waits : bytes.drop s.gone ≠ []) (closed : sink.isOpen = false) :
      Step s now source sink (s.happen now (.written (.error .broken))) source sink
  | puts {bytes : Bytes} (writes : Party.need s.state = .write (.ok bytes))
      (waits : bytes.drop s.gone ≠ []) (isOpen : sink.isOpen) (room : sink.room ≠ 0) :
      Step s now source sink { s with gone := s.gone + sink.room } source
        (sink.put (bytes.drop s.gone))
  | turns (turn : Party.need s.state = .turn) :
      Step s now source sink (s.happen now .turn) source sink
  | leaves (leave : Party.need s.state = .leave) (present : s.isPresent) :
      Step s now source sink { s with isPresent := false } source.close sink.close

theorem eq_nil_of_take {max : Nat} {seen : Bytes} {left : Pipe}
    (incomplete : next max seen = .incomplete)
    (taken : source.take (lacking seen) = ([], left)) : source.bytes = [] := by
  have lacks := (Reading.begun_append incomplete).1
  have nothing : source.bytes.take (lacking seen) = [] := congrArg Prod.fst taken
  exact (List.take_eq_nil_iff.mp nothing).resolve_left (by omega)

theorem step_of_step? (h : s.step? now source sink = some (s', source', sink')) :
    Step s now source sink s' source' sink' := by
  rw [step?] at h
  split at h
  next max reads =>
    split at h
    next body rest whole =>
      cases h
      exact .receives reads whole
    next size above =>
      cases h
      exact .refuses reads above
    next incomplete =>
      split at h
      next taken =>
        split at h
        · cases h
        next closed =>
          cases h
          exact .finishes reads (Bool.eq_false_iff.mpr closed) incomplete
            (eq_nil_of_take incomplete taken)
      next piece left some taken =>
        cases h
        cases taken
        have few := List.length_take_le (lacking s.seen) source.bytes
        have split := (List.take_append_drop (lacking s.seen) source.bytes).symm
        exact .takes reads incomplete few split some
  next e writes =>
    cases h
    exact .fails writes
  next bytes writes =>
    dsimp only at h
    split at h
    next out =>
      cases h
      exact .completes writes out
    next waits =>
      split at h
      next closed =>
        cases h
        exact .breaks writes waits (by simpa using closed)
      next isOpen =>
        split at h
        · cases h
        next room =>
          cases h
          exact .puts writes waits (by simpa using isOpen) room
  next turn =>
    cases h
    exact .turns turn
  next => cases h
  next leave =>
    split at h
    next present =>
      cases h
      exact .leaves leave present
    · cases h

theorem waits_of_step?_none {bytes : Bytes} (writes : Party.need s.state = .write (.ok bytes))
    (h : s.step? now source sink = none) : bytes.drop s.gone ≠ [] := by
  intro out
  rw [step?, writes] at h
  simp [out] at h

theorem need_of_step?_none (h : s.step? now source sink = none) : Party.need s.state ≠ .turn := by
  intro turn
  rw [step?, turn] at h
  cases h

theorem wake?_eq_some (h : s.wake? now = some s') :
    ∃ t, Party.alarm? s.state = some t ∧ t ≤ now ∧ s' = s.happen now .alarm := by
  rw [wake?] at h
  split at h
  next t alarm =>
    split at h
    next due =>
      cases h
      exact ⟨t, alarm, due, rfl⟩
    · cases h
  · cases h

/-- All that can keep a party from a step. -/
inductive Waits (s : Seat σ) (source sink : Pipe) : Prop
  | reads {max : Nat} (reads : Party.need s.state = .frame max)
      (incomplete : next max s.seen = .incomplete) (empty : source.bytes = [])
      (isOpen : source.isOpen)
  | writes {bytes : Bytes} (writes : Party.need s.state = .write (.ok bytes))
      (waits : bytes.drop s.gone ≠ []) (isOpen : sink.isOpen) (full : sink.room = 0)
  | rests (rest : Party.need s.state = .rest)
  | absent (leave : Party.need s.state = .leave) (absent : s.isPresent = false)

theorem Waits.congr (h : s.Waits source sink) (need : Party.need s'.state = Party.need s.state)
    (seen : s'.seen = s.seen) (gone : s'.gone = s.gone) (present : s'.isPresent = s.isPresent) :
    s'.Waits source sink := by
  cases h with
  | reads reads incomplete empty isOpen =>
    exact .reads (need.trans reads) (seen ▸ incomplete) empty isOpen
  | writes writes waits isOpen full => exact .writes (need.trans writes) (gone ▸ waits) isOpen full
  | rests rest => exact .rests (need.trans rest)
  | absent leave absent => exact .absent (need.trans leave) (present.trans absent)

theorem waits_of_stuck (h : s.step? now source sink = none) : Waits s source sink := by
  rw [step?] at h
  split at h
  next max reads =>
    split at h
    · cases h
    · cases h
    next incomplete =>
      split at h
      next taken =>
        split at h
        next isOpen => exact .reads reads incomplete (eq_nil_of_take incomplete taken) isOpen
        · cases h
      · cases h
  · cases h
  next bytes writes =>
    dsimp only at h
    split at h
    · cases h
    next waits =>
      split at h
      · cases h
      next isOpen =>
        split at h
        next full => exact .writes writes waits (by simpa using isOpen) full
        · cases h
  · cases h
  next rest => exact .rests rest
  next leave =>
    split at h
    · cases h
    next absent => exact .absent leave (Bool.eq_false_iff.mpr absent)

/-- The pipes of a party are open as long as it and the other one are there. -/
structure Placed (s : Seat σ) (other : Bool) (source sink : Pipe) : Prop where
  source : source.isOpen = (s.isPresent && other)
  sink : sink.isOpen = (s.isPresent && other)
  leave : s.isPresent = false → Party.need s.state = .leave

theorem Placed.present {other : Bool} (h : s.Placed other source sink)
    (step : Step s now source sink s' source' sink') : s.isPresent = true := by
  cases absent : s.isPresent with
  | true => rfl
  | false =>
    have leave := h.leave absent
    cases step with
    | receives needs | refuses needs | takes needs | finishes needs | fails needs | completes needs
    | breaks needs | puts needs | turns needs => cases needs.symm.trans leave
    | leaves _ present => exact absent.symm.trans present

theorem Step.placed {other : Bool} (step : Step s now source sink s' source' sink')
    (h : s.Placed other source sink) : s'.Placed other source' sink' := by
  have present := h.present step
  cases step with
  | leaves leave => exact ⟨rfl, rfl, fun _ => leave⟩
  | _ => exact ⟨h.source, h.sink, fun absent => by cases present.symm.trans absent⟩

theorem Step.capacity_eq (step : Step s now source sink s' source' sink') :
    source'.capacity = source.capacity ∧ sink'.capacity = sink.capacity := by
  cases step with
  | _ => exact ⟨rfl, rfl⟩

/-- How far a party has come, by the rank of its states. -/
def pace (rank : σ → Nat) (s : Seat σ) : Nat := rank s.state + if s.isPresent then 0 else 1

theorem Step.sink_bytes (step : Step s now source sink s' source' sink') :
    sink.bytes ++ sink'.bytes.drop sink.bytes.length = sink'.bytes := by
  have same : sink.bytes ++ sink.bytes.drop sink.bytes.length = sink.bytes := by
    rw [List.drop_length, List.append_nil]
  cases step with
  | puts => rw [Pipe.put, List.drop_left]
  | _ => exact same

/-- Every step takes bytes, puts bytes, or brings the party further. -/
theorem Step.spends {rank : σ → Nat} (step : Step s now source sink s' source' sink')
    (rises : ∀ h, (Party.need s.state).isMet h → rank s.state < rank (Party.step s.state now h)) :
    s.pace rank + source'.bytes.length + sink.bytes.length <
      s'.pace rank + source.bytes.length + sink'.bytes.length := by
  have happens {need : Need} (needs : Party.need s.state = need) {h : Happening}
      (met : need.isMet h) (a b : Nat) : s.pace rank + a + b < (s.happen now h).pace rank + a + b :=
    Nat.add_lt_add_right (Nat.add_lt_add_right (Nat.add_lt_add_right (rises h (needs ▸ met)) _) _) _
  cases step with
  | receives needs | refuses needs | finishes needs | fails needs | completes needs | breaks needs
  | turns needs =>
    apply happens needs
    exact trivial
  | takes _ _ _ split some =>
    have piece := List.length_pos_iff.mpr some
    rw [split, List.length_append]
    change s.pace rank + _ + _ < s.pace rank + _ + _
    dsimp only
    omega
  | puts _ waits _ room =>
    have left := List.length_pos_iff.mpr waits
    rw [Pipe.put, List.length_append, List.length_take]
    change s.pace rank + _ + _ < s.pace rank + _ + _
    omega
  | leaves _ present =>
    rw [pace, pace, if_pos present]
    exact Nat.add_lt_add_right (Nat.add_lt_add_right (Nat.lt_succ_self _) _) _

end Seat

end AgentBroker
