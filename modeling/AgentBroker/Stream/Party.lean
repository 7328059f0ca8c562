import AgentBroker.Stream.Pipe
import AgentBroker.Time

/-!
# Parties to a stream

A party reads frames from a stream and writes to it, one thing at a time. It is a machine: what it
needs next is read off its state, and what happens to it moves it on. A `Seat` is a party at its end
of a stream, where frames come and go in pieces.
-/

namespace AgentBroker

/-- What a party waits for. -/
inductive Need where
  /-- The next frame, up to a limit. -/
  | frame (max : Nat)
  /-- That the bytes are written, if they could be made up at all. -/
  | write (bytes : Except WireError Bytes)
  /-- Nothing that the stream could give: it goes on at its turn. -/
  | turn
  /-- Only that time passes. -/
  | rest
  /-- To leave the stream. -/
  | leave

inductive Happening where
  | received (frame : Except WireError Bytes)
  | written (outcome : Except WireError Unit)
  | turn
  | alarm

class Party (σ : Type) where
  need : σ → Need
  /-- When it wants to be woken, whatever else it waits for. -/
  alarm? : σ → Option Nanos
  step : σ → Nanos → Happening → σ

structure Seat (σ : Type) where
  state : σ
  /-- The bytes that have come of the frame that is being read. -/
  seen : Bytes
  /-- How many bytes have gone of the message that is being written. -/
  gone : Nat
  /-- The party has not left yet. -/
  isPresent : Bool

namespace Seat

variable {σ : Type} [Party σ]

def take (state : σ) : Seat σ := ⟨state, [], 0, true⟩

def happen (s : Seat σ) (now : Nanos) (h : Happening) : Seat σ :=
  { s with state := Party.step s.state now h, seen := [], gone := 0 }

/-- One step of a party between the pipe it reads from and the pipe it writes to; none if it has to
wait. -/
def step? (s : Seat σ) (now : Nanos) (source sink : Pipe) : Option (Seat σ × Pipe × Pipe) :=
  match Party.need s.state with
  | .frame max =>
    match Frame.next max s.seen with
    | .frame body _ => some (s.happen now (.received (.ok body)), source, sink)
    | .tooLarge size => some (s.happen now (.received (.error (.tooLarge size max))), source, sink)
    | .incomplete =>
      match source.take (Frame.lacking s.seen) with
      | ([], _) =>
        if source.isOpen then none
        else some (s.happen now (.received (.error (Frame.endError s.seen))), source, sink)
      | (bytes, source) => some ({ s with seen := s.seen ++ bytes }, source, sink)
  | .write (.error e) => some (s.happen now (.written (.error e)), source, sink)
  | .write (.ok bytes) =>
    let left := bytes.drop s.gone
    if left = [] then some (s.happen now (.written (.ok ())), source, sink)
    else if !sink.isOpen then some (s.happen now (.written (.error .broken)), source, sink)
    else if sink.room = 0 then none
    else some ({ s with gone := s.gone + sink.room }, source, sink.put left)
  | .turn => some (s.happen now .turn, source, sink)
  | .rest => none
  | .leave =>
    if s.isPresent then some ({ s with isPresent := false }, source.close, sink.close) else none

def wake? (s : Seat σ) (now : Nanos) : Option (Seat σ) :=
  match Party.alarm? s.state with
  | some t => if t ≤ now then some (s.happen now .alarm) else none
  | none => none

end Seat

end AgentBroker
