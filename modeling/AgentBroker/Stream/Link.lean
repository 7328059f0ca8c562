import AgentBroker.Stream.Party

/-!
# Two parties on one stream

Each party goes on until it has to wait, and then the other one does. Time stands still while either
of them can go on; when both wait it moves to the next alarm.
-/

namespace AgentBroker

structure Link (σ τ : Type) where
  near : Seat σ
  far : Seat τ
  /-- The way from the far end to the near one. -/
  inward : Pipe
  /-- The way from the near end to the far one. -/
  outward : Pipe
  /-- The near party is at work. -/
  nearWorks : Bool
  now : Nanos

namespace Link

variable {σ τ : Type} [Party σ] [Party τ]

def start (near : σ) (far : τ) (capacity : Nat) : Link σ τ :=
  ⟨.take near, .take far, .empty capacity, .empty capacity, true, 0⟩

def stepNear? (l : Link σ τ) : Option (Link σ τ) :=
  match l.near.step? l.now l.inward l.outward with
  | some (near, inward, outward) => some { l with near, inward, outward, nearWorks := true }
  | none => (l.near.wake? l.now).map fun near => { l with near, nearWorks := true }

def stepFar? (l : Link σ τ) : Option (Link σ τ) :=
  match l.far.step? l.now l.outward l.inward with
  | some (far, outward, inward) => some { l with far, outward, inward, nearWorks := false }
  | none => (l.far.wake? l.now).map fun far => { l with far, nearWorks := false }

def earlier? : Option Nanos → Option Nanos → Option Nanos
  | some a, some b => some (min a b)
  | a, b => a <|> b

def wait? (l : Link σ τ) : Option (Link σ τ) :=
  (earlier? (Party.alarm? l.near.state) (Party.alarm? l.far.state)).map fun now => { l with now }

/-- The next step; none when nothing can happen any more. -/
def step? (l : Link σ τ) : Option (Link σ τ) :=
  if l.nearWorks then l.stepNear? <|> l.stepFar? <|> l.wait?
  else l.stepFar? <|> l.stepNear? <|> l.wait?

def run : Nat → Link σ τ → Link σ τ
  | 0, l => l
  | n + 1, l =>
    match l.step? with
    | some l => run n l
    | none => l

end Link

end AgentBroker
