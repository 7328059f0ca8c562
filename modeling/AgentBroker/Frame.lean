/-!
# Frames

A message travels as a frame: the length of its body in four bytes, highest first, and the body. A
reader refuses frames above its limit before it has seen their bodies.
-/

namespace AgentBroker

abbrev Bytes := List UInt8

inductive WireError where
  /-- The stream ended between two frames. -/
  | closed
  | tooLarge (size max : Nat)
  /-- The stream failed, or ended inside a frame. -/
  | broken
  /-- The body of a frame is no message. The stream is still intact. -/
  | malformed
  deriving DecidableEq, Repr, Inhabited

namespace WireError

def recoverable : WireError → Bool
  | malformed => true
  | _ => false

def kind : WireError → String
  | closed => "ConnectionClosed"
  | tooLarge .. => "FrameTooLarge"
  | broken => "Io"
  | malformed => "Decode"

def isForeign : WireError → Bool
  | broken | malformed => true
  | _ => false

def message : WireError → String
  | closed => "Connection closed by peer"
  | tooLarge size max =>
    "Frame of " ++ toString size ++ " bytes exceeds maximum of " ++ toString max ++ " bytes"
  | broken => "I/O error"
  | malformed => "Malformed message"

end WireError

namespace Frame

def defaultMax : Nat := 1024 * 1024

def byteAt (n k : Nat) : UInt8 := UInt8.ofNat (n / Nat.pow 256 k % 256)

def lengthBytes (n : Nat) : Bytes := [byteAt n 3, byteAt n 2, byteAt n 1, byteAt n 0]

def lengthValue (a b c d : UInt8) : Nat :=
  ((a.toNat * 256 + b.toNat) * 256 + c.toNat) * 256 + d.toNat

/-- The bytes of a frame. Refused when the body is longer than the limit or than four bytes can
tell. -/
def write? (max : Nat) (body : Bytes) : Except WireError Bytes :=
  if body.length ≤ max ∧ body.length < UInt32.size then .ok (lengthBytes body.length ++ body)
  else .error (.tooLarge body.length max)

inductive Arrival where
  /-- Less than one frame. -/
  | incomplete
  | tooLarge (size : Nat)
  | frame (body rest : Bytes)
  deriving DecidableEq, Repr, Inhabited

def next (max : Nat) : Bytes → Arrival
  | a :: b :: c :: d :: rest =>
    let size := lengthValue a b c d
    if max < size then .tooLarge size
    else if rest.length < size then .incomplete
    else .frame (rest.take size) (rest.drop size)
  | _ => .incomplete

theorem next_rest_length {max : Nat} {bytes body rest : Bytes}
    (h : next max bytes = .frame body rest) : rest.length < bytes.length := by
  unfold next at h
  split at h
  · grind
  · grind

/-- How many bytes a frame still lacks of which these have come: first those of its length, then
those of its body. -/
def lacking : Bytes → Nat
  | a :: b :: c :: d :: rest => lengthValue a b c d - rest.length
  | bytes => 4 - bytes.length

def endError (bytes : Bytes) : WireError := if bytes.length < 4 then .closed else .broken

/-- All frames of a stream that ends behind these bytes, and the error that ends the reading. -/
def readAll (max : Nat) (bytes : Bytes) : List Bytes × WireError :=
  match _h : next max bytes with
  | .incomplete => ([], endError bytes)
  | .tooLarge size => ([], .tooLarge size max)
  | .frame body rest =>
    let (bodies, error) := readAll max rest
    (body :: bodies, error)
termination_by bytes.length
decreasing_by exact next_rest_length _h

def takeComplete (max : Nat) (bytes : Bytes) : List Bytes × Bytes :=
  match _h : next max bytes with
  | .frame body rest =>
    let (bodies, left) := takeComplete max rest
    (body :: bodies, left)
  | _ => ([], bytes)
termination_by bytes.length
decreasing_by exact next_rest_length _h

end Frame

end AgentBroker
