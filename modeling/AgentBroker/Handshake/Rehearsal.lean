import AgentBroker.Handshake.Applicant
import AgentBroker.Handshake.Gatekeeper
import AgentBroker.Stream.Link

/-!
# Rehearsals

One side of a handshake against an actor who follows a script. The actor writes what the script
says, answers challenges as the script says, and keeps what it saw.
-/

namespace AgentBroker

inductive Retort where
  | reversed
  | same
  | upper
  | literal (text : String)

def Retort.answer (phrase : String) : Retort → String
  | reversed => answerTo phrase
  | same => phrase
  | upper => phrase.toUpper
  | literal text => text

inductive Cue where
  /-- Writes a frame. -/
  | send (body : Bytes)
  /-- Writes bytes as they are. -/
  | write (bytes : Bytes)
  | answer (how : Retort)
  | receive
  | wait (span : Nanos)
  /-- Leaves. What stands behind it in the script is never done. -/
  | close

inductive Sight where
  | sent
  | received (body : Bytes)
  | failed (e : WireError)
  deriving DecidableEq, Repr

structure Actor where
  script : List Cue
  /-- The phrase of the last challenge. -/
  phrase : String
  /-- Until when it waits. -/
  until? : Option Nanos
  /-- What it saw, oldest first. -/
  sights : List Sight

namespace Actor

def start (script : List Cue) : Actor := ⟨script, "", none, []⟩

/-- The bytes of a frame that has no limit but that of its length. -/
def frame (body : Bytes) : Except WireError Bytes := Frame.write? (UInt32.size - 1) body

def need (a : Actor) : Need :=
  match a.script with
  | [] => .rest
  | .send body :: _ => .write (frame body)
  | .write bytes :: _ => .write (.ok bytes)
  | .answer how :: _ => .write (frame (Wire.encode (Answer.mk (how.answer a.phrase))))
  | .receive :: _ => .frame Frame.defaultMax
  | .wait _ :: _ => if a.until?.isSome then .rest else .turn
  | .close :: _ => .leave

def saw (a : Actor) (s : Sight) : Actor :=
  { a with script := a.script.tail, sights := a.sights ++ [s] }

def receive (a : Actor) (body : Bytes) : Actor :=
  match (Wire.decode? body : Option Challenge) with
  | some (.phrase phrase) => { a.saw (.received body) with phrase }
  | _ => a.saw (.received body)

instance : Party Actor where
  need := need
  alarm? := until?
  step a now
    | .received (.ok body) => a.receive body
    | .written (.ok _) => a.saw .sent
    | .received (.error e) | .written (.error e) => a.saw (.failed e)
    | .alarm => { a with script := a.script.tail, until? := none }
    | .turn =>
      match a.script with
      | .wait span :: _ => { a with until? := some (now + span) }
      | _ => a

end Actor

/-- Plays one side of a handshake against an actor, over a stream with so much room each way. Gives
what the actor saw, and the other side at the end. -/
def rehearse {σ : Type} [Party σ] (other : σ) (script : List Cue) (capacity : Nat) (steps : Nat) :
    List Sight × σ :=
  let l := (Link.start (Actor.start script) other capacity).run steps
  (l.near.state.sights, l.far.state)

namespace Cue

/-- An upper bound of the bytes that a cue writes, with those that the other side may write in
reply. -/
def weight : Cue → Nat
  | send bytes | write bytes => 8 * bytes.length + 100
  | answer (.literal text) => 8 * text.utf8ByteSize + 100
  | _ => 500

/-- Enough steps for a script, with a bound of what the other side writes on its own. Every byte
takes one step to write and one to read. -/
def steps (script : List Cue) (others : Nat) : Nat :=
  4 * (script.foldl (fun n c => n + c.weight) 0 + others + 500)

end Cue

namespace Gate

def rehearse (g : Gate) (script : List Cue) (capacity : Nat) : List Sight × Gate :=
  AgentBroker.rehearse g script capacity (Cue.steps script 500)

end Gate

namespace Applicant

def rehearse (a : Applicant) (script : List Cue) (capacity : Nat) : List Sight × Applicant :=
  AgentBroker.rehearse a script capacity (Cue.steps script (8 * a.publicKey.utf8ByteSize))

end Applicant

end AgentBroker
