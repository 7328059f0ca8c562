import AgentBroker.Handshake.Error
import AgentBroker.Stream.Party
import AgentBroker.Wire.Handshake

/-!
# The agent's side of a handshake

The applicant introduces itself, answers the challenge and awaits the verdict, all within one
deadline.
-/

namespace AgentBroker

inductive ApplicantStage where
  | introduction
  | challenge
  | answer (phrase : String)
  | verdict
  | ended (result : Except HandshakeError Unit)

structure Applicant where
  publicKey : String
  maxFrame : Nat
  /-- How long the exchange may take. -/
  patience : Nanos
  stage : ApplicantStage

namespace Applicant

def start (publicKey : String) (maxFrame : Nat) (patience : Nanos) : Applicant :=
  ⟨publicKey, maxFrame, patience, .introduction⟩

def result? (a : Applicant) : Option (Except HandshakeError Unit) :=
  match a.stage with
  | .ended r => some r
  | _ => none

def become (a : Applicant) (stage : ApplicantStage) : Applicant := { a with stage }

def fail (a : Applicant) (e : HandshakeError) : Applicant := a.become (.ended (.error e))

def message {α : Type} [Wire α] (a : Applicant) (m : α) : Need :=
  .write (Frame.write? a.maxFrame (Wire.encode m))

def need (a : Applicant) : Need :=
  match a.stage with
  | .introduction => a.message (Introduction.mk a.publicKey)
  | .answer phrase => a.message (Answer.mk (answerTo phrase))
  | .challenge | .verdict => .frame a.maxFrame
  | .ended _ => .leave

def alarm? (a : Applicant) : Option Nanos :=
  match a.stage with
  | .ended _ => none
  | _ => some a.patience

def receive (a : Applicant) (frame : Bytes) : Applicant :=
  match a.stage with
  | .challenge =>
    match (Wire.decode? frame : Option Challenge) with
    | none => a.fail (.transport .malformed)
    | some .failure => a.fail .refused
    | some (.phrase phrase) => a.become (.answer phrase)
  | .verdict =>
    match (Wire.decode? frame : Option Verdict) with
    | none => a.fail (.transport .malformed)
    | some v => if v.status then a.become (.ended (.ok ())) else a.fail .refused
  | _ => a

def wrote (a : Applicant) : Applicant :=
  match a.stage with
  | .introduction => a.become .challenge
  | .answer _ => a.become .verdict
  | _ => a

instance : Party Applicant where
  need := need
  alarm? := alarm?
  step a _
    | .received (.ok frame) => a.receive frame
    | .written (.ok _) => a.wrote
    | .received (.error e) | .written (.error e) => a.fail (.transport e)
    | .alarm => a.fail (.timeout a.patience)
    | .turn => a

end Applicant

end AgentBroker
