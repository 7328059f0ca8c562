import AgentBroker.Message.Envelope
import AgentBroker.Metrics.Basic
import AgentBroker.Proofs.Map.Total

/-!
# Marks

The metrics are a tally: whatever happens leaves marks, and a counter is the number of the marks of
its kind. Apart from admissions, the order of the marks makes no difference.
-/

namespace AgentBroker

theorem Operation.label_inj {op op' : Operation} : op.label = op'.label ↔ op = op' := by
  constructor
  · cases op <;> cases op' <;> simp [Operation.label]
  · exact congrArg Operation.label

inductive Mark where
  | admitted
  | rejected
  | closed
  | processed (operation : Operation) (ok : Bool)
  | undecoded
  | routed
  | unrouted
  | breach
  | registered
  | unregistered
  | misfit
  | searched
  | expired (count : Nat)
  deriving DecidableEq

namespace Mark

def processed? : Mark → Option (Operation × Bool)
  | processed op ok => some (op, ok)
  | _ => none

def reports (p : Operation × Bool → Bool) (k : Mark) : Bool := k.processed?.any p

theorem countP_reports (p : Operation × Bool → Bool) (marks : List Mark) :
    marks.countP (reports p) = (marks.filterMap processed?).countP p := by
  rw [List.countP_filterMap]
  refine List.countP_congr fun k _ => ?_
  rw [reports]
  cases k.processed? <;> rfl

def isTransit : Mark → Bool
  | routed | unrouted | breach => true
  | _ => false

def isMinor : Mark → Bool
  | closed | undecoded | searched | expired _ => true
  | _ => false

end Mark

namespace Metrics

/-- The counts alone, without the times that envelopes took. -/
def untimed (m : Metrics) : Metrics := { m with dispatchTimes := [] }

def note (m : Metrics) : Mark → Metrics
  | .admitted => m.sessionAdmitted
  | .rejected => m.sessionRejected
  | .closed => m.sessionClosed
  | .processed operation ok => (m.envelopeProcessed operation.label 0 ok).untimed
  | .undecoded => m.decodeError
  | .routed => m.messageRouted
  | .unrouted => m.routingFailed
  | .breach => m.protocolError
  | .registered => m.registration
  | .unregistered => m.unregistration
  | .misfit => m.registrationFailed
  | .searched => m.search
  | .expired count => m.conversationsExpired count

def notes (m : Metrics) (marks : List Mark) : Metrics := marks.foldl note m

theorem notes_append (m : Metrics) (marks more : List Mark) :
    m.notes (marks ++ more) = (m.notes marks).notes more :=
  List.foldl_append

def requests (m : Metrics) (op : Operation) : OperationCount := m.operations.getD op.label ⟨0, 0⟩

/-- The counter `f` counts the marks with `p`. -/
def Tallies (f : Metrics → Nat) (p : Mark → Bool) : Prop :=
  ∀ m k, f (note m k) = f m + (p k).toNat

theorem Tallies.notes {f : Metrics → Nat} {p : Mark → Bool} (h : Tallies f p) (m : Metrics)
    (marks : List Mark) : f (m.notes marks) = f m + marks.countP p := by
  induction marks generalizing m with
  | nil => rfl
  | cons k rest ih =>
    have later : f ((m.note k).notes rest) = f (m.note k) + rest.countP p := ih (m.note k)
    rw [h m k, Nat.add_assoc] at later
    rw [List.countP_cons, Nat.add_comm (rest.countP p)]
    refine later.trans ?_
    cases p k <;> rfl

theorem tallies_accepted : Tallies (·.sessions.accepted) (· == .admitted) := by
  intro m k
  cases k <;> rfl

theorem tallies_rejected : Tallies (·.sessions.rejected) (· == .rejected) := by
  intro m k
  cases k <;> rfl

theorem tallies_disconnects : Tallies (·.sessions.disconnects) (· == .closed) := by
  intro m k
  cases k <;> rfl

theorem tallies_envelopes : Tallies (·.routing.envelopes) (Mark.reports fun _ => true) := by
  intro m k
  cases k <;> rfl

theorem tallies_transits :
    Tallies (fun m => m.routing.routed + m.routing.failures + m.routing.protocolErrors)
      Mark.isTransit := by
  intro m k
  cases k <;> simp only [note, Mark.isTransit, Bool.toNat_true, Bool.toNat_false] <;>
    first | rfl | (simp only [messageRouted, routingFailed]; omega)

theorem tallies_registrations : Tallies (·.directory.registrations) (· == .registered) := by
  intro m k
  cases k <;> rfl

theorem tallies_registrationErrors : Tallies (·.directory.registrationErrors) (· == .misfit) := by
  intro m k
  cases k <;> rfl

theorem untimed_envelopeProcessed (m : Metrics) (op : Operation) (elapsed : Nanos) (ok : Bool) :
    (m.envelopeProcessed op.label elapsed ok).untimed = m.untimed.note (.processed op ok) := by
  simp only [envelopeProcessed, note, untimed]

@[simp] theorem requests_untimed (m : Metrics) (op : Operation) :
    m.untimed.requests op = m.requests op := rfl

theorem requests_envelopeProcessed (m : Metrics) (op op' : Operation) (elapsed : Nanos)
    (ok : Bool) :
    (m.envelopeProcessed op'.label elapsed ok).requests op =
      if op' = op then
        ⟨(m.requests op).count + 1, (m.requests op).failures + if ok then 0 else 1⟩
      else m.requests op := by
  rw [requests, envelopeProcessed, countOperation, Std.ExtTreeMap.getD_insert]
  by_cases same : op' = op
  · simp [same, requests]
  · simp [same, Operation.label_inj, requests]

theorem tallies_count (op : Operation) :
    Tallies (fun m => (m.requests op).count) (Mark.reports (·.1 == op)) := by
  intro m k
  cases k with
  | processed op' ok =>
    simp only [note, requests_untimed, requests_envelopeProcessed]
    by_cases same : op' = op <;> simp [same, Mark.reports, Mark.processed?]
  | _ => rfl

theorem tallies_failures (op : Operation) :
    Tallies (fun m => (m.requests op).failures) (Mark.reports fun d => d.1 == op && !d.2) := by
  intro m k
  cases k with
  | processed op' ok =>
    simp only [note, requests_untimed, requests_envelopeProcessed]
    by_cases same : op' = op <;> cases ok <;> simp [same, Mark.reports, Mark.processed?]
  | _ => rfl

theorem tallies_operations :
    Tallies (fun m => Map.total (·.count) m.operations) (Mark.reports fun _ => true) := by
  intro m k
  cases k with
  | processed op ok =>
    change Map.total _ (countOperation m.operations op.label ok) = _
    rw [countOperation, Map.total_insert]
    dsimp only
    rw [Std.ExtTreeMap.getD_eq_getD_getElem?]
    cases before : m.operations[op.label]? with
    | none =>
      rw [Map.erase_eq_self before]
      rfl
    | some c =>
      rw [Map.total_of_getElem? _ before]
      rfl
  | _ => rfl

theorem sessions_notes (m : Metrics) {marks : List Mark} (h : .admitted ∉ marks) :
    (m.notes marks).sessions.active = m.sessions.active - marks.countP (· == .closed) ∧
    (m.notes marks).sessions.maxActive = m.sessions.maxActive := by
  induction marks generalizing m with
  | nil => exact ⟨rfl, rfl⟩
  | cons k rest ih =>
    rw [List.mem_cons, not_or] at h
    obtain ⟨active, largest⟩ := ih (m.note k) h.2
    rw [List.countP_cons]
    refine ⟨active.trans ?_, largest.trans ?_⟩
    · cases k with
      | closed => exact Nat.sub_right_comm _ _ _ |>.trans (Nat.sub_sub _ _ _)
      | admitted => exact absurd rfl h.1
      | _ => rfl
    · cases k with
      | admitted => exact absurd rfl h.1
      | _ => rfl

theorem countOperation_comm (counts : Std.ExtTreeMap String OperationCount) (label label' : String)
    (ok ok' : Bool) :
    countOperation (countOperation counts label ok) label' ok' =
      countOperation (countOperation counts label' ok') label ok := by
  apply Std.ExtTreeMap.ext_getElem?
  intro other
  simp only [countOperation, Std.ExtTreeMap.getElem?_insert, Std.ExtTreeMap.getD_insert]
  by_cases same : label = label'
  · subst same
    by_cases here : label = other
    · simp [here, Nat.add_right_comm]
    · simp [here]
  · by_cases here : label = other
    · subst here
      simp [Ne.symm same]
    · simp [same, here]

theorem note_comm (m : Metrics) {k k' : Mark} (h : k ≠ .admitted) (h' : k' ≠ .admitted) :
    (m.note k).note k' = (m.note k').note k := by
  cases k with
  | admitted => exact absurd rfl h
  | processed op ok =>
    cases k' with
    | admitted => exact absurd rfl h'
    | processed op' ok' =>
      have swap := countOperation_comm m.operations op.label op'.label ok ok'
      simp only [note, envelopeProcessed, untimed, swap]
    | _ => rfl
  | expired n =>
    cases k' with
    | admitted => exact absurd rfl h'
    | expired n' => simp only [note, conversationsExpired, Nat.add_right_comm]
    | _ => rfl
  | _ =>
    cases k' with
    | admitted => exact absurd rfl h'
    | _ => rfl

theorem notes_perm (m : Metrics) {marks more : List Mark} (perm : marks.Perm more)
    (h : .admitted ∉ marks) : m.notes marks = m.notes more := by
  refine perm.foldl_eq' (fun k mem k' mem' m => ?_) m
  exact note_comm m (fun same => h (same ▸ mem)) (fun same => h (same ▸ mem'))

end Metrics

end AgentBroker
