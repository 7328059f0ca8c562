import AgentBroker.Proofs.Broker.Closing
import AgentBroker.Proofs.Broker.Consultation

/-!
# Letters that fail

The ledger takes note of a negotiation message before the letter is delivered, and delivery itself
may find that the destination is gone. Yet a letter that fails leaves the broker either as it was or
without its destination, and in the second case the conversation of the letter is over for good.
-/

namespace AgentBroker

/-- Retires the conversation of a negotiation message. -/
def Letter.seal (letter : Letter) (l : Ledger) : Ledger :=
  match letter.body with
  | .text _ => l
  | .negotiation _ => l.retire letter.conversationId

namespace Broker

variable {b b' : Broker} {now : Nanos} {sender id : String} {letter : Letter} {f : Failure}
  {notifications : NotificationSettings}

theorem wellKept_replay (notifications : NotificationSettings) (events : List Event) :
    (replay notifications events).ledger.WellKept :=
  (threaded_replay notifications "" events).wellKept

theorem retired_after (wellKept : b.ledger.WellKept) (retired : b.ledger.isRetired id) (e : Event) :
    (b.after e).ledger.WellKept ∧ (b.after e).ledger.isRetired id := by
  obtain ⟨gone, ledger, -⟩ := ledger_after b e
  rw [ledger]
  exact Ledger.retired_run wellKept retired _

theorem retired_last (wellKept : b.ledger.WellKept) (retired : b.ledger.isRetired id)
    (events : List Event) :
    (Run.last after b events).ledger.isRetired id ∧
      (Run.last after b events).ledger.get? id = none := by
  obtain ⟨wellKept, retired⟩ := Run.last_induction
    (P := fun b => b.ledger.WellKept ∧ b.ledger.isRetired id)
    (fun _ e h => retired_after h.1 h.2 e) b ⟨wellKept, retired⟩ events
  refine ⟨retired, Option.eq_none_iff_forall_ne_some.mpr fun n ongoing => ?_⟩
  rw [wellKept.apart id n ongoing] at retired
  cases retired

theorem removeAgent_ledgerAfter (wellKept : b.ledger.WellKept) (accepted : b.accepts now sender letter) :
    ((b.ledgerAfter now sender letter).removeAgent letter.destination).2 =
      letter.seal (b.ledger.removeAgent letter.destination).2 := by
  cases body : letter.body with
  | text t =>
    rw [ledgerAfter, Letter.seal, body]
  | negotiation m =>
    simp only [accepts, body] at accepted
    simp only [ledgerAfter, Letter.seal, body]
    cases judged : b.ledger.observe now sender letter.destination letter.conversationId m with
    | error breach =>
      rw [judged] at accepted
      cases accepted
    | ok found =>
      obtain ⟨n, l⟩ := found
      obtain ⟨accepts, rfl⟩ := Ledger.observe_eq_ok (p := ⟨sender, letter.destination, m⟩) judged
      have own : n.involves letter.destination :=
        Negotiation.involves_iff.mpr (accepts.parties.symm.imp And.left And.right)
      rw [← accepts.id_eq wellKept]
      exact Ledger.removeAgent_file own

theorem wellKept_seal {l : Ledger} (wellKept : l.WellKept) (letter : Letter) :
    (letter.seal l).WellKept := by
  rw [Letter.seal]
  split
  · exact wellKept
  · exact Ledger.wellKept_act wellKept (.retire letter.conversationId)

/-- Nobody comes or goes, and nothing is filed or negotiated. -/
structure Still (b b' : Broker) : Prop where
  sessions : b'.sessions = b.sessions
  directory : b'.directory = b.directory
  ledger : b'.ledger = b.ledger

/-- What a letter that fails leaves behind. -/
structure Leftover (b : Broker) (letter : Letter) (f : Failure) (b' : Broker) : Prop where
  kind : f.isProtocol ∨ f = .unreachable letter.conversationId letter.destination
  mail : b'.mailboxes = b.mailboxes
  /-- A letter that breaks a rule, or that is for nobody, changes nothing. -/
  untouched : f.isProtocol ∨ b.session? letter.destination = none → Still b b'
  /-- A letter that nobody reads costs its destination the session. -/
  lost : f.isRouting → ∀ c, b.session? letter.destination = some c →
    b.mailboxes.isOpen c = false ∧
    b'.sessions = (b.disconnect letter.destination).2.sessions ∧
    b'.directory = (b.disconnect letter.destination).2.directory ∧
    b'.ledger = letter.seal (b.disconnect letter.destination).2.ledger
  /-- The conversation of such a letter is over for good. -/
  sealed : f.isRouting → ∀ c, b.session? letter.destination = some c →
    ∀ m, letter.body = .negotiation m → ∀ events,
      (Run.last after b' events).ledger.isRetired letter.conversationId ∧
      (Run.last after b' events).ledger.get? letter.conversationId = none

theorem Sending.leftover (sending : Sending b now sender letter (.error f) b')
    (wellKept : b.ledger.WellKept) : Leftover b letter f b' := by
  cases sending with
  | absent gone =>
    have absent := session?_eq_none_iff.mpr gone
    refine ⟨.inr rfl, rfl, fun _ => ⟨rfl, rfl, rfl⟩, fun _ c session => ?_, fun _ c session => ?_⟩
    · cases absent.symm.trans session
    · cases absent.symm.trans session
  | refused =>
    refine ⟨.inl rfl, rfl, fun _ => ⟨rfl, rfl, rfl⟩, fun routing => ?_, fun routing => ?_⟩
    · cases routing
    · cases routing
  | lost connected accepted unreached =>
    have ledger := removeAgent_ledgerAfter wellKept accepted
    have dropped : (b.drop letter.destination).ledger.WellKept :=
      Ledger.wellKept_act wellKept (.removeAgent letter.destination)
    refine ⟨.inr rfl, rfl, fun untouched => ?_, fun _ c session => ?_, fun _ c session m body => ?_⟩
    · rcases untouched with protocol | absent
      · cases protocol
      · cases (session?_eq_none_iff.mp absent).symm.trans connected
    · rw [disconnect, if_pos connected]
      exact ⟨isOpen_of_reach?_eq_none session unreached, rfl, rfl, ledger⟩
    · have behind : ((b.ledgerAfter now sender letter).removeAgent letter.destination).2.WellKept ∧
          ((b.ledgerAfter now sender letter).removeAgent letter.destination).2.isRetired
            letter.conversationId := by
        rw [ledger]
        refine ⟨wellKept_seal dropped letter, ?_⟩
        rw [Letter.seal, body]
        exact (Ledger.isRetired_retire _).mpr (.inl rfl)
      exact fun events => retired_last behind.1 behind.2 events

/-- Whoever sends a letter that fails, in whatever state the broker may be: a letter that is refused
or has no destination leaves everything as it was, and one that finds its destination gone leaves
the broker as if the destination had been disconnected, except that the conversation cannot be
opened again. Nobody gets anything. -/
theorem sendLetter_leftover (h : Reachable notifications b)
    (failed : b.sendLetter now sender letter = (.error f, b')) : Leftover b letter f b' := by
  obtain ⟨events, rfl⟩ := reachable_iff.mp h
  have sending := sendLetter_spec (replay notifications events) now sender letter
  rw [failed] at sending
  exact sending.leftover (wellKept_replay notifications events)

/-- A call for proposals reaches nobody, and its conversation is over before it has begun. -/
theorem sendLetter_leftover_call :
    let b := replay default [.command 0 0 true (.connect "buyer" 0 0),
      .command 0 0 true (.connect "seller" 1 1), .close 1]
    let letter : Letter := ⟨"sale", "seller", .negotiation ⟨1, 0, .call (.text "?")⟩⟩
    let b' := (b.sendLetter 0 "buyer" letter).2
    b'.agents = ["buyer"] ∧ b'.mailboxes = b.mailboxes ∧
      ∀ events, (Run.last after b' events).ledger.get? "sale" = none := by
  intro b letter b'
  have reachable : Reachable default b := reachable_iff.mpr ⟨_, rfl⟩
  have failed : b.sendLetter 0 "buyer" letter = (.error (.unreachable "sale" "seller"), b') :=
    Prod.ext (by decide +kernel) rfl
  have left := sendLetter_leftover reachable failed
  refine ⟨by decide +kernel, left.mail, fun events => ?_⟩
  exact (left.sealed rfl 1 (by decide +kernel) _ rfl events).2

end Broker

end AgentBroker
