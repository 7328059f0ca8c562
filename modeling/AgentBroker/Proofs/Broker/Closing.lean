import AgentBroker.Proofs.Broker.History

/-!
# Mailboxes that close amid an envelope

An envelope is first served, and then its sender may be told of a failure. A mailbox that is closed
between the two could as well have been closed before or after the envelope, so all states that come
about in this way are met between two events as well.
-/

namespace AgentBroker.Broker

variable {b b' : Broker} {now elapsed : Nanos} {agent : String} {msgId : UInt32}

/-- Carries out what an envelope asks for, up to a failure to tell its sender of. -/
def serve (b : Broker) (now elapsed : Nanos) (agent : String) (e : Envelope) :
    Option (Operation × Failure) × Broker :=
  match e.request with
  | none => (none, b.count .decodeError)
  | some request =>
    match b.run now agent e.msgId request with
    | (.ok _, b) => (none, b.count (·.envelopeProcessed request.operation.label elapsed true))
    | (.error f, b) =>
      (some (request.operation, f),
        b.count (·.envelopeProcessed request.operation.label elapsed false))

def tell (b : Broker) (agent : String) (msgId : UInt32) : Option (Operation × Failure) → Broker
  | none => b
  | some (operation, f) => b.report agent msgId operation f

theorem dispatch_eq (e : Envelope) :
    (b.dispatch now elapsed agent e).2 =
      (b.serve now elapsed agent e).2.tell agent e.msgId (b.serve now elapsed agent e).1 := by
  rw [dispatch, serve]
  cases e.request with
  | none => rfl
  | some request =>
    dsimp only
    obtain ⟨outcome, after⟩ := b.run now agent e.msgId request
    cases outcome with
    | ok u => rfl
    | error f => rfl

def close (b : Broker) (c : Channel) : Broker := b.mapMailboxes (·.close c)

def closeAll (b : Broker) (cs : List Channel) : Broker := cs.foldl close b

theorem isOpen_close {m : Mailboxes} {c d : Channel} (h : m.isOpen d = false) :
    (m.close c).isOpen d = false := by
  rw [Mailboxes.isOpen, Bool.not_eq_false'] at h ⊢
  simp only [Mailboxes.close, Std.ExtTreeSet.contains_insert, h, Bool.or_true]

theorem disconnect_close (c : Channel) :
    ((b.close c).disconnect agent).2 = (b.disconnect agent).2.close c := by
  rw [disconnect, disconnect]
  have same : (b.close c).isConnected agent = b.isConnected agent := rfl
  rw [same]
  split
  · rfl
  · rfl

theorem send_close {n : Notice} (h : b.send agent n = (false, b')) (c : Channel) :
    (b.close c).send agent n = (false, b'.close c) := by
  rw [send] at h ⊢
  have same : (b.close c).session? agent = b.session? agent := rfl
  rw [same]
  cases session : b.session? agent with
  | none =>
    simp only [session, Prod.mk.injEq, true_and] at h ⊢
    rw [h]
  | some d =>
    simp only [session] at h ⊢
    cases opened : b.mailboxes.isOpen d with
    | true => simp [Mailboxes.put?, opened] at h
    | false =>
      have still : (b.close c).mailboxes.isOpen d = false := isOpen_close opened
      simp only [Mailboxes.put?, opened, Bool.false_eq_true, if_false, Prod.mk.injEq, true_and] at h
      simp only [Mailboxes.put?, still, Bool.false_eq_true, if_false, Prod.mk.injEq, true_and]
      rw [disconnect_close, h]

theorem relay_close {n : Notice} (h : b.relay agent n = (false, b')) (c : Channel) :
    (b.close c).relay agent n = (false, b'.close c) := by
  rw [relay] at h ⊢
  cases sent : b.send agent n with
  | mk ok after =>
    cases ok with
    | true => simp [sent] at h
    | false =>
      simp only [sent, Prod.mk.injEq, true_and] at h
      rw [send_close sent c, ← h]
      rfl

theorem observe_close (sender : String) (letter : Letter) (c : Channel) :
    (b.close c).observe now sender letter = (b.observe now sender letter).map (·.close c) := by
  rw [observe, observe]
  cases letter.body with
  | text t => rfl
  | negotiation m =>
    have same : (b.close c).ledger = b.ledger := rfl
    rw [same]
    dsimp only
    cases b.ledger.observe now sender letter.destination letter.conversationId m with
    | error breach => rfl
    | ok found => rfl

theorem sendLetter_close {letter : Letter} {f : Failure}
    (h : b.sendLetter now agent letter = (.error f, b')) (c : Channel) :
    (b.close c).sendLetter now agent letter = (.error f, b'.close c) := by
  rw [sendLetter] at h ⊢
  have same : (b.close c).isConnected letter.destination = b.isConnected letter.destination := rfl
  rw [same]
  by_cases connected : b.isConnected letter.destination
  · rw [if_pos connected] at h ⊢
    rw [observe_close]
    cases judged : b.observe now agent letter with
    | error g =>
      simp only [judged] at h
      cases h
      rfl
    | ok kept =>
      simp only [judged] at h
      simp only [Except.map]
      cases relayed : kept.relay letter.destination
          (.delivery agent letter.conversationId letter.body) with
      | mk ok after =>
        cases ok with
        | true => simp [relayed] at h
        | false =>
          simp only [relayed] at h
          cases h
          rw [relay_close relayed c]
  · rw [if_neg connected] at h ⊢
    cases h
    rfl

theorem run_close {request : Request} {f : Failure}
    (h : b.run now agent msgId request = (.error f, b')) (c : Channel) :
    (b.close c).run now agent msgId request = (.error f, b'.close c) := by
  cases request with
  | registerService i =>
    rw [run, registerService] at h ⊢
    cases valid : i.validate with
    | error m =>
      simp only [valid] at h ⊢
      cases h
      rfl
    | ok u => simp [valid] at h
  | unregisterService i => cases h
  | registerDescription i =>
    rw [run, registerDescription] at h ⊢
    cases valid : i.validate with
    | error m =>
      simp only [valid] at h ⊢
      cases h
      rfl
    | ok u => simp [valid] at h
  | unregisterDescription => cases h
  | searchAgents s =>
    rw [run, searchAgents, search] at h ⊢
    cases valid : s.query.validate with
    | error m =>
      simp only [valid, answerSearch] at h ⊢
      cases h
      rfl
    | ok u => simp [valid, answerSearch] at h
  | searchServices s =>
    rw [run, searchServices, search] at h ⊢
    cases valid : s.query.validate with
    | error m =>
      simp only [valid, answerSearch] at h ⊢
      cases h
      rfl
    | ok u => simp [valid, answerSearch] at h
  | sendMessage letter => exact sendLetter_close h c

theorem serve_close {e : Envelope} {failure : Operation × Failure}
    (h : b.serve now elapsed agent e = (some failure, b')) (c : Channel) :
    (b.close c).serve now elapsed agent e = (some failure, b'.close c) := by
  rw [serve] at h ⊢
  cases asks : e.request with
  | none => simp [asks] at h
  | some request =>
    simp only [asks] at h ⊢
    cases ran : b.run now agent e.msgId request with
    | mk outcome after =>
      cases outcome with
      | ok u => simp [ran] at h
      | error f =>
        simp only [ran] at h
        cases h
        rw [run_close ran c]
        rfl

theorem serve_closeAll {e : Envelope} {failure : Operation × Failure}
    (h : b.serve now elapsed agent e = (some failure, b')) (cs : List Channel) :
    (b.closeAll cs).serve now elapsed agent e = (some failure, b'.closeAll cs) := by
  induction cs generalizing b b' with
  | nil => exact h
  | cons c cs ih => exact ih (serve_close h c)

/-- The dispatch of an envelope, in the middle of which mailboxes are closed. -/
def dispatchClosing (b : Broker) (now elapsed : Nanos) (agent : String) (e : Envelope)
    (cs : List Channel) : Broker :=
  ((b.serve now elapsed agent e).2.closeAll cs).tell agent e.msgId
    (b.serve now elapsed agent e).1

/-- Mailboxes that are closed amid an envelope could have been closed after it or before it. -/
theorem dispatchClosing_cases (e : Envelope) (cs : List Channel) :
    b.dispatchClosing now elapsed agent e cs = (b.dispatch now elapsed agent e).2.closeAll cs ∨
    b.dispatchClosing now elapsed agent e cs =
      ((b.closeAll cs).dispatch now elapsed agent e).2 := by
  rw [dispatchClosing]
  cases served : b.serve now elapsed agent e with
  | mk failure b' =>
    cases failure with
    | none =>
      left
      rw [dispatch_eq, served]
      rfl
    | some failure =>
      right
      rw [dispatch_eq, serve_closeAll served]

/-- The states that a broker may come to, when mailboxes are closed at any moment. -/
inductive Reachable (notifications : NotificationSettings) : Broker → Prop
  | start : Reachable notifications (.start notifications)
  | after {b : Broker} (h : Reachable notifications b) (e : Event) :
      Reachable notifications (b.after e)
  | amid {b : Broker} (h : Reachable notifications b) (now elapsed : Nanos) {agent : String}
      (connected : b.isConnected agent) (e : Envelope) (cs : List Channel) :
      Reachable notifications (b.dispatchClosing now elapsed agent e cs)

theorem isConnected_closeAll (cs : List Channel) :
    (b.closeAll cs).isConnected agent = b.isConnected agent := by
  induction cs generalizing b with
  | nil => rfl
  | cons c cs ih => exact ih

theorem closeAll_eq (b : Broker) (cs : List Channel) :
    b.closeAll cs = Run.last after b (cs.map .close) := by
  rw [Run.last, List.foldl_map]
  rfl

theorem apply_envelope (connected : b.isConnected agent) (e : Envelope) (awaited : Bool) :
    b.after (.command now elapsed awaited (.envelope agent e)) =
      (b.dispatch now elapsed agent e).2 := by
  rw [after, apply, if_pos connected]

theorem reachable_iff {notifications : NotificationSettings} :
    Reachable notifications b ↔ ∃ events, b = replay notifications events := by
  constructor
  · intro h
    induction h with
    | start => exact ⟨[], rfl⟩
    | after h e ih =>
      obtain ⟨events, rfl⟩ := ih
      exact ⟨events ++ [e], (Run.last_concat _ _ _).symm⟩
    | @amid b h now elapsed agent connected e cs ih =>
      obtain ⟨events, rfl⟩ := ih
      rcases dispatchClosing_cases e cs with eq | eq
      · refine ⟨events ++ .command now elapsed true (.envelope agent e) :: cs.map .close, ?_⟩
        rw [eq, ← apply_envelope connected e true, closeAll_eq, replay_append,
          Run.last_cons]
      · refine ⟨events ++ (cs.map .close ++ [.command now elapsed true (.envelope agent e)]), ?_⟩
        rw [eq, ← apply_envelope ((isConnected_closeAll cs).trans connected) e true, closeAll_eq,
          replay_append, Run.last_concat]
  · rintro ⟨events, rfl⟩
    exact Run.last_induction (P := Reachable notifications) (fun _ e h => h.after e) _ .start events

end AgentBroker.Broker
