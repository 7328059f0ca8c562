import AgentBroker.Broker.Dispatch
import AgentBroker.Proofs.Directory.Entries
import AgentBroker.Proofs.Negotiation.Ledger

/-!
# What sending leaves behind

A notice arrives in the mailbox of a connected agent, if somebody still reads it; otherwise the
agent loses its session, and with it its directory entries and its negotiations. All that a broker
does besides the change that was asked for is of this kind.
-/

namespace AgentBroker

def Directory.SameFor (d d' : Directory) (agent : String) : Prop :=
  d'.services[agent]? = d.services[agent]? ∧ d'.descriptions[agent]? = d.descriptions[agent]?

def Directory.Lacks (d : Directory) (agent : String) : Prop :=
  d.services[agent]? = none ∧ d.descriptions[agent]? = none

theorem Directory.SameFor.service? {d d' : Directory} {agent : String} (h : d.SameFor d' agent)
    (model : String) : d'.service? agent model = d.service? agent model := by
  rw [Directory.service?, Directory.service?, offers_eq, offers_eq, h.1]

theorem Directory.Lacks.service? {d : Directory} {agent : String} (h : d.Lacks agent)
    (model : String) : d.service? agent model = none := by
  rw [Directory.service?, offers_eq, h.1]
  simp

theorem Directory.removeAgent_lacks (d : Directory) (agent : String) :
    (d.removeAgent agent).Lacks agent := by
  simp [Directory.Lacks, Directory.removeAgent]

theorem Directory.removeAgent_sameFor (d : Directory) {agent other : String} (h : other ≠ agent) :
    d.SameFor (d.removeAgent agent) other := by
  simp [Directory.SameFor, Directory.removeAgent, Std.ExtTreeMap.getElem?_erase, Ne.symm h]

namespace Broker

variable {b b' b'' : Broker} {agent other : String}

theorem isConnected_iff : b.isConnected agent ↔ ∃ c, b.session? agent = some c := by
  rw [isConnected, Std.ExtTreeMap.contains_eq_isSome_getElem?, Option.isSome_iff_exists]
  rfl

theorem session?_eq_none_iff : b.session? agent = none ↔ b.isConnected agent = false := by
  rw [isConnected, Std.ExtTreeMap.contains_eq_isSome_getElem?, Option.isSome_eq_false_iff,
    Option.isNone_iff_eq_none]
  rfl

theorem isConnected_congr (h : b'.session? agent = b.session? agent) :
    b'.isConnected agent = b.isConnected agent := by
  rw [Bool.eq_iff_iff, isConnected_iff, isConnected_iff, h]

theorem session?_drop :
    (b.drop agent).session? other = if other = agent then none else b.session? other := by
  unfold session? drop count
  rw [Std.ExtTreeMap.getElem?_erase]
  by_cases h : other = agent
  · simp [h]
  · simp [h, Ne.symm h]

theorem ledger_drop (id : String) :
    (b.drop agent).ledger.get? id = (b.ledger.get? id).filter fun n => !n.involves agent :=
  Ledger.get?_retireWhere fun n => n.involves agent

/-- The mailbox in which a notice for an agent arrives. -/
def reach? (b : Broker) (agent : String) : Option Channel :=
  (b.session? agent).filter b.mailboxes.isOpen

theorem reach?_eq_some {c : Channel} :
    b.reach? agent = some c ↔ b.session? agent = some c ∧ b.mailboxes.isOpen c :=
  Option.filter_eq_some_iff

theorem isOpen_of_reach?_eq_none {c : Channel} (session : b.session? agent = some c)
    (unreached : b.reach? agent = none) : b.mailboxes.isOpen c = false := by
  rw [← Bool.not_eq_true]
  intro opened
  rw [reach?_eq_some.mpr ⟨session, opened⟩] at unreached
  cases unreached

def put (b : Broker) (c : Channel) (n : Notice) : Broker :=
  { b with mailboxes.waiting := b.mailboxes.waiting ++ [(c, n)] }

theorem send_eq (b : Broker) (agent : String) (n : Notice) :
    b.send agent n =
      match b.reach? agent with
      | some c => (true, b.put c n)
      | none => (false, (b.disconnect agent).2) := by
  rw [send, reach?]
  cases session : b.session? agent with
  | none =>
    have absent : b.isConnected agent = false := session?_eq_none_iff.mp session
    simp [disconnect, absent]
  | some c =>
    cases opened : b.mailboxes.isOpen c with
    | true => simp [Mailboxes.put?, opened, Option.filter_some, put]
    | false => simp [Mailboxes.put?, opened, Option.filter_some]

theorem send_of_reach? {c : Channel} (reached : b.reach? agent = some c) (n : Notice) :
    (b.send agent n).2 = b.put c n := by
  rw [send_eq, reached]

theorem relay_eq (b : Broker) (receiver : String) (n : Notice) :
    b.relay receiver n =
      match b.reach? receiver with
      | some c => (true, (b.put c n).count .messageRouted)
      | none => (false, (b.disconnect receiver).2.count .routingFailed) := by
  rw [relay, send_eq]
  cases b.reach? receiver <;> rfl

/-- `b'` is `b` after notices have been put into mailboxes and some agents have lost their
sessions, with all that belonged to them. -/
structure Aftermath (b : Broker) (posts : List (Channel × Notice)) (b' : Broker) : Prop where
  agents : ∀ a, b'.session? a = b.session? a ∧ b.directory.SameFor b'.directory a ∨
    b'.session? a = none ∧ b'.directory.Lacks a
  negotiations : ∀ id n, b'.ledger.get? id = some n → b.ledger.get? id = some n ∧
    b'.session? n.initiator = b.session? n.initiator ∧
    b'.session? n.responder = b.session? n.responder
  mail : b'.mailboxes = { b.mailboxes with waiting := b.mailboxes.waiting ++ posts }
  /-- Only mailboxes of sessions are written to. -/
  addressed : ∀ p ∈ posts, ∃ a, b.session? a = some p.1
  notifications : b'.notifications = b.notifications

namespace Aftermath

variable {posts posts' : List (Channel × Notice)}

theorem refl (b : Broker) : Aftermath b [] b where
  agents _ := .inl ⟨rfl, rfl, rfl⟩
  negotiations _ _ h := ⟨h, rfl, rfl⟩
  mail := by simp
  addressed := nofun
  notifications := rfl

theorem session (h : Aftermath b posts b') {a : String} {c : Channel}
    (session : b'.session? a = some c) : b.session? a = some c := by
  rcases h.agents a with ⟨same, -⟩ | ⟨gone, -⟩
  · exact same.symm.trans session
  · rw [gone] at session
    cases session

theorem trans (h : Aftermath b posts b') (h' : Aftermath b' posts' b'') :
    Aftermath b (posts ++ posts') b'' where
  agents a := by
    rcases h'.agents a with ⟨session', same'⟩ | gone'
    · rcases h.agents a with ⟨session, same⟩ | ⟨gone, lacks⟩
      · exact .inl ⟨session'.trans session, same'.1.trans same.1, same'.2.trans same.2⟩
      · exact .inr ⟨session'.trans gone, same'.1.trans lacks.1, same'.2.trans lacks.2⟩
    · exact .inr gone'
  negotiations id n hn := by
    obtain ⟨hn', initiator', responder'⟩ := h'.negotiations id n hn
    obtain ⟨hn, initiator, responder⟩ := h.negotiations id n hn'
    exact ⟨hn, initiator'.trans initiator, responder'.trans responder⟩
  mail := by rw [h'.mail, h.mail, List.append_assoc]
  addressed p mem := by
    rcases List.mem_append.mp mem with old | new
    · exact h.addressed p old
    · obtain ⟨a, session⟩ := h'.addressed p new
      exact ⟨a, h.session session⟩
  notifications := h'.notifications.trans h.notifications

theorem count (h : Aftermath b posts b') (f : Metrics → Metrics) :
    Aftermath b posts (b'.count f) :=
  ⟨h.agents, h.negotiations, h.mail, h.addressed, h.notifications⟩

theorem drop (b : Broker) (agent : String) : Aftermath b [] (b.drop agent) where
  agents a := by
    by_cases h : a = agent
    · subst h
      exact .inr ⟨by rw [session?_drop, if_pos rfl], b.directory.removeAgent_lacks a⟩
    · exact .inl ⟨by rw [session?_drop, if_neg h], b.directory.removeAgent_sameFor h⟩
  negotiations id n h := by
    rw [ledger_drop, Option.filter_eq_some_iff] at h
    obtain ⟨hn, free⟩ := h
    have apart : n.initiator ≠ agent ∧ n.responder ≠ agent := by
      rw [Bool.not_eq_true', Bool.eq_false_iff, Ne, Negotiation.involves_iff, not_or] at free
      exact free
    exact ⟨hn, by rw [session?_drop, if_neg apart.1], by rw [session?_drop, if_neg apart.2]⟩
  mail := by
    simp [Broker.drop, Broker.count]
  addressed := nofun
  notifications := rfl

theorem disconnect (b : Broker) (agent : String) : Aftermath b [] (b.disconnect agent).2 := by
  unfold Broker.disconnect
  split
  · exact drop b agent
  · exact refl b

theorem disconnectSession (b : Broker) (agent : String) (c : Channel) :
    Aftermath b [] (b.disconnectSession agent c).2 := by
  unfold Broker.disconnectSession
  split
  · exact drop b agent
  · exact refl b

theorem put {c : Channel} (reached : b.reach? agent = some c) (n : Notice) :
    Aftermath b [(c, n)] (b.put c n) where
  agents _ := .inl ⟨rfl, rfl, rfl⟩
  negotiations _ _ h := ⟨h, rfl, rfl⟩
  mail := rfl
  addressed p mem := by
    cases List.mem_singleton.mp mem
    exact ⟨agent, (reach?_eq_some.mp reached).1⟩
  notifications := rfl

theorem send (b : Broker) (agent : String) (n : Notice) :
    Aftermath b ((b.reach? agent).toList.map (·, n)) (b.send agent n).2 := by
  rw [send_eq]
  cases reached : b.reach? agent with
  | none => exact disconnect b agent
  | some c => exact put reached n

theorem relay (b : Broker) (receiver : String) (n : Notice) :
    Aftermath b ((b.reach? receiver).toList.map (·, n)) (b.relay receiver n).2 := by
  have sent := send b receiver n
  rw [send_eq] at sent
  rw [relay_eq]
  cases reached : b.reach? receiver with
  | none =>
    rw [reached] at sent
    exact sent.count _
  | some c =>
    rw [reached] at sent
    exact sent.count _

theorem search (b : Broker) (find : Directory → Query → List String) (q : Query) :
    Aftermath b [] (b.search find q).2 := by
  unfold Broker.search
  split
  · exact refl b
  · exact (refl b).count _

theorem expireIdle (b : Broker) (now maxIdle : Nanos) :
    Aftermath b [] (b.expireIdle now maxIdle).2 where
  agents _ := .inl ⟨rfl, rfl, rfl⟩
  negotiations id n h := by
    have kept : (b.ledger.get? id).filter _ = some n :=
      (Ledger.get?_retireWhere fun n => maxIdle < now - n.lastActivity).symm.trans h
    exact ⟨(Option.filter_eq_some_iff.mp kept).1, rfl, rfl⟩
  mail := by simp [Broker.expireIdle, Broker.count]
  addressed := nofun
  notifications := rfl

end Aftermath

end Broker

end AgentBroker
