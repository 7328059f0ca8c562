import AgentBroker.Proofs.Broker.Consultation
import AgentBroker.Proofs.Broker.Delivery
import AgentBroker.Proofs.Negotiation.Bookkeeping
import AgentBroker.Proofs.Negotiation.Identifier
import AgentBroker.Proofs.Scheduler.Work

/-!
# What readers find in their mailboxes

Every mailbox has one reader. When agents are admitted with mailboxes of their own and nothing but
the broker writes to these, what a reader finds under an identifier are messages that the ledger has
accepted for it, each at most once.
-/

namespace AgentBroker

open Ledger DialogueBook

/-- A command as agents bring it: it brings no notice, an admission comes with a mailbox that its
agent reads, and the id of a conversation is a canonical text. -/
structure Command.Fair (reader : Channel → String) (c : Command) : Prop where
  quiet : c.bringsNotice = false
  own : ∀ agent channel ticket, c = .connect agent channel ticket → reader channel = agent
  spelled : ∀ id p, c.posting? = some (id, p) → ∃ u : Uuid, id = u.text

def Notice.delivery? (n : Notice) : Option Delivery :=
  match n.news with
  | some (.delivery d) => some d
  | _ => none

theorem Notice.delivery?_eq_none {n : Notice} (h : n.isDelivery = false) : n.delivery? = none := by
  rw [isDelivery] at h
  rw [delivery?]
  cases news : n.news with
  | none => rfl
  | some s =>
    rw [news] at h
    cases s with
    | delivery => cases h
    | _ => rfl

namespace Broker

variable {reader : Channel → String} {id : Uuid} {agent : String} {b b' : Broker} {e : Event}
  {now : Nanos}

/-- Every session uses a mailbox that its agent reads. -/
def Owned (reader : Channel → String) (b : Broker) : Prop :=
  ∀ channel, b.UsedOnlyBy channel fun agent => reader channel = agent

/-- The messages of a dialogue among what an agent reads. -/
def readings (reader : Channel → String) (id : Uuid) (agent : String)
    (posts : List (Channel × Notice)) : List Posting :=
  posts.filterMap fun post =>
    if reader post.1 = agent then post.2.delivery?.bind (reading? id agent) else none

theorem readings_append (xs ys : List (Channel × Notice)) :
    readings reader id agent (xs ++ ys) =
      readings reader id agent xs ++ readings reader id agent ys :=
  List.filterMap_append

theorem readings_eq_nil {posts : List (Channel × Notice)}
    (silent : ∀ p ∈ posts, p.2.isDelivery = false) : readings reader id agent posts = [] := by
  refine List.filterMap_eq_nil_iff.mpr fun post mem => ?_
  rw [Notice.delivery?_eq_none (silent post mem)]
  split <;> rfl

theorem readings_negotiation (channel : Channel) (sender : String) (u : Uuid)
    (m : NegotiationMessage) :
    readings reader id agent [(channel, .delivery sender u.text (.negotiation m))] =
      if reader channel = agent ∧ u = id then [⟨sender, agent, m⟩] else [] := by
  by_cases reads : reader channel = agent <;> by_cases same : u = id <;>
    simp [readings, Notice.delivery, Notice.ofNews, Notice.delivery?, reading?, Uuid.parse?_text,
      reads, same]

theorem settled_envelope {elapsed : Nanos} {awaited : Bool} {sender text : String} {e : Envelope}
    {p : Posting} (posting : e.posting? sender = some (text, p))
    (connected : b.isConnected p.sender ∧ b.isConnected p.receiver)
    (accepted : (b.ledger.observe now p.sender p.receiver text p.message).isOk) :
    b.settled text (.command now elapsed awaited (.envelope sender e)) = [p] := by
  have asked : b.consults (.command now elapsed awaited (.envelope sender e)) =
      [.observe now p.sender p.receiver text p.message] := by
    simp only [consults, posting]
    exact if_pos connected
  have settles : b.ledger.posting? text (.observe now p.sender p.receiver text p.message) =
      some p := if_pos ⟨rfl, accepted⟩
  rw [settled, asked, Ledger.accepted, Run.log, Run.log, settles]
  rfl

theorem exists_of_mem_settled {text : String} {p : Posting} (mem : p ∈ b.settled text e) :
    ∃ c, e.command? = some c ∧ c.posting? = some (text, p) := by
  rw [settled, consults.eq_def] at mem
  split at mem
  next now elapsed awaited sender e =>
    split at mem
    next other q posting =>
      split at mem
      · rw [Ledger.accepted, Run.log, Run.log, List.append_nil, Option.mem_toList] at mem
        rw [posting?] at mem
        split at mem
        next same =>
          cases mem
          exact ⟨.envelope sender e, rfl, same.1 ▸ posting⟩
        · cases mem
      · cases mem
    · cases mem
  · cases mem
  · cases mem

theorem readings_deliveries (owned : b.Owned reader) {elapsed : Nanos} {awaited : Bool}
    {sender : String} {e : Envelope} {request : Request} (connected : b.isConnected sender)
    (asks : e.request = some request)
    (spelled : ∀ text p, e.posting? sender = some (text, p) → ∃ u : Uuid, text = u.text) :
    (readings reader id agent (b.deliveries now sender request)).Sublist
      ((b.settled id.text (.command now elapsed awaited (.envelope sender e))).filter
        (·.receiver = agent)) := by
  cases request with
  | sendMessage letter =>
    obtain ⟨text, destination, body⟩ := letter
    rw [deliveries]
    split
    next accepted =>
      cases reached : b.reach? destination with
      | none => exact List.nil_sublist _
      | some channel =>
        obtain ⟨session, -⟩ := reach?_eq_some.mp reached
        rw [Option.toList_some, List.map_singleton]
        cases body with
        | text t =>
          have silent : readings reader id agent
              [(channel, Notice.delivery sender text (.text t))] = [] := by
            refine List.filterMap_eq_nil_iff.mpr fun post mem => ?_
            cases List.mem_singleton.mp mem
            split <;> rfl
          rw [silent]
          exact List.nil_sublist _
        | negotiation m =>
          have posting : e.posting? sender = some (text, ⟨sender, destination, m⟩) := by
            rw [Envelope.posting?, asks]
          obtain ⟨u, rfl⟩ := spelled _ _ posting
          have reads : reader channel = destination := owned channel destination session
          by_cases own : reader channel = agent ∧ u = id
          · obtain ⟨rfl, rfl⟩ := own
            have there : b.isConnected destination := isConnected_iff.mpr ⟨channel, session⟩
            rw [settled_envelope posting ⟨connected, there⟩ accepted, readings_negotiation,
              if_pos ⟨rfl, rfl⟩, List.filter_singleton, reads, decide_eq_true rfl]
            exact .refl _
          · rw [readings_negotiation, if_neg own]
            exact List.nil_sublist _
    · exact List.nil_sublist _
  | _ => exact List.nil_sublist _

theorem readings_posted (owned : b.Owned reader) (fair : ∀ c, e.command? = some c → c.Fair reader) :
    (readings reader id agent (b.posted e)).Sublist
      ((b.settled id.text e).filter (·.receiver = agent)) := by
  cases e with
  | command now elapsed awaited c =>
    have fair := fair c rfl
    have effect := apply_effect b now elapsed awaited c
    rw [posted, after]
    generalize (b.apply now elapsed awaited c).2 = b' at effect ⊢
    cases effect with
    | admits fresh =>
      have same (a : String) (c : Channel) : (b.withSession a c).mailboxes = b.mailboxes := rfl
      rw [same, List.drop_length]
      exact List.nil_sublist _
    | serves connected asks answered =>
      obtain ⟨answers, rest, silent⟩ := answered
      rw [rest.mail, mailboxes_edit, List.drop_left, readings_append, readings_eq_nil silent,
        List.append_nil]
      exact readings_deliveries owned connected asks fair.spelled
    | keeps rest silent =>
      rw [rest.mail, List.drop_left, silent fair.quiet]
      exact List.nil_sublist _
  | _ => exact List.nil_sublist _

theorem readings_after (owned : b.Owned reader) (fair : ∀ c, e.command? = some c → c.Fair reader) :
    (readings reader id agent (b.after e).mailboxes.waiting).Sublist
      (readings reader id agent b.mailboxes.waiting ++
        (b.settled id.text e).filter (·.receiver = agent)) := by
  have fewer {b' : Broker} (less : b'.mailboxes.waiting.Sublist b.mailboxes.waiting) :
      (readings reader id agent b'.mailboxes.waiting).Sublist
        (readings reader id agent b.mailboxes.waiting ++
          (b.settled id.text e).filter (·.receiver = agent)) :=
    (less.filterMap _).trans (List.sublist_append_left _ _)
  cases e with
  | command now elapsed awaited c =>
    rw [waiting_after, readings_append]
    exact (readings_posted owned fair).append_left _
  | close c => exact fewer List.filter_sublist
  | hold c => exact fewer (.refl _)
  | release c => exact fewer (.refl _)
  | take c => exact fewer List.filter_sublist
  | takeFirst c =>
    refine fewer ?_
    rw [after, mapMailboxes, Mailboxes.takeFirst?]
    dsimp only
    cases b.mailboxes.waiting.find? (·.1 == c) with
    | none => exact .refl _
    | some post => exact List.eraseP_sublist

theorem Owned.after (owned : b.Owned reader) (fair : ∀ c, e.command? = some c → c.Fair reader) :
    (b.after e).Owned reader := by
  intro channel
  refine (owned channel).after e fun other admission => ?_
  rw [Event.admission?.eq_def] at admission
  split at admission
  · cases admission
    exact (fair _ rfl).own _ _ _ rfl
  · cases admission

theorem owned_start (reader : Channel → String) (notifications : NotificationSettings) :
    (start notifications).Owned reader := fun _ => usedOnlyBy_start notifications

variable {events : List Event}

theorem fair_head {e : Event} (fair : ∀ c ∈ commands (e :: events), c.Fair reader) (c : Command)
    (brings : e.command? = some c) : c.Fair reader :=
  fair c (List.mem_filterMap.mpr ⟨e, List.mem_cons_self, brings⟩)

theorem fair_tail {e : Event} (fair : ∀ c ∈ commands (e :: events), c.Fair reader) :
    ∀ c ∈ commands events, c.Fair reader :=
  fun c mem => fair c (((List.sublist_cons_self e events).filterMap _).subset mem)

theorem Owned.run (owned : b.Owned reader) (fair : ∀ c ∈ commands events, c.Fair reader) :
    (Run.last Broker.after b events).Owned reader := by
  induction events generalizing b with
  | nil => exact owned
  | cons e rest ih => exact ih (owned.after (fair_head fair)) (fair_tail fair)

theorem readings_run (owned : b.Owned reader) (fair : ∀ c ∈ commands events, c.Fair reader) :
    (readings reader id agent (Run.last after b events).mailboxes.waiting).Sublist
      (readings reader id agent b.mailboxes.waiting ++
        (b.thread id.text events).filter (·.receiver = agent)) := by
  induction events generalizing b with
  | nil => exact List.sublist_append_left _ _
  | cons e rest ih =>
    have first := @readings_after reader id agent b e owned (fair_head fair)
    have later := ih (owned.after (fair_head fair)) (fair_tail fair)
    have whole : b.thread id.text (e :: rest) =
        b.settled id.text e ++ (b.after e).thread id.text rest := rfl
    rw [whole, List.filter_append, ← List.append_assoc]
    exact later.trans (first.append_right _)

theorem exists_of_mem_thread {text : String} {p : Posting} (mem : p ∈ b.thread text events) :
    ∃ c ∈ commands events, c.posting? = some (text, p) := by
  obtain ⟨before, e, later, split, settled⟩ := Run.exists_of_mem_log mem
  obtain ⟨c, brings, posting⟩ := exists_of_mem_settled settled
  refine ⟨c, List.mem_filterMap.mpr ⟨e, ?_, brings⟩, posting⟩
  rw [split]
  exact List.mem_append_right before List.mem_cons_self

end Broker

end AgentBroker
