import AgentBroker.Proofs.Broker.Closing

/-!
# Ownership

Everything that the broker keeps belongs to connected agents: the entries of the directory and the
negotiations. Nothing outlives the session of its owner, however that ends.
-/

namespace AgentBroker

theorem Directory.lacks_iff {d : Directory} {agent : String} :
    d.Lacks agent ↔ agent ∉ d.services ∧ agent ∉ d.descriptions := by
  simp only [Directory.Lacks, Std.ExtTreeMap.mem_iff_isSome_getElem?, Bool.not_eq_true,
    Option.isSome_eq_false_iff, Option.isNone_iff_eq_none]

theorem Directory.mem_setOffers {d : Directory} {agent other : String}
    {offers : Std.ExtTreeMap String Instance} (h : other ∈ (d.setOffers agent offers).services) :
    other = agent ∨ other ∈ d.services := by
  by_cases same : other = agent
  · exact .inl same
  · rw [Std.ExtTreeMap.mem_iff_isSome_getElem?, services_setOffers_of_ne offers same] at h
    exact .inr (Std.ExtTreeMap.mem_iff_isSome_getElem?.mpr h)

namespace Broker

variable {b b' : Broker} {now : Nanos} {agent : String}

/-- Whoever offers services, has a description or negotiates is connected, and all instances in the
directory are valid. -/
structure Coherent (b : Broker) : Prop where
  offering : ∀ agent, agent ∈ b.directory.services → b.isConnected agent
  described : ∀ agent, agent ∈ b.directory.descriptions → b.isConnected agent
  negotiating : ∀ id n, b.ledger.get? id = some n →
    b.isConnected n.initiator ∧ b.isConnected n.responder
  services : ∀ agent model i, b.directory.service? agent model = some i → i.validate = .ok ()
  descriptions : ∀ agent i, b.directory.description? agent = some i → i.validate = .ok ()

theorem coherent_start (notifications : NotificationSettings) : (start notifications).Coherent where
  offering agent h := by simp [start, Directory.empty] at h
  described agent h := by simp [start, Directory.empty] at h
  negotiating id n h := by simp [start] at h
  services agent model i h := by simp [start] at h
  descriptions agent i h := by simp [start] at h

theorem Coherent.lacks (h : b.Coherent) (gone : b.isConnected agent = false) :
    b.directory.Lacks agent := by
  rw [Directory.lacks_iff]
  constructor
  · intro mem
    rw [h.offering agent mem] at gone
    cases gone
  · intro mem
    rw [h.described agent mem] at gone
    cases gone

theorem Coherent.aftermath {posts : List (Channel × Notice)} (h : b.Coherent)
    (rest : Aftermath b posts b') : b'.Coherent where
  offering agent mem := by
    rcases rest.agents agent with ⟨session, same⟩ | ⟨-, lacks⟩
    · rw [isConnected_congr session]
      rw [Std.ExtTreeMap.mem_iff_isSome_getElem?, same.1] at mem
      exact h.offering agent (Std.ExtTreeMap.mem_iff_isSome_getElem?.mpr mem)
    · exact absurd mem (Directory.lacks_iff.mp lacks).1
  described agent mem := by
    rcases rest.agents agent with ⟨session, same⟩ | ⟨-, lacks⟩
    · rw [isConnected_congr session]
      rw [Std.ExtTreeMap.mem_iff_isSome_getElem?, same.2] at mem
      exact h.described agent (Std.ExtTreeMap.mem_iff_isSome_getElem?.mpr mem)
    · exact absurd mem (Directory.lacks_iff.mp lacks).2
  negotiating id n ongoing := by
    obtain ⟨before, initiator, responder⟩ := rest.negotiations id n ongoing
    rw [isConnected_congr initiator, isConnected_congr responder]
    exact h.negotiating id n before
  services agent model i stored := by
    rcases rest.agents agent with ⟨-, same⟩ | ⟨-, lacks⟩
    · rw [same.service? model] at stored
      exact h.services agent model i stored
    · rw [lacks.service? model] at stored
      cases stored
  descriptions agent i stored := by
    rcases rest.agents agent with ⟨-, same⟩ | ⟨-, lacks⟩
    · rw [Directory.description?, same.2] at stored
      exact h.descriptions agent i stored
    · rw [Directory.description?, lacks.2] at stored
      cases stored

theorem Coherent.offering_setOffers (h : b.Coherent) (connected : b.isConnected agent)
    {offers : Std.ExtTreeMap String Instance} {other : String}
    (mem : other ∈ (b.directory.setOffers agent offers).services) : b.isConnected other := by
  rcases Directory.mem_setOffers mem with rfl | mem
  · exact connected
  · exact h.offering other mem

theorem Coherent.register (h : b.Coherent) (connected : b.isConnected agent) {i : Instance}
    (valid : i.validate = .ok ()) :
    Coherent { b with directory := b.directory.register agent i } where
  offering _ mem := h.offering_setOffers connected mem
  described := h.described
  negotiating := h.negotiating
  services other model j stored := by
    rw [Directory.service?_register] at stored
    split at stored
    · cases stored
      exact valid
    · exact h.services other model j stored
  descriptions := h.descriptions

theorem Coherent.unregister (h : b.Coherent) (connected : b.isConnected agent) (i : Instance) :
    Coherent { b with directory := (b.directory.unregister agent i).2 } where
  offering _ mem := h.offering_setOffers connected mem
  described := h.described
  negotiating := h.negotiating
  services other model j stored := by
    rw [Directory.service?_unregister] at stored
    split at stored
    · cases stored
    · exact h.services other model j stored
  descriptions := h.descriptions

theorem Coherent.describe (h : b.Coherent) (connected : b.isConnected agent) {i : Instance}
    (valid : i.validate = .ok ()) :
    Coherent { b with directory := b.directory.describe agent i } where
  offering := h.offering
  described other mem := by
    rcases Std.ExtTreeMap.mem_insert.mp mem with same | mem
    · rw [← Std.LawfulEqCmp.compare_eq_iff_eq.mp same]
      exact connected
    · exact h.described other mem
  negotiating := h.negotiating
  services := h.services
  descriptions other j stored := by
    rw [Directory.description?_describe] at stored
    split at stored
    · cases stored
      exact valid
    · exact h.descriptions other j stored

theorem Coherent.undescribe (h : b.Coherent) (agent : String) :
    Coherent { b with directory := (b.directory.undescribe agent).2 } where
  offering := h.offering
  described other mem := h.described other (Std.ExtTreeMap.mem_erase.mp mem).2
  negotiating := h.negotiating
  services := h.services
  descriptions other j stored := by
    rw [Directory.description?_undescribe] at stored
    split at stored
    · cases stored
    · exact h.descriptions other j stored

theorem get?_ledgerAfter {sender id : String} {letter : Letter} {n : Negotiation}
    (h : (b.ledgerAfter now sender letter).get? id = some n) :
    b.ledger.get? id = some n ∨
    n.initiator = sender ∧ n.responder = letter.destination ∨
    n.initiator = letter.destination ∧ n.responder = sender := by
  rw [ledgerAfter] at h
  cases body : letter.body with
  | text t =>
    simp only [body] at h
    exact .inl h
  | negotiation m =>
    simp only [body] at h
    cases judged : b.ledger.observe now sender letter.destination letter.conversationId m with
    | error breach =>
      simp only [judged] at h
      exact .inl h
    | ok found =>
      obtain ⟨next, l⟩ := found
      simp only [judged] at h
      obtain ⟨accepts, rfl⟩ :=
        Ledger.observe_eq_ok (p := ⟨sender, letter.destination, m⟩) judged
      rw [Ledger.get?_file] at h
      split at h
      · split at h
        · cases h
        · cases h
          exact .inr accepts.parties
      · exact .inl h

theorem Coherent.edit (h : b.Coherent) (connected : b.isConnected agent) (now : Nanos)
    (request : Request) : (b.edit now agent request).Coherent := by
  cases request with
  | registerService i =>
    rw [Broker.edit]
    cases valid : i.validate with
    | error m => exact h
    | ok u => exact h.register connected valid
  | unregisterService i => exact h.unregister connected i
  | registerDescription i =>
    rw [Broker.edit]
    cases valid : i.validate with
    | error m => exact h
    | ok u => exact h.describe connected valid
  | unregisterDescription => exact h.undescribe agent
  | searchAgents s => exact h
  | searchServices s => exact h
  | sendMessage letter =>
    rw [Broker.edit]
    split
    next destination =>
      refine ⟨h.offering, h.described, ?_, h.services, h.descriptions⟩
      intro id n ongoing
      rcases get?_ledgerAfter ongoing with before | ⟨initiator, responder⟩ | ⟨initiator, responder⟩
      · exact h.negotiating id n before
      · rw [initiator, responder]
        exact ⟨connected, destination⟩
      · rw [initiator, responder]
        exact ⟨destination, connected⟩
    · exact h

theorem Coherent.withSession (h : b.Coherent) (agent : String) (channel : Channel) :
    (b.withSession agent channel).Coherent := by
  have kept (other : String) (connected : b.isConnected other) :
      (b.withSession agent channel).isConnected other := by
    obtain ⟨c, session⟩ := isConnected_iff.mp connected
    rw [isConnected_iff, session?_withSession]
    split
    · exact ⟨channel, rfl⟩
    · exact ⟨c, session⟩
  refine ⟨?_, ?_, ?_, h.services, h.descriptions⟩
  · intro other mem
    exact kept other (h.offering other mem)
  · intro other mem
    exact kept other (h.described other mem)
  · intro id n ongoing
    obtain ⟨initiator, responder⟩ := h.negotiating id n ongoing
    exact ⟨kept _ initiator, kept _ responder⟩

theorem Coherent.mapMailboxes (h : b.Coherent) (f : Mailboxes → Mailboxes) :
    (b.mapMailboxes f).Coherent :=
  ⟨h.offering, h.described, h.negotiating, h.services, h.descriptions⟩

theorem Coherent.effect {c : Command} (h : b.Coherent) (effect : Effect b now c b') :
    b'.Coherent := by
  cases effect with
  | admits fresh => exact h.withSession _ _
  | serves connected asks answered =>
    obtain ⟨answers, rest, -⟩ := answered
    exact (h.edit connected now _).aftermath rest
  | keeps rest => exact h.aftermath rest

theorem Coherent.after (h : b.Coherent) (e : Event) : (b.after e).Coherent := by
  cases e with
  | command now elapsed awaited c => exact h.effect (apply_effect b now elapsed awaited c)
  | close c => exact h.mapMailboxes (·.close c)
  | hold c => exact h.mapMailboxes (·.hold c)
  | release c => exact h.mapMailboxes (·.release c)
  | take c => exact h.mapMailboxes fun m => (m.take c).2
  | takeFirst c => exact h.mapMailboxes fun m => ((m.takeFirst? c).map (·.2)).getD m

theorem coherent_replay (notifications : NotificationSettings) (events : List Event) :
    (replay notifications events).Coherent :=
  Run.last_induction (P := Coherent) (fun _ e h => h.after e) _ (coherent_start notifications) events

/-- Whatever commands have been carried out, and whenever mailboxes have been closed: whoever owns an
entry of the directory or is party to a negotiation is connected. -/
theorem reachable_coherent {notifications : NotificationSettings}
    (h : Reachable notifications b) : b.Coherent := by
  obtain ⟨events, rfl⟩ := reachable_iff.mp h
  exact coherent_replay notifications events

/-- A seller that has filed a book and a description of itself is called by a buyer. -/
theorem reachable_coherent_market :
    let book : Instance :=
      ⟨⟨"book", [⟨"title", .string, true⟩], ""⟩, .ofList [("title", Value.string "Emma")]⟩
    let b := replay default
      [.command 0 0 true (.connect "seller" 0 0), .command 0 0 true (.connect "buyer" 1 1),
        .command 0 0 false (.envelope "seller" (.ofRequest (.registerService book))),
        .command 0 0 false (.envelope "seller" (.ofRequest (.registerDescription book))),
        .command 0 0 false
          (.envelope "buyer" (.negotiation "sale" "seller" 1 0 (.call (.text "?"))))]
    b.Coherent ∧ (b.directory.service? "seller" "book").isSome ∧
      (b.directory.description? "seller").isSome ∧
      ∃ n, b.ledger.get? "sale" = some n ∧ b.isConnected n.initiator ∧ b.isConnected n.responder := by
  intro book b
  have coherent : b.Coherent := reachable_coherent (reachable_iff.mpr ⟨_, rfl⟩)
  obtain ⟨n, ongoing⟩ : ∃ n, b.ledger.get? "sale" = some n :=
    Option.isSome_iff_exists.mp (by decide +kernel)
  exact ⟨coherent, by decide +kernel, by decide +kernel, n, ongoing, coherent.negotiating _ n ongoing⟩

end Broker

end AgentBroker
