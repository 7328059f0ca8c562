import AgentBroker.Proofs.Broker.Arrivals
import AgentBroker.Proofs.Broker.Marking

/-!
# Filing

Agents file their services and descriptions in the directory, and withdraw them. What comes of such
an envelope depends on what the broker knows of its agent and on nothing else, and what the broker
knows of the other agents stays as it is.
-/

namespace AgentBroker

/-- The notice with which an instance is refused that does not fit its model. -/
def Envelope.refusal? (e : Envelope) : Option Notice :=
  match e.request with
  | some (.registerService i) => told .registerService i.validate
  | some (.registerDescription i) => told .registerDescription i.validate
  | _ => none
where
  told (operation : Operation) : Except Misfit Unit → Option Notice
    | .ok _ => none
    | .error _ => some ((Notice.ofNews (.error ⟨operation, none, none⟩)).answering e.msgId)

/-- An envelope with which an agent changes an entry, and how it is processed. -/
structure Filing where
  now : Nanos
  elapsed : Nanos
  awaited : Bool
  agent : String
  msgId : UInt32
  request : Request
  files : request.isFiling

namespace Filing

def envelope (f : Filing) : Envelope := ⟨f.msgId, some f.request⟩

def event (f : Filing) : Broker.Event :=
  .command f.now f.elapsed f.awaited (.envelope f.agent f.envelope)

def untimed (f : Filing) : Filing := { f with now := 0, elapsed := 0, awaited := false }

end Filing

namespace Ledger

def without (l : Ledger) (gone : String → Bool) : Ledger :=
  l.retireAll (l.idsWhere fun n => gone n.initiator || gone n.responder)

theorem without_none (l : Ledger) : (l.without fun _ => false) = l := by
  refine ext_entries (fun id => ?_) fun id => ?_
  · rw [without, get?_retireWhere]
    cases l.get? id <;> rfl
  · rw [without, isRetired_retireWhere]
    simp

theorem without_without (l : Ledger) (p q : String → Bool) :
    (l.without p).without q = l.without fun a => p a || q a := by
  refine ext_entries (fun id => ?_) fun id => ?_
  · simp only [without, get?_retireWhere]
    cases l.get? id with
    | none => rfl
    | some n =>
      simp only [Option.filter_some]
      cases p n.initiator <;> cases p n.responder <;> simp [Option.filter_some]
  · simp only [without, isRetired_retireWhere, get?_retireWhere]
    cases l.get? id with
    | none => simp
    | some n =>
      simp only [Option.filter_some]
      cases hi : p n.initiator <;> cases hr : p n.responder <;> simp [hi, hr, or_assoc]

end Ledger

namespace Broker

variable {b b' b'' t : Broker} {agent other : String}

def entryMarks (b : Broker) (agent : String) : Request → List Mark
  | .registerService _ | .registerDescription _ => [.registered]
  | .unregisterService i => if (b.directory.unregister agent i).1 then [.unregistered] else []
  | .unregisterDescription => if (b.directory.undescribe agent).1 then [.unregistered] else []
  | _ => []

def outcome (b : Broker) (agent : String) (e : Envelope) : List Mark :=
  match e.request, e.refusal? with
  | none, _ => []
  | some request, none => b.entryMarks agent request ++ [.processed request.operation true]
  | some request, some _ => [.processed request.operation false, .misfit]

theorem edit_filing (b : Broker) (now : Nanos) (agent : String) {request : Request}
    (files : request.isFiling) :
    ∃ directory, b.edit now agent request = { b with directory } := by
  cases request with
  | registerService i | registerDescription i =>
    rw [edit]
    split
    · exact ⟨_, rfl⟩
    · exact ⟨_, rfl⟩
  | unregisterService i | unregisterDescription => exact ⟨_, rfl⟩
  | _ => cases files

theorem dispatch_filing (b : Broker) (f : Filing) :
    ∃ g : Metrics → Metrics, (∀ m, (g m).untimed = m.untimed.notes (b.outcome f.agent f.envelope)) ∧
      (b.dispatch f.now f.elapsed f.agent f.envelope).2 =
        match f.envelope.refusal? with
        | none => (b.edit f.now f.agent f.request).count g
        | some n => ((b.count g).send f.agent n).2 := by
  obtain ⟨now, elapsed, awaited, agent, msgId, request, files⟩ := f
  rw [dispatch, Filing.envelope, outcome, Envelope.refusal?]
  dsimp only
  have entered (operation : Operation) (g : Metrics → Metrics) (k : Mark)
      (counts : ∀ m, (g m).untimed = m.untimed.note k) (m : Metrics) :
      ((g m).envelopeProcessed operation.label elapsed true).untimed =
        m.untimed.notes [k, .processed operation true] := by
    rw [Metrics.untimed_envelopeProcessed, counts]
    rfl
  have refused (operation : Operation) (m : Metrics) :
      (m.envelopeProcessed operation.label elapsed false).registrationFailed.untimed =
        m.untimed.notes [.processed operation false, .misfit] :=
    congrArg Metrics.registrationFailed (m.untimed_envelopeProcessed operation elapsed false)
  cases request with
  | registerService i =>
    dsimp only
    rw [run, registerService, edit]
    cases i.validate with
    | ok u => exact ⟨_, entered .registerService .registration .registered fun _ => rfl, rfl⟩
    | error m => exact ⟨_, refused .registerService, rfl⟩
  | registerDescription i =>
    dsimp only
    rw [run, registerDescription, edit]
    cases i.validate with
    | ok u => exact ⟨_, entered .registerDescription .registration .registered fun _ => rfl, rfl⟩
    | error m => exact ⟨_, refused .registerDescription, rfl⟩
  | unregisterService i =>
    dsimp only
    rw [run, unregisterService, edit, entryMarks]
    obtain ⟨found, directory⟩ := b.directory.unregister agent i
    cases found with
    | true => exact ⟨_, entered .unregisterService .unregistration .unregistered fun _ => rfl, rfl⟩
    | false => exact ⟨_, fun m => m.untimed_envelopeProcessed .unregisterService elapsed true, rfl⟩
  | unregisterDescription =>
    dsimp only
    rw [run, unregisterDescription, edit, entryMarks]
    obtain ⟨found, directory⟩ := b.directory.undescribe agent
    cases found with
    | true =>
      exact ⟨_, entered .unregisterDescription .unregistration .unregistered fun _ => rfl, rfl⟩
    | false =>
      exact ⟨_, fun m => m.untimed_envelopeProcessed .unregisterDescription elapsed true, rfl⟩
  | _ => cases files

theorem after_filing_of_absent (f : Filing) (absent : ¬ b.isConnected f.agent) :
    b.after f.event = b := by
  rw [Filing.event, after, apply, if_neg absent]

theorem after_filing (f : Filing) (connected : b.isConnected f.agent) :
    ∃ g : Metrics → Metrics, (∀ m, (g m).untimed = m.untimed.notes (b.outcome f.agent f.envelope)) ∧
      b.after f.event =
        match f.envelope.refusal?, b.reach? f.agent with
        | none, _ => (b.edit f.now f.agent f.request).count g
        | some n, some c => (b.count g).put c n
        | some _, none => (b.count g).drop f.agent := by
  obtain ⟨g, counted, eq⟩ := dispatch_filing b f
  refine ⟨g, counted, ?_⟩
  rw [Filing.event, after, apply, if_pos connected, eq]
  cases f.envelope.refusal? with
  | none => rfl
  | some n =>
    have present : (b.count g).isConnected f.agent := connected
    have reached : (b.count g).reach? f.agent = b.reach? f.agent := rfl
    dsimp only
    rw [send_eq, reached]
    cases b.reach? f.agent with
    | some c => rfl
    | none => simp only [disconnect, if_pos present]

/-- Two brokers know the same of an agent. -/
structure Agrees (agent : String) (b t : Broker) : Prop where
  session : t.session? agent = b.session? agent
  directory : b.directory.SameFor t.directory agent
  closed : t.mailboxes.closed = b.mailboxes.closed

namespace Agrees

theorem refl (agent : String) (b : Broker) : Agrees agent b b := ⟨rfl, ⟨rfl, rfl⟩, rfl⟩

theorem symm (h : Agrees agent b t) : Agrees agent t b :=
  ⟨h.session.symm, ⟨h.directory.1.symm, h.directory.2.symm⟩, h.closed.symm⟩

theorem trans (h : Agrees agent b b') (h' : Agrees agent b' b'') : Agrees agent b b'' :=
  ⟨h'.session.trans h.session,
    ⟨h'.directory.1.trans h.directory.1, h'.directory.2.trans h.directory.2⟩,
    h'.closed.trans h.closed⟩

theorem reach? (h : Agrees agent b t) : t.reach? agent = b.reach? agent := by
  have opened : t.mailboxes.isOpen = b.mailboxes.isOpen := by
    funext c
    rw [Mailboxes.isOpen, Mailboxes.isOpen, h.closed]
  rw [Broker.reach?, Broker.reach?, h.session, opened]

theorem isConnected (h : Agrees agent b t) : t.isConnected agent = b.isConnected agent :=
  isConnected_congr h.session

theorem count (h : Agrees agent b t) (g g' : Metrics → Metrics) :
    Agrees agent (b.count g) (t.count g') := ⟨h.session, h.directory, h.closed⟩

theorem offers (h : Agrees agent b t) : t.directory.offers agent = b.directory.offers agent := by
  rw [Directory.offers_eq, Directory.offers_eq, h.directory.1]

theorem edit (h : Agrees agent b t) (now now' : Nanos) {request : Request}
    (files : request.isFiling) :
    Agrees agent (b.edit now agent request) (t.edit now' agent request) := by
  have setOffers (offers : Std.ExtTreeMap String Instance) :
      (b.directory.setOffers agent offers).SameFor (t.directory.setOffers agent offers) agent := by
    refine ⟨?_, h.directory.2⟩
    unfold Directory.setOffers
    split <;> simp
  cases request with
  | registerService i =>
    rw [Broker.edit, Broker.edit]
    split
    · refine ⟨h.session, ?_, h.closed⟩
      dsimp only
      rw [Directory.register, Directory.register, h.offers]
      exact setOffers _
    · exact h
  | unregisterService i =>
    refine ⟨h.session, ?_, h.closed⟩
    dsimp only [Broker.edit, Directory.unregister]
    rw [h.offers]
    exact setOffers _
  | registerDescription i =>
    rw [Broker.edit, Broker.edit]
    split
    · refine ⟨h.session, ⟨h.directory.1, ?_⟩, h.closed⟩
      simp [Directory.describe]
    · exact h
  | unregisterDescription =>
    refine ⟨h.session, ⟨h.directory.1, ?_⟩, h.closed⟩
    simp [Broker.edit, Directory.undescribe]
  | _ => cases files

theorem drop (h : b.mailboxes.closed = t.mailboxes.closed) :
    Agrees agent (b.drop agent) (t.drop agent) where
  session := by rw [session?_drop, session?_drop, if_pos rfl, if_pos rfl]
  directory := by
    obtain ⟨services, descriptions⟩ := b.directory.removeAgent_lacks agent
    obtain ⟨services', descriptions'⟩ := t.directory.removeAgent_lacks agent
    exact ⟨services'.trans services.symm, descriptions'.trans descriptions.symm⟩
  closed := h.symm

/-- A filing does the same wherever the same is known of its agent. -/
theorem filing {f : Filing} (h : Agrees f.agent b t) :
    Agrees f.agent (b.after f.event) (t.after f.untimed.event) := by
  by_cases connected : b.isConnected f.agent
  · obtain ⟨g, -, eq⟩ := after_filing f connected
    obtain ⟨g', -, eq'⟩ := after_filing f.untimed (h.isConnected.trans connected)
    have same : f.untimed.envelope.refusal? = f.envelope.refusal? := rfl
    have reached : t.reach? f.untimed.agent = b.reach? f.agent := h.reach?
    rw [eq, eq', same, reached]
    cases f.envelope.refusal? with
    | none => exact (h.edit f.now 0 f.files).count g g'
    | some n =>
      cases b.reach? f.agent with
      | some c => exact ⟨h.session, h.directory, h.closed⟩
      | none => exact drop (b := b.count g) (t := t.count g') h.closed.symm
  · rw [after_filing_of_absent f connected, after_filing_of_absent f.untimed]
    · exact h
    · exact fun present => connected (h.isConnected.symm.trans present)

theorem edit_of_ne (b : Broker) (now : Nanos) {request : Request} (files : request.isFiling)
    (apart : other ≠ agent) : Agrees other b (b.edit now agent request) := by
  cases request with
  | registerService i =>
    rw [Broker.edit]
    split
    · exact ⟨rfl, ⟨Directory.services_setOffers_of_ne _ apart, rfl⟩, rfl⟩
    · exact refl other b
  | unregisterService i => exact ⟨rfl, ⟨Directory.services_setOffers_of_ne _ apart, rfl⟩, rfl⟩
  | registerDescription i =>
    rw [Broker.edit]
    split
    · refine ⟨rfl, ⟨rfl, ?_⟩, rfl⟩
      exact Directory.description?_describe.trans (if_neg apart)
    · exact refl other b
  | unregisterDescription =>
    refine ⟨rfl, ⟨rfl, ?_⟩, rfl⟩
    exact Directory.description?_undescribe.trans (if_neg apart)
  | _ => cases files

theorem drop_of_ne (b : Broker) (apart : other ≠ agent) : Agrees other b (b.drop agent) :=
  ⟨session?_drop.trans (if_neg apart), b.directory.removeAgent_sameFor apart, rfl⟩

end Agrees

theorem agrees_after_filing_of_ne (b : Broker) {f : Filing} (apart : agent ≠ f.agent) :
    Agrees agent b (b.after f.event) := by
  by_cases connected : b.isConnected f.agent
  · obtain ⟨g, -, eq⟩ := after_filing f connected
    rw [eq]
    cases f.envelope.refusal? with
    | none => exact (Agrees.edit_of_ne b f.now f.files apart).trans ⟨rfl, ⟨rfl, rfl⟩, rfl⟩
    | some n =>
      cases b.reach? f.agent with
      | some c => exact ⟨rfl, ⟨rfl, rfl⟩, rfl⟩
      | none =>
        have dropped := Agrees.drop_of_ne (b.count g) apart
        exact ⟨dropped.session, dropped.directory, dropped.closed⟩
  · rw [after_filing_of_absent f connected]
    exact .refl agent b

def complaints (b : Broker) (agent : String) (e : Envelope) : List (Channel × Notice) :=
  e.refusal?.toList.flatMap fun n => (b.reach? agent).toList.map (·, n)

theorem Agrees.complaints (h : Agrees agent b t) (e : Envelope) :
    b.complaints agent e = t.complaints agent e := by
  rw [Broker.complaints, Broker.complaints, h.reach?]

theorem session_of_mem_complaints {e : Envelope} {p : Channel × Notice}
    (mem : p ∈ b.complaints agent e) : b.session? agent = some p.1 := by
  obtain ⟨n, -, mem⟩ := List.mem_flatMap.mp mem
  obtain ⟨c, reached, rfl⟩ := List.mem_map.mp mem
  exact (reach?_eq_some.mp (Option.mem_toList.mp reached)).1

theorem posted_filing (b : Broker) (f : Filing) :
    b.posted f.event = b.complaints f.agent f.envelope := by
  rw [Filing.event, posted, complaints]
  change (b.after f.event).mailboxes.waiting.drop _ = _
  by_cases connected : b.isConnected f.agent
  · obtain ⟨g, -, eq⟩ := after_filing f connected
    rw [eq]
    cases f.envelope.refusal? with
    | none =>
      dsimp only [Broker.count]
      rw [mailboxes_edit, List.drop_length]
      rfl
    | some n =>
      cases b.reach? f.agent with
      | some c => exact List.drop_left
      | none => exact List.drop_length
  · have unreached : b.reach? f.agent = none := by
      rw [reach?, session?_eq_none_iff.mpr (Bool.eq_false_iff.mpr connected)]
      rfl
    rw [after_filing_of_absent f connected, List.drop_length, unreached]
    cases f.envelope.refusal? <;> rfl

/-- The marks of a filing. A refusal that cannot be told costs the agent its session. -/
def filingMarks (b : Broker) (agent : String) (e : Envelope) : List Mark :=
  if b.isConnected agent then
    b.outcome agent e ++ closings (e.refusal?.isSome && (b.reach? agent).isNone)
  else []

theorem untimed_after_filing (b : Broker) (f : Filing) :
    (b.after f.event).metrics.untimed =
      b.metrics.untimed.notes (b.filingMarks f.agent f.envelope) := by
  rw [filingMarks]
  by_cases connected : b.isConnected f.agent
  · obtain ⟨g, counted, eq⟩ := after_filing f connected
    rw [if_pos connected, eq, Metrics.notes_append, ← counted]
    cases f.envelope.refusal? with
    | none =>
      obtain ⟨directory, edited⟩ := edit_filing b f.now f.agent f.files
      dsimp only
      rw [edited]
      rfl
    | some n => cases b.reach? f.agent <;> rfl
  · rw [after_filing_of_absent f connected, if_neg connected]
    rfl

theorem not_mem_filingMarks (b : Broker) (agent : String) (e : Envelope) :
    .admitted ∉ b.filingMarks agent e := by
  have entries (request : Request) : .admitted ∉ b.entryMarks agent request := by
    cases request <;> simp only [entryMarks] <;> (try split) <;> simp
  have closed (gone : Bool) : .admitted ∉ closings gone := fun mem => by
    cases mem_of_mem_closings mem
  have course : .admitted ∉ b.outcome agent e := by
    rw [outcome]
    split <;> simp [entries]
  rw [filingMarks]
  split
  · exact fun mem => (List.mem_append.mp mem).elim course (closed _)
  · exact List.not_mem_nil

theorem Agrees.filingMarks (h : Agrees agent b t) (e : Envelope) :
    b.filingMarks agent e = t.filingMarks agent e := by
  have entries (request : Request) : t.entryMarks agent request = b.entryMarks agent request := by
    cases request with
    | unregisterService i =>
      have found : (t.directory.unregister agent i).1 = (b.directory.unregister agent i).1 := by
        rw [Directory.unregister, Directory.unregister, h.offers]
      rw [entryMarks, found]
      rfl
    | unregisterDescription =>
      have found : (t.directory.undescribe agent).1 = (b.directory.undescribe agent).1 := by
        rw [Directory.undescribe, Directory.undescribe, Std.ExtTreeMap.contains_eq_isSome_getElem?,
          h.directory.2, ← Std.ExtTreeMap.contains_eq_isSome_getElem?]
      rw [entryMarks, found]
      rfl
    | _ => rfl
  have course : t.outcome agent e = b.outcome agent e := by
    rw [outcome, outcome]
    split
    · rfl
    · rw [entries]
    · rfl
  rw [Broker.filingMarks, Broker.filingMarks, h.isConnected, h.reach?, course]

def departed (b b' : Broker) (agent : String) : Bool :=
  b.isConnected agent && !b'.isConnected agent

/-- `b'` is `b` without some sessions, and without the negotiations of their agents. -/
structure Departs (b b' : Broker) : Prop where
  sessions : ∀ a, b'.isConnected a → b.isConnected a
  ledger : b'.ledger = b.ledger.without (b.departed b')

theorem Departs.of_eq (sessions : b'.sessions = b.sessions) (ledger : b'.ledger = b.ledger) :
    Departs b b' where
  sessions a present := by
    rw [isConnected, sessions] at present
    exact present
  ledger := by
    have nobody : b.departed b' = fun _ => false := by
      funext a
      rw [departed, isConnected, isConnected, sessions, Bool.and_not_self]
    rw [nobody, Ledger.without_none, ledger]

theorem Departs.trans (h : Departs b b') (h' : Departs b' b'') : Departs b b'' where
  sessions a present := h.sessions a (h'.sessions a present)
  ledger := by
    rw [h'.ledger, h.ledger, Ledger.without_without]
    congr 1
    funext a
    have first := h.sessions a
    have second := h'.sessions a
    rw [departed, departed, departed]
    cases here : b.isConnected a <;> cases there : b'.isConnected a <;>
      cases last : b''.isConnected a <;> simp_all

theorem Departs.drop (connected : b.isConnected agent) : Departs b (b.drop agent) where
  sessions a present := by
    obtain ⟨c, session⟩ := isConnected_iff.mp present
    rw [session?_drop] at session
    split at session
    · cases session
    · exact isConnected_iff.mpr ⟨c, session⟩
  ledger := by
    have alone : b.departed (b.drop agent) = (· == agent) := by
      funext a
      by_cases same : a = agent
      · subst same
        have gone : (b.drop a).isConnected a = false :=
          session?_eq_none_iff.mp (session?_drop.trans (if_pos rfl))
        rw [departed, connected, gone, beq_self_eq_true]
        rfl
      · rw [departed, isConnected_congr (session?_drop.trans (if_neg same)), Bool.and_not_self]
        exact (beq_false_of_ne same).symm
    rw [alone]
    rfl

theorem departs_after_filing (b : Broker) (f : Filing) : Departs b (b.after f.event) := by
  by_cases connected : b.isConnected f.agent
  · obtain ⟨g, -, eq⟩ := after_filing f connected
    rw [eq]
    cases f.envelope.refusal? with
    | none =>
      obtain ⟨directory, edited⟩ := edit_filing b f.now f.agent f.files
      dsimp only
      rw [edited]
      exact .of_eq rfl rfl
    | some n =>
      cases b.reach? f.agent with
      | some c => exact .of_eq rfl rfl
      | none => exact ⟨(Departs.drop connected).sessions, (Departs.drop connected).ledger⟩
  · rw [after_filing_of_absent f connected]
    exact .of_eq rfl rfl

end Broker

end AgentBroker
