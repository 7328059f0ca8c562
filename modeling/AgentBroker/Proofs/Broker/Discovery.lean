import AgentBroker.Proofs.Broker.Ownership
import Mathlib.Data.List.Induction

/-!
# Discovery

A search finds exactly the agents for which the history says so: what was last done to one of their
entries is that a fitting instance was filed.
-/

namespace AgentBroker

/-- What is done to an entry of the directory. -/
inductive Touch where
  | filed (i : Instance)
  | withdrawn
  /-- The agent has lost its session. -/
  | removed

def Touch.item? : Touch → Option Instance
  | .filed i => some i
  | .withdrawn | .removed => none

/-- What an accepted request does to the service of its sender under a model name. -/
def Request.serviceTouch? (model : String) : Request → Option Touch
  | .registerService i =>
    if i.validate.isOk ∧ i.model.name = model then some (.filed i) else none
  | .unregisterService i => if i.model.name = model then some .withdrawn else none
  | _ => none

def Request.descriptionTouch? : Request → Option Touch
  | .registerDescription i => if i.validate.isOk then some (.filed i) else none
  | .unregisterDescription => some .withdrawn
  | _ => none

namespace Broker

variable {b b' : Broker} {now elapsed : Nanos} {agent model : String}

/-- The event is a request of the agent, which is connected. -/
def heard? (b : Broker) (agent : String) : Event → Option Request
  | .command _ _ _ c => if b.isConnected agent then c.request? agent else none
  | _ => none

/-- The event is an admission that nobody awaits any more. -/
def Event.abandons (agent : String) : Event → Bool
  | .command _ _ awaited (.connect other _ _) => other = agent && !awaited
  | _ => false

/-- The event removes a session of the agent, the one it found or one that it admitted itself. -/
def endsSession (b : Broker) (agent : String) (e : Event) : Bool :=
  if b.isConnected agent then !(b.after e).isConnected agent else e.abandons agent

def touches (touch? : Request → Option Touch) (agent : String) (b : Broker) (e : Event) :
    List Touch :=
  ((b.heard? agent e).bind touch?).toList ++ if b.endsSession agent e then [.removed] else []

def serviceTouches (notifications : NotificationSettings) (agent model : String)
    (events : List Event) : List Touch :=
  Run.log after (touches (Request.serviceTouch? model) agent) (.start notifications) events

def descriptionTouches (notifications : NotificationSettings) (agent : String)
    (events : List Event) : List Touch :=
  Run.log after (touches Request.descriptionTouch? agent) (.start notifications) events

theorem isConnected_after_of_endsSession {e : Event} (h : b.endsSession agent e) :
    (b.after e).isConnected agent = false := by
  rw [endsSession] at h
  split at h
  · exact Bool.not_eq_true' _ ▸ h
  next fresh =>
    cases e with
    | command now elapsed awaited c =>
      cases c with
      | connect other channel ticket =>
        simp only [Event.abandons, Bool.and_eq_true, decide_eq_true_eq, Bool.not_eq_true'] at h
        obtain ⟨rfl, rfl⟩ := h
        have connected : (b.withSession other channel).isConnected other :=
          isConnected_iff.mpr ⟨channel, by rw [session?_withSession, if_pos rfl]⟩
        rw [after, apply, connect_eq fresh]
        simp only [disconnect, if_pos connected]
        exact session?_eq_none_iff.mp (by simp [session?_drop])
      | _ => cases h
    | _ => cases h

/-- One of the parts of a directory that hold at most one entry for each agent: what its entries are
and which requests touch them. -/
structure Listing where
  item? : Directory → String → Option Instance
  touch? : Request → Option Touch
  empty : ∀ agent, item? .empty agent = none
  same : ∀ {d d' : Directory} {agent}, d.SameFor d' agent → item? d' agent = item? d agent
  lacks : ∀ {d : Directory} {agent}, d.Lacks agent → item? d agent = none
  /-- A request touches the entry of its sender, and no other. -/
  edit : ∀ (b : Broker) now sender request agent,
    item? (b.edit now sender request).directory agent =
      if agent = sender then (touch? request).elim (item? b.directory agent) Touch.item?
      else item? b.directory agent

theorem service?_edit (sender : String) (request : Request) :
    (b.edit now sender request).directory.service? agent model =
      if agent = sender then
        (request.serviceTouch? model).elim (b.directory.service? agent model) Touch.item?
      else b.directory.service? agent model := by
  cases request with
  | registerService i =>
    rw [edit, Request.serviceTouch?]
    cases valid : i.validate.isOk with
    | false => simp
    | true =>
      rw [if_pos rfl, Directory.service?_register]
      by_cases sent : agent = sender
      · by_cases named : i.model.name = model
        · simp [sent, named, Touch.item?]
        · simp [sent, named, Ne.symm named]
      · simp [sent]
  | unregisterService i =>
    rw [edit, Request.serviceTouch?, Directory.service?_unregister]
    by_cases sent : agent = sender
    · by_cases named : i.model.name = model
      · simp [sent, named, Touch.item?]
      · simp [sent, named, Ne.symm named]
    · simp [sent]
  | registerDescription i =>
    rw [edit]
    cases i.validate.isOk with
    | false => exact (ite_self _).symm
    | true => exact (ite_self _).symm
  | unregisterDescription => exact (ite_self _).symm
  | searchAgents s => exact (ite_self _).symm
  | searchServices s => exact (ite_self _).symm
  | sendMessage letter =>
    rw [edit]
    split
    · exact (ite_self _).symm
    · exact (ite_self _).symm

theorem description?_edit (sender : String) (request : Request) :
    (b.edit now sender request).directory.description? agent =
      if agent = sender then
        request.descriptionTouch?.elim (b.directory.description? agent) Touch.item?
      else b.directory.description? agent := by
  cases request with
  | registerDescription i =>
    rw [edit, Request.descriptionTouch?]
    cases valid : i.validate.isOk with
    | false => simp
    | true => rw [if_pos rfl, Directory.description?_describe]; rfl
  | unregisterDescription =>
    rw [edit, Request.descriptionTouch?, Directory.description?_undescribe]
    rfl
  | registerService i =>
    rw [edit]
    cases i.validate.isOk with
    | false => exact (ite_self _).symm
    | true => exact (ite_self _).symm
  | unregisterService i => exact (ite_self _).symm
  | searchAgents s => exact (ite_self _).symm
  | searchServices s => exact (ite_self _).symm
  | sendMessage letter =>
    rw [edit]
    split
    · exact (ite_self _).symm
    · exact (ite_self _).symm

def serviceListing (model : String) : Listing where
  item? d agent := d.service? agent model
  touch? := Request.serviceTouch? model
  empty _ := Directory.service?_empty
  same h := h.service? model
  lacks h := h.service? model
  edit _ _ sender request _ := service?_edit sender request

def descriptionListing : Listing where
  item? d agent := d.description? agent
  touch? := Request.descriptionTouch?
  empty _ := Directory.description?_empty
  same h := h.2
  lacks h := h.2
  edit _ _ sender request _ := description?_edit sender request

private theorem getLast?_toList {α : Type} (o : Option α) : o.toList.getLast? = o := by
  cases o with
  | none => rfl
  | some a => rfl

namespace Listing

variable (l : Listing)

theorem item?_effect {c : Command} (coherent : b.Coherent) (effect : Effect b now c b')
    (kept : b.isConnected agent → b'.isConnected agent) :
    l.item? b'.directory agent =
      ((if b.isConnected agent then c.request? agent else none).bind l.touch?).elim
        (l.item? b.directory agent) Touch.item? := by
  -- without a session before the command there is no entry, so losing the session changes nothing
  have unconnected (gone : b'.session? agent = none) : b.isConnected agent = false := by
    rw [← Bool.not_eq_true]
    intro connected
    rw [session?_eq_none_iff, kept connected] at gone
    cases gone
  cases effect with
  | admits fresh =>
    simp only [Command.request?, ite_self]
    rfl
  | @serves sender e request _ connected asks answered =>
    obtain ⟨answers, rest, -⟩ := answered
    rcases rest.agents agent with ⟨-, same⟩ | ⟨gone, lacks⟩
    · rw [l.same same, l.edit, Command.request?]
      by_cases sent : agent = sender
      · rw [sent, if_pos rfl, if_pos connected, if_pos rfl, asks]
        rfl
      · rw [if_neg sent, if_neg (Ne.symm sent), ite_self]
        rfl
    · rw [l.lacks lacks, unconnected gone, l.lacks (coherent.lacks (unconnected gone))]
      rfl
  | keeps rest silent idle =>
    have unasked : (if b.isConnected agent then c.request? agent else none) = none := by
      split
      next connected =>
        rw [Option.eq_none_iff_forall_ne_some]
        intro request asks
        exact idle agent request asks connected
      · rfl
    rw [unasked]
    rcases rest.agents agent with ⟨-, same⟩ | ⟨gone, lacks⟩
    · exact l.same same
    · rw [l.lacks lacks, l.lacks (coherent.lacks (unconnected gone))]
      rfl

theorem item?_after (coherent : b.Coherent) (agent : String) (e : Event) :
    l.item? (b.after e).directory agent =
      (b.touches l.touch? agent e).getLast?.elim (l.item? b.directory agent) Touch.item? := by
  rw [touches]
  cases ends : b.endsSession agent e with
  | true =>
    rw [l.lacks ((coherent.after e).lacks (isConnected_after_of_endsSession ends)), if_pos rfl,
      List.getLast?_concat]
    rfl
  | false =>
    have kept (connected : b.isConnected agent) : (b.after e).isConnected agent := by
      rw [endsSession, if_pos connected] at ends
      exact Bool.not_eq_false' _ ▸ ends
    rw [if_neg Bool.false_ne_true, List.append_nil, getLast?_toList]
    cases e with
    | command now elapsed awaited c =>
      exact l.item?_effect coherent (apply_effect b now elapsed awaited c) kept
    | _ => rfl

/-- Behind every history, an entry is what its last touch has made of it. -/
theorem item?_replay (notifications : NotificationSettings) (agent : String)
    (events : List Event) :
    l.item? (replay notifications events).directory agent =
      (Run.log after (touches l.touch? agent) (.start notifications) events).getLast?.bind
        Touch.item? := by
  induction events using List.reverseRecOn with
  | nil => exact l.empty agent
  | append_singleton before e ih =>
    have step := l.item?_after (coherent_replay notifications before) agent e
    rw [replay_append, Run.log_concat, List.getLast?_append]
    refine step.trans ?_
    rw [ih]
    change _ = (((replay notifications before).touches l.touch? agent e).getLast?.or _).bind _
    cases ((replay notifications before).touches l.touch? agent e).getLast? with
    | none => rfl
    | some t => rfl

end Listing

theorem bind_item?_eq_some {t : Option Touch} {i : Instance} :
    t.bind Touch.item? = some i ↔ t = some (.filed i) := by
  constructor
  · intro h
    obtain ⟨touch, rfl, entry⟩ := Option.bind_eq_some_iff.mp h
    cases touch with
    | filed j =>
      cases entry
      rfl
    | withdrawn => cases entry
    | removed => cases entry
  · rintro rfl
    rfl

theorem search_ok {find : Directory → Query → List String} {q : Query}
    (valid : q.validate = .ok ()) : (b.search find q).1 = .ok (find b.directory q) := by
  rw [search, valid]

/-- Services are found by the last touches of their names, agents by the last touches of their
descriptions. -/
theorem search_exact (notifications : NotificationSettings) (events : List Event) {q : Query}
    (valid : q.validate = .ok ()) :
    (∃ found, ((replay notifications events).searchServices q).1 = .ok found ∧
      found.Pairwise (· < ·) ∧
      ∀ agent, agent ∈ found ↔ ∃ model i,
        (serviceTouches notifications agent model events).getLast? = some (.filed i) ∧ q.check i) ∧
    ∃ found, ((replay notifications events).searchAgents q).1 = .ok found ∧
      found.Pairwise (· < ·) ∧
      ∀ agent, agent ∈ found ↔ ∃ i,
        (descriptionTouches notifications agent events).getLast? = some (.filed i) ∧ q.check i := by
  constructor
  · refine ⟨_, search_ok valid, Directory.pairwise_searchServices q, ?_⟩
    intro agent
    rw [Directory.mem_searchServices]
    refine exists_congr fun model => exists_congr fun i => and_congr_left fun _ => ?_
    rw [serviceTouches, ← bind_item?_eq_some]
    exact Eq.congr_left ((serviceListing model).item?_replay notifications agent events)
  · refine ⟨_, search_ok valid, Directory.pairwise_searchAgents q, ?_⟩
    intro agent
    rw [Directory.mem_searchAgents]
    refine exists_congr fun i => and_congr_left fun _ => ?_
    rw [descriptionTouches, ← bind_item?_eq_some]
    exact Eq.congr_left (descriptionListing.item?_replay notifications agent events)

/-- A query that asks for nothing, after a seller has filed a book. -/
theorem search_exact_book :
    let events : List Event :=
      [.command 0 0 true (.connect "seller" 0 0),
        .command 0 0 false
          (.envelope "seller" (.ofRequest (.registerService ⟨⟨"book", [], ""⟩, ∅⟩)))]
    let q : Query := ⟨[], none⟩
    q.validate = .ok () ∧
    ∃ found, ((replay default events).searchServices q).1 = .ok found ∧ found.Pairwise (· < ·) ∧
      ∀ agent, agent ∈ found ↔ ∃ model i,
        (serviceTouches default agent model events).getLast? = some (.filed i) ∧ q.check i :=
  ⟨rfl, (search_exact default _ rfl).1⟩

end Broker

end AgentBroker
