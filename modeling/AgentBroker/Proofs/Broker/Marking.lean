import AgentBroker.Proofs.Broker.Delivery
import AgentBroker.Proofs.Metrics.Marks

/-!
# The marks that commands leave

For every operation of the broker: which marks it leaves in the metrics. An envelope leaves one mark
of its operation, a letter one mark of where it has come to, and every session that comes or goes
one of its own.
-/

namespace AgentBroker

def Failure.marks : Failure → List Mark
  | .breach .. => [.breach]
  | .misfit _ => [.misfit]
  | _ => []

def closings (gone : Bool) : List Mark := if gone then [.closed] else []

theorem mem_of_mem_closings {gone : Bool} {k : Mark} (h : k ∈ closings gone) : k = .closed := by
  cases gone with
  | true => exact List.mem_singleton.mp h
  | false => cases h

namespace Broker

variable {b b' b'' : Broker} {now elapsed : Nanos} {awaited : Bool} {agent : String}

/-- `b'` is `b` after something that leaves these marks, and each session that has come or gone is
marked. -/
structure Marked (b : Broker) (marks : List Mark) (b' : Broker) : Prop where
  metrics : b'.metrics.untimed = b.metrics.untimed.notes marks
  sessions : b'.sessions.size + marks.countP (· == .closed) =
    b.sessions.size + marks.countP (· == .admitted)

namespace Marked

variable {marks more : List Mark}

theorem refl (b : Broker) : Marked b [] b := ⟨rfl, rfl⟩

theorem trans (h : Marked b marks b') (h' : Marked b' more b'') :
    Marked b (marks ++ more) b'' where
  metrics := by rw [Metrics.notes_append, h'.metrics, h.metrics]
  sessions := by
    have first := h.sessions
    have second := h'.sessions
    rw [List.countP_append, List.countP_append]
    omega

theorem withDirectory (b : Broker) (directory : Directory) : Marked b [] { b with directory } :=
  ⟨rfl, rfl⟩

theorem count {f : Metrics → Metrics} {k : Mark} (h : Marked b marks b')
    (counts : ∀ m, (f m).untimed = m.untimed.note k) (stays : k ≠ .closed ∧ k ≠ .admitted) :
    Marked b (marks ++ [k]) (b'.count f) := by
  have step : Marked b' [k] (b'.count f) := by
    refine ⟨counts b'.metrics, ?_⟩
    simp [stays, Broker.count]
  exact h.trans step

theorem tally {f : Metrics → Nat} {p : Mark → Bool} (h : Marked b marks b')
    (tallies : Metrics.Tallies f p) (timeless : ∀ m, f m.untimed = f m) :
    f b'.metrics = f b.metrics + marks.countP p := by
  rw [← timeless, h.metrics, tallies.notes, timeless]

theorem drop (connected : b.isConnected agent) : Marked b [.closed] (b.drop agent) where
  metrics := rfl
  sessions := by
    have held : b.sessions.size ≠ 0 := by
      rw [Ne, ← Std.ExtTreeMap.eq_empty_iff_size_eq_zero]
      intro none
      rw [isConnected, none] at connected
      simp at connected
    have size : (b.sessions.erase agent).size = b.sessions.size - 1 := by
      rw [Std.ExtTreeMap.size_erase]
      exact if_pos connected
    change (b.sessions.erase agent).size + 1 = b.sessions.size
    omega

theorem withSession (fresh : ¬ b.isConnected agent) (channel : Channel) :
    Marked b [.admitted] (b.withSession agent channel) where
  metrics := rfl
  sessions := by
    have size : (b.sessions.insert agent channel).size = b.sessions.size + 1 := by
      rw [Std.ExtTreeMap.size_insert]
      exact if_neg fresh
    exact size

theorem disconnect (b : Broker) (agent : String) :
    ∃ gone, Marked b (closings gone) (b.disconnect agent).2 := by
  rw [Broker.disconnect]
  split
  next connected => exact ⟨true, drop connected⟩
  · exact ⟨false, refl b⟩

theorem disconnectSession (b : Broker) (agent : String) (channel : Channel) :
    ∃ gone, Marked b (closings gone) (b.disconnectSession agent channel).2 := by
  rw [Broker.disconnectSession]
  split
  next session => exact ⟨true, drop (isConnected_iff.mpr ⟨channel, session⟩)⟩
  · exact ⟨false, refl b⟩

theorem put (b : Broker) (c : Channel) (n : Notice) : Marked b [] (b.put c n) := ⟨rfl, rfl⟩

theorem send (b : Broker) (agent : String) (n : Notice) :
    ∃ gone, Marked b (closings gone) (b.send agent n).2 := by
  rw [send_eq]
  cases b.reach? agent with
  | none => exact disconnect b agent
  | some c => exact ⟨false, put b c n⟩

theorem relay (b : Broker) (receiver : String) (n : Notice) :
    (b.relay receiver n).1 = true ∧ Marked b [.routed] (b.relay receiver n).2 ∨
    (b.relay receiver n).1 = false ∧
      ∃ gone, Marked b (closings gone ++ [.unrouted]) (b.relay receiver n).2 := by
  rw [relay_eq]
  cases b.reach? receiver with
  | none =>
    obtain ⟨gone, ended⟩ := disconnect b receiver
    exact .inr ⟨rfl, gone, ended.count (fun _ => rfl) (by decide)⟩
  | some c => exact .inl ⟨rfl, (put b c n).count (fun _ => rfl) (by decide)⟩

theorem report (b : Broker) (agent : String) (msgId : UInt32) (operation : Operation)
    (f : Failure) :
    ∃ gone, Marked b (f.marks ++ closings gone) (b.report agent msgId operation f) := by
  have counted : Marked b f.marks (b.countFailure f) := by
    cases f with
    | breach | misfit => exact (refl b).count (fun _ => rfl) (by decide)
    | _ => exact refl b
  have silent : Marked b (f.marks ++ closings false) (b.countFailure f) := counted.trans (refl _)
  rw [Broker.report]
  split
  · split
    next n told =>
      obtain ⟨gone, sent⟩ := send (b.countFailure f) agent (n.answering msgId)
      exact ⟨gone, counted.trans sent⟩
    · exact ⟨false, silent⟩
  · exact ⟨false, silent⟩

end Marked

/-- How the run of a request can end, and the marks that it leaves. -/
inductive Leaves : Operation → Except Failure Unit → List Mark → Prop
  | registers {op : Operation} (op_eq : op = .registerService ∨ op = .registerDescription) :
      Leaves op (.ok ()) [.registered]
  | unregisters {op : Operation} (op_eq : op = .unregisterService ∨ op = .unregisterDescription)
      (found : Bool) : Leaves op (.ok ()) (if found then [.unregistered] else [])
  | finds {op : Operation} (op_eq : op = .searchAgents ∨ op = .searchServices) (gone : Bool) :
      Leaves op (.ok ()) (.searched :: closings gone)
  | misfits {op : Operation} (op_ne : op ≠ .sendMessage) (m : Misfit) :
      Leaves op (.error (.misfit m)) []
  | arrives : Leaves .sendMessage (.ok ()) [.routed]
  | strays (conversationId destination : String) (gone : Bool) :
      Leaves .sendMessage (.error (.unreachable conversationId destination))
        (closings gone ++ [.unrouted])
  | breaks (breach : Breach) (msgId : UInt32) :
      Leaves .sendMessage (.error (.breach breach msgId)) []

theorem answerSearch_leaves {op : Operation} (op_eq : op = .searchAgents ∨ op = .searchServices)
    (find : Directory → Query → List String) (msgId : UInt32) (s : Search) :
    ∃ marks, Leaves op (answerSearch agent msgId s (b.search find s.query)).1 marks ∧
      Marked b marks (answerSearch agent msgId s (b.search find s.query)).2 := by
  rw [answerSearch_eq]
  cases s.query.validate with
  | error m =>
    have op_ne : op ≠ .sendMessage := by rcases op_eq with rfl | rfl <;> decide
    exact ⟨[], .misfits op_ne m, .refl b⟩
  | ok u =>
    have searched : Marked b [.searched] (b.count .search) :=
      (Marked.refl b).count (fun _ => rfl) (by decide)
    obtain ⟨gone, told⟩ := Marked.send (b.count .search) agent
      ⟨msgId, some (.searchResult s.searchId (find b.directory s.query))⟩
    exact ⟨_, .finds op_eq gone, searched.trans told⟩

theorem sendLetter_leaves (b : Broker) (now : Nanos) (agent : String) (letter : Letter) :
    ∃ marks, Leaves .sendMessage (b.sendLetter now agent letter).1 marks ∧
      Marked b marks (b.sendLetter now agent letter).2 := by
  have sending := sendLetter_spec b now agent letter
  generalize (b.sendLetter now agent letter).1 = result,
    (b.sendLetter now agent letter).2 = after at sending ⊢
  have noted : Marked b [] { b with ledger := b.ledgerAfter now agent letter } := ⟨rfl, rfl⟩
  cases sending with
  | absent gone => exact ⟨_, .strays _ _ false, (Marked.refl b).count (fun _ => rfl) (by decide)⟩
  | refused connected body judged => exact ⟨[], .breaks _ _, .refl b⟩
  | lost connected accepted unreached =>
    have ended := noted.trans (Marked.drop connected)
    exact ⟨_, .strays _ _ true, ended.count (fun _ => rfl) (by decide)⟩
  | @arrives c accepted reached =>
    have arrived := noted.trans (.put _ c (.delivery agent letter.conversationId letter.body))
    exact ⟨_, .arrives, arrived.count (fun _ => rfl) (by decide)⟩

theorem run_leaves (b : Broker) (now : Nanos) (agent : String) (msgId : UInt32)
    (request : Request) :
    ∃ marks, Leaves request.operation (b.run now agent msgId request).1 marks ∧
      Marked b marks (b.run now agent msgId request).2 := by
  cases request with
  | registerService i =>
    rw [run, registerService]
    cases i.validate with
    | error m => exact ⟨[], @Leaves.misfits .registerService (by decide) m, .refl b⟩
    | ok u =>
      have filed := Marked.withDirectory b (b.directory.register agent i)
      exact ⟨_, .registers (.inl rfl), filed.count (fun _ => rfl) (by decide)⟩
  | registerDescription i =>
    rw [run, registerDescription]
    cases i.validate with
    | error m => exact ⟨[], @Leaves.misfits .registerDescription (by decide) m, .refl b⟩
    | ok u =>
      have filed := Marked.withDirectory b (b.directory.describe agent i)
      exact ⟨_, .registers (.inr rfl), filed.count (fun _ => rfl) (by decide)⟩
  | unregisterService i =>
    refine ⟨_, .unregisters (.inl rfl) (b.directory.unregister agent i).1, ?_⟩
    rw [run, unregisterService]
    obtain ⟨found, directory⟩ := b.directory.unregister agent i
    have removed := Marked.withDirectory b directory
    cases found with
    | true => exact removed.count (fun _ => rfl) (by decide)
    | false => exact removed
  | unregisterDescription =>
    refine ⟨_, .unregisters (.inr rfl) (b.directory.undescribe agent).1, ?_⟩
    rw [run, unregisterDescription]
    obtain ⟨found, directory⟩ := b.directory.undescribe agent
    have removed := Marked.withDirectory b directory
    cases found with
    | true => exact removed.count (fun _ => rfl) (by decide)
    | false => exact removed
  | searchAgents s => exact answerSearch_leaves (.inl rfl) _ msgId s
  | searchServices s => exact answerSearch_leaves (.inr rfl) _ msgId s
  | sendMessage letter => exact sendLetter_leaves b now agent letter

def tellings (gone : Bool) : Except Failure Unit → List Mark
  | .ok _ => []
  | .error f => f.marks ++ closings gone

/-- All marks of a request: those of its run, the one of its operation, and those of its failure. -/
def bill (op : Operation) (result : Except Failure Unit) (run : List Mark) (gone : Bool) :
    List Mark :=
  run ++ [.processed op result.isOk] ++ tellings gone result

theorem dispatch_leaves (b : Broker) (now elapsed : Nanos) (agent : String) {e : Envelope}
    {request : Request} (asks : e.request = some request) :
    ∃ result marks gone, (b.dispatch now elapsed agent e).1 = result ∧
      Leaves request.operation result marks ∧
      Marked b (bill request.operation result marks gone) (b.dispatch now elapsed agent e).2 := by
  obtain ⟨marks, left, marked⟩ := run_leaves b now agent e.msgId request
  rw [dispatch, asks]
  dsimp only
  cases ran : b.run now agent e.msgId request with
  | mk result after =>
    rw [ran] at left marked
    cases result with
    | ok u =>
      have counted : Marked b (marks ++ [.processed request.operation true])
          (after.count (·.envelopeProcessed request.operation.label elapsed true)) :=
        marked.count (fun m => m.untimed_envelopeProcessed _ elapsed true) (by simp)
      exact ⟨.ok (), marks, false, rfl, left, counted.trans (.refl _)⟩
    | error f =>
      have counted : Marked b (marks ++ [.processed request.operation false])
          (after.count (·.envelopeProcessed request.operation.label elapsed false)) :=
        marked.count (fun m => m.untimed_envelopeProcessed _ elapsed false) (by simp)
      obtain ⟨gone, told⟩ := Marked.report
        (after.count (·.envelopeProcessed request.operation.label elapsed false)) agent e.msgId
        request.operation f
      exact ⟨.error f, marks, gone, rfl, left, counted.trans told⟩

/-- The requests of connected agents, and whether they succeed. -/
def served (b : Broker) : Event → List (Operation × Bool)
  | .command now elapsed _ (.envelope agent e) =>
    if b.isConnected agent then
      e.operation?.toList.map (·, (b.dispatch now elapsed agent e).1.isOk)
    else []
  | _ => []

def Event.relays : Event → Bool
  | .command _ _ _ (.relay ..) => true
  | _ => false

/-- The marks that an event can leave. -/
inductive Entry (b : Broker) : Event → List Mark → Prop
  | admits {now elapsed : Nanos} {awaited : Bool} {agent : String} {channel : Channel}
      {ticket : Ticket} (fresh : ¬ b.isConnected agent) :
      Entry b (.command now elapsed awaited (.connect agent channel ticket))
        (.admitted :: closings (!awaited))
  | rejects {now elapsed : Nanos} {awaited : Bool} {agent : String} {channel : Channel}
      {ticket : Ticket} (connected : b.isConnected agent) :
      Entry b (.command now elapsed awaited (.connect agent channel ticket)) [.rejected]
  | serves {now elapsed : Nanos} {awaited : Bool} {agent : String} {e : Envelope}
      {request : Request} {result : Except Failure Unit} {marks : List Mark} (gone : Bool)
      (connected : b.isConnected agent) (asks : e.request = some request)
      (ran : (b.dispatch now elapsed agent e).1 = result)
      (left : Leaves request.operation result marks) :
      Entry b (.command now elapsed awaited (.envelope agent e))
        (bill request.operation result marks gone)
  | delivers {now elapsed : Nanos} {awaited : Bool} {receiver : String} {n : Notice}
      {ticket : Ticket} :
      Entry b (.command now elapsed awaited (.relay receiver n ticket)) [.routed]
  | loses {now elapsed : Nanos} {awaited : Bool} {receiver : String} {n : Notice}
      {ticket : Ticket} (gone : Bool) :
      Entry b (.command now elapsed awaited (.relay receiver n ticket))
        (closings gone ++ [.unrouted])
  | passes {e : Event} {marks : List Mark} (minor : ∀ k ∈ marks, k.isMinor)
      (admission : e.admission? = none) (served : b.served e = []) (relays : e.relays = false) :
      Entry b e marks

theorem entry_of_closings {e : Event} (h : ∃ gone, Marked b (closings gone) (b.after e))
    (admission : e.admission? = none) (served : b.served e = []) (relays : e.relays = false) :
    ∃ marks, Entry b e marks ∧ Marked b marks (b.after e) := by
  obtain ⟨gone, marked⟩ := h
  have minor : ∀ k ∈ closings gone, k.isMinor := by
    intro k mem
    rw [mem_of_mem_closings mem]
    rfl
  exact ⟨_, .passes minor admission served relays, marked⟩

theorem search_entry (b : Broker) (find : Directory → Query → List String) (q : Query) :
    ∃ marks, (∀ k ∈ marks, k.isMinor) ∧ Marked b marks (b.search find q).2 := by
  rw [search]
  cases q.validate with
  | error m => exact ⟨[], List.forall_mem_nil _, .refl b⟩
  | ok u =>
    have counted : Marked b [.searched] (b.count .search) :=
      (Marked.refl b).count (fun _ => rfl) (by decide)
    exact ⟨[.searched], by simp [Mark.isMinor], counted⟩

theorem connect_entry (b : Broker) (now elapsed : Nanos) (awaited : Bool) (agent : String)
    (channel : Channel) (ticket : Ticket) :
    ∃ marks, Entry b (.command now elapsed awaited (.connect agent channel ticket)) marks ∧
      Marked b marks (b.after (.command now elapsed awaited (.connect agent channel ticket))) := by
  rw [after, apply]
  by_cases connected : b.isConnected agent
  · rw [connect, if_pos connected]
    exact ⟨_, .rejects connected, (Marked.refl b).count (fun _ => rfl) (by decide)⟩
  · have came := Marked.withSession connected channel
    refine ⟨_, .admits connected, ?_⟩
    rw [connect_eq connected]
    cases awaited with
    | true => exact came
    | false =>
      have admitted : (b.withSession agent channel).isConnected agent :=
        isConnected_iff.mpr ⟨channel, by rw [session?_withSession, if_pos rfl]⟩
      simp only [disconnect, if_pos admitted]
      exact came.trans (.drop admitted)

theorem envelope_entry (b : Broker) (now elapsed : Nanos) (awaited : Bool) (agent : String)
    (e : Envelope) :
    ∃ marks, Entry b (.command now elapsed awaited (.envelope agent e)) marks ∧
      Marked b marks (b.after (.command now elapsed awaited (.envelope agent e))) := by
  rw [after, apply]
  by_cases connected : b.isConnected agent
  · rw [if_pos connected]
    cases asks : e.request with
    | some request =>
      obtain ⟨result, marks, gone, ran, left, marked⟩ :=
        dispatch_leaves b now elapsed agent asks
      exact ⟨_, .serves gone connected asks ran left, marked⟩
    | none =>
      have unserved : b.served (.command now elapsed awaited (.envelope agent e)) = [] := by
        simp [served, Envelope.operation?, asks]
      rw [dispatch, asks]
      exact ⟨[.undecoded], .passes (by simp [Mark.isMinor]) rfl unserved rfl,
        (Marked.refl b).count (fun _ => rfl) (by decide)⟩
  · rw [if_neg connected]
    exact ⟨[], .passes (List.forall_mem_nil _) rfl (if_neg connected) rfl, .refl b⟩

theorem after_entry (b : Broker) (e : Event) :
    ∃ marks, Entry b e marks ∧ Marked b marks (b.after e) := by
  cases e with
  | command now elapsed awaited c =>
    cases c with
    | connect agent channel ticket => exact connect_entry b now elapsed awaited agent channel ticket
    | envelope agent e => exact envelope_entry b now elapsed awaited agent e
    | disconnect agent => exact entry_of_closings (Marked.disconnect b agent) rfl rfl rfl
    | disconnectSession agent channel =>
      refine entry_of_closings ?_ rfl rfl rfl
      rw [after, apply]
      split
      · exact Marked.disconnectSession b agent channel
      · exact ⟨false, .refl b⟩
    | send agent n => exact entry_of_closings (Marked.send b agent n) rfl rfl rfl
    | relay receiver n ticket =>
      rcases Marked.relay b receiver n with ⟨-, marked⟩ | ⟨-, gone, marked⟩
      · exact ⟨_, .delivers, marked⟩
      · exact ⟨_, .loses gone, marked⟩
    | searchAgents q ticket =>
      obtain ⟨marks, minor, marked⟩ := search_entry b Directory.searchAgents q
      exact ⟨marks, .passes minor rfl rfl rfl, marked⟩
    | searchServices q ticket =>
      obtain ⟨marks, minor, marked⟩ := search_entry b Directory.searchServices q
      exact ⟨marks, .passes minor rfl rfl rfl, marked⟩
    | expireIdle maxIdle =>
      have counted :
          Marked b [.expired (b.expireIdle now maxIdle).1] (b.expireIdle now maxIdle).2 := ⟨rfl, rfl⟩
      exact ⟨_, .passes (by simp [Mark.isMinor]) rfl rfl rfl, counted⟩
    | stats ticket => exact entry_of_closings ⟨false, .refl b⟩ rfl rfl rfl
    | sessions ticket => exact entry_of_closings ⟨false, .refl b⟩ rfl rfl rfl
    | stop => exact entry_of_closings ⟨false, .refl b⟩ rfl rfl rfl
  | _ => exact entry_of_closings ⟨false, rfl, rfl⟩ rfl rfl rfl

end Broker

end AgentBroker
