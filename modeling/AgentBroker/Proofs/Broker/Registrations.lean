import AgentBroker.Proofs.Broker.Accounts
import AgentBroker.Proofs.Broker.Answers

/-!
# Accounts of registrations

A request of an agent other than a letter succeeds exactly when what it brings passes its check. So
every registration is counted once, as filed or as failed. But a search that fails its check is
counted as a failed registration too.
-/

namespace AgentBroker

namespace Operation

def registers : Operation → Bool
  | registerService | registerDescription => true
  | _ => false

def searches : Operation → Bool
  | searchAgents | searchServices => true
  | _ => false

end Operation

namespace Broker

variable {b : Broker} {e : Event} {marks : List Mark}

theorem run_isOk (b : Broker) (now : Nanos) (agent : String) (msgId : UInt32) {request : Request}
    (plain : request.operation ≠ .sendMessage) :
    (b.run now agent msgId request).1.isOk = request.validate.isOk := by
  by_cases filing : request.isFiling
  · rcases run_filing b now agent msgId filing with ⟨m, failed, -, ran⟩ | ⟨passed, g, ran⟩
    · rw [ran, failed]
      rfl
    · rw [ran, passed]
      rfl
  · cases request with
    | searchAgents s =>
      rw [run, searchAgents, answerSearch_eq, Request.validate]
      cases s.query.validate <;> rfl
    | searchServices s =>
      rw [run, searchServices, answerSearch_eq, Request.validate]
      cases s.query.validate <;> rfl
    | sendMessage letter => exact absurd rfl plain
    | _ => exact absurd rfl filing

theorem dispatch_fst (b : Broker) (now elapsed : Nanos) (agent : String) {e : Envelope}
    {request : Request} (asks : e.request = some request) :
    (b.dispatch now elapsed agent e).1 = (b.run now agent e.msgId request).1 := by
  rw [dispatch, asks]
  dsimp only
  split
  next ran => rw [ran]
  next ran => rw [ran]

theorem dispatch_isOk (b : Broker) (now elapsed : Nanos) (agent : String) {e : Envelope}
    {request : Request} (asks : e.request = some request)
    (plain : request.operation ≠ .sendMessage) :
    (b.dispatch now elapsed agent e).1.isOk = request.validate.isOk := by
  rw [dispatch_fst b now elapsed agent asks, run_isOk b now agent e.msgId plain]

/-- What a request leaves of registrations: a mark if it files something, and one if it fails its
check. -/
theorem Leaves.filed {op : Operation} {result : Except Failure Unit} (h : Leaves op result marks)
    (gone : Bool) :
    (bill op result marks gone).countP (· == .registered) = (op.registers && result.isOk).toNat ∧
    (bill op result marks gone).countP (· == .misfit) =
      (op != .sendMessage && !result.isOk).toNat := by
  cases h with
  | registers op_eq => rcases op_eq with rfl | rfl <;> exact ⟨rfl, rfl⟩
  | unregisters op_eq found => rcases op_eq with rfl | rfl <;> cases found <;> exact ⟨rfl, rfl⟩
  | finds op_eq gone' => rcases op_eq with rfl | rfl <;> cases gone' <;> exact ⟨rfl, rfl⟩
  | misfits op_ne m =>
    have other : (op != .sendMessage) = true := bne_iff_ne.mpr op_ne
    rw [other]
    cases gone <;> exact ⟨by rw [Bool.and_comm]; rfl, rfl⟩
  | strays id destination gone' => cases gone <;> cases gone' <;> exact ⟨rfl, rfl⟩
  | _ => cases gone <;> exact ⟨rfl, rfl⟩

def files (r : Operation × Bool) : Bool := r.1.registers && r.2

def misfits (r : Operation × Bool) : Bool := (r.1.registers || r.1.searches) && !r.2

theorem misfits_served {now elapsed : Nanos} {agent : String} {e : Envelope} {request : Request}
    (asks : e.request = some request) :
    misfits (request.operation, (b.dispatch now elapsed agent e).1.isOk) =
      (request.operation != .sendMessage && !(b.dispatch now elapsed agent e).1.isOk) := by
  cases request with
  | unregisterService i =>
    rw [dispatch_isOk b now elapsed agent asks nofun]
    rfl
  | unregisterDescription =>
    rw [dispatch_isOk b now elapsed agent asks nofun]
    rfl
  | _ => rfl

theorem Entry.filed (h : Entry b e marks) :
    marks.countP (· == .registered) = (b.served e).countP files ∧
    marks.countP (· == .misfit) = (b.served e).countP misfits := by
  have single (p : Operation × Bool → Bool) (r : Operation × Bool) :
      [r].countP p = (p r).toNat := by
    rw [List.countP_singleton]
    cases p r <;> rfl
  cases h with
  | @admits now elapsed awaited => cases awaited <;> exact ⟨rfl, rfl⟩
  | rejects connected => exact ⟨rfl, rfl⟩
  | serves gone connected asks ran left =>
    rw [served_envelope connected asks, single, single, misfits_served asks, ran]
    exact left.filed gone
  | delivers => exact ⟨rfl, rfl⟩
  | loses gone => cases gone <;> exact ⟨rfl, rfl⟩
  | passes minor admission served relays =>
    have none {k : Mark} (major : k.isMinor = false) : marks.countP (· == k) = 0 := by
      refine List.count_eq_zero_of_not_mem fun mem => ?_
      rw [minor k mem] at major
      cases major
    rw [served]
    exact ⟨none rfl, none rfl⟩

theorem countP_outcomes (p : Operation → Bool) (requests : List (Operation × Bool)) :
    requests.countP (fun r => p r.1) =
      requests.countP (fun r => p r.1 && r.2) + requests.countP fun r => p r.1 && !r.2 := by
  rw [List.countP_eq_countP_filter_add requests (fun r => p r.1) (·.2), List.countP_filter,
    List.countP_filter]

theorem countP_misfits (requests : List (Operation × Bool)) :
    requests.countP misfits =
      requests.countP (fun r => r.1.registers && !r.2) +
        requests.countP fun r => r.1.searches && !r.2 := by
  have registering (r : Operation × Bool) :
      (misfits r && r.1.registers) = (r.1.registers && !r.2) := by
    obtain ⟨op, ok⟩ := r
    cases op <;> simp [misfits, Operation.registers, Operation.searches]
  have searching (r : Operation × Bool) :
      (misfits r && !r.1.registers) = (r.1.searches && !r.2) := by
    obtain ⟨op, ok⟩ := r
    cases op <;> simp [misfits, Operation.registers, Operation.searches]
  rw [List.countP_eq_countP_filter_add requests misfits (·.1.registers), List.countP_filter,
    List.countP_filter]
  simp only [registering, searching]

/-- Behind every history, the successful registrations are those of the requests that file something
and do not fail; the failed ones are those that fail, and with them all searches that fail. So the
two account for the requests that file something exactly as long as no search fails. -/
theorem registrations_balance (notifications : NotificationSettings) (events : List Event) :
    let m := (replay notifications events).metrics.directory
    let requests := Run.log after served (start notifications) events
    let failedSearches := requests.countP fun r => r.1.searches && !r.2
    m.registrations = requests.countP (fun r => r.1.registers && r.2) ∧
    m.registrationErrors =
      requests.countP (fun r => r.1.registers && !r.2) + failedSearches ∧
    (m.registrations + m.registrationErrors = requests.countP (·.1.registers) ↔
      failedSearches = 0) := by
  intro m requests failedSearches
  have registrations : m.registrations = requests.countP files :=
    tallied_replay Metrics.tallies_registrations (fun _ => rfl) (·.filed.1) notifications rfl events
  have errors : m.registrationErrors = requests.countP misfits :=
    tallied_replay Metrics.tallies_registrationErrors (fun _ => rfl) (·.filed.2) notifications rfl
      events
  rw [countP_misfits] at errors
  refine ⟨registrations, errors, ?_⟩
  have outcomes := countP_outcomes Operation.registers requests
  have filed : requests.countP files = requests.countP fun r => r.1.registers && r.2 := rfl
  omega

/-- A search without members to choose from counts as a registration that failed. -/
theorem failed_search_counts :
    let query : Query := ⟨[⟨⟨"year", .int, false⟩, .set .isIn []⟩], none⟩
    let events : List Event := [.command 0 0 true (.connect "A" 0 0),
      .command 0 0 true (.envelope "A" ⟨7, some (.searchServices ⟨1, query⟩)⟩)]
    let m := (replay default events).metrics.directory
    let requests := Run.log after served (start default) events
    requests = [(.searchServices, false)] ∧ requests.countP (·.1.registers) = 0 ∧
      m.registrations + m.registrationErrors = 1 := by
  decide +kernel

end Broker

end AgentBroker
