import AgentBroker.Proofs.Broker.Filing

/-!
# The order of filings

When several agents file at the same time, nobody can see in which order the broker takes their
envelopes, as long as it takes those of each agent in their order.
-/

namespace AgentBroker

namespace Filing

def envelopeOf? (agent : String) (f : Filing) : Option Envelope :=
  if f.agent = agent then some f.envelope else none

/-- The filings are the streams of the agents, each in its order. -/
def Interleaves (streams : String → List Envelope) (filings : List Filing) : Prop :=
  ∀ agent, filings.filterMap (envelopeOf? agent) = streams agent

theorem interleaves_swap {f f' : Filing} (apart : f.agent ≠ f'.agent) :
    Interleaves (fun agent => [f, f'].filterMap (envelopeOf? agent)) [f', f] := by
  intro agent
  by_cases own : f.agent = agent
  · have foreign : f'.agent ≠ agent := fun same => apart (own.trans same.symm)
    simp [envelopeOf?, own, foreign]
  · by_cases own' : f'.agent = agent <;> simp [envelopeOf?, own, own']

end Filing

namespace Broker

def file (b : Broker) (f : Filing) : Broker := b.after f.event

variable {b t : Broker} {agent : String} {channel : Channel} {streams : String → List Envelope}
  {xs ys : List Filing}

/-- What filings leave behind, if it depends on what is known of their agents, is the same for every
agent in all interleavings, and the same is known of the agent behind them. -/
theorem interleavings_agree {α : Type} {leave : Broker → String → Envelope → List α}
    (seen : ∀ {agent b t}, Agrees agent b t → ∀ e, leave b agent e = leave t agent e)
    (hx : Filing.Interleaves streams xs) (hy : Filing.Interleaves streams ys) (b : Broker)
    (agent : String) :
    let shares := Run.share Filing.agent (fun b f => leave b f.agent f.envelope) agent
    Agrees agent (Run.last file b xs) (Run.last file b ys) ∧
      Run.log file shares b xs = Run.log file shares b ys := by
  intro shares
  -- Both runs are those of the agent's stream alone, each envelope processed in no time.
  have mine (b t : Broker) (f : Filing) (e : Envelope) (own : f.envelopeOf? agent = some e)
      (h : Agrees agent b t) :
      Agrees agent (b.file f) (t.after (.command 0 0 false (.envelope agent e))) ∧
        shares b f = leave t agent e := by
    rw [Filing.envelopeOf?] at own
    split at own
    next same =>
      cases own
      subst same
      exact ⟨h.filing, (if_pos rfl).trans (seen h _)⟩
    · cases own
  have others (b t : Broker) (f : Filing) (foreign : f.envelopeOf? agent = none)
      (h : Agrees agent b t) : Agrees agent (b.file f) t ∧ shares b f = [] := by
    rw [Filing.envelopeOf?] at foreign
    split at foreign
    · cases foreign
    next apart =>
      exact ⟨(agrees_after_filing_of_ne b (Ne.symm apart)).symm.trans h, if_neg apart⟩
  obtain ⟨agrees, left⟩ := Run.last_project mine others (.refl agent b) xs
  obtain ⟨agrees', left'⟩ := Run.last_project mine others (.refl agent b) ys
  rw [hx agent] at agrees left
  rw [hy agent] at agrees' left'
  exact ⟨agrees.trans agrees'.symm, left.trans left'.symm⟩

def complaintsIn (channel : Channel) (b : Broker) (agent : String) (e : Envelope) : List Notice :=
  ((b.complaints agent e).filter (·.1 == channel)).map (·.2)

theorem arrivals_filing (b : Broker) (f : Filing) :
    b.arrivals channel f.event = b.complaintsIn channel f.agent f.envelope := by
  rw [arrivals, posted_filing, complaintsIn]

theorem contents_filings (b : Broker) (filings : List Filing) :
    (Run.last file b filings).mailboxes.contents channel =
      b.mailboxes.contents channel ++
        Run.log file (fun b f => b.complaintsIn channel f.agent f.envelope) b filings := by
  have kept : ∀ e ∈ filings.map Filing.event, e.empties channel = false := by
    intro e mem
    obtain ⟨f, -, rfl⟩ := List.mem_map.mp mem
    rfl
  have events : Run.last after b (filings.map Filing.event) = Run.last file b filings :=
    List.foldl_map
  have contents := contents_last kept (b := b)
  rw [events, arrived, Run.log_map] at contents
  simp only [arrivals_filing] at contents
  exact contents

theorem log_complaintsIn (used : b.UsedOnlyBy channel (· = agent)) (filings : List Filing) :
    Run.log file (fun b f => b.complaintsIn channel f.agent f.envelope) b filings =
      Run.log file
        (Run.share Filing.agent (fun b f => b.complaintsIn channel f.agent f.envelope) agent)
        b filings := by
  refine Run.log_congr b filings fun past f later _ => ?_
  have still : (Run.last file b past).UsedOnlyBy channel (· = agent) :=
    Run.last_induction (P := UsedOnlyBy channel (· = agent))
      (fun s f h => h.after f.event fun _ admission => by cases admission) b used past
  rw [Run.share]
  split
  · rfl
  next apart =>
    rw [complaintsIn, List.map_eq_nil_iff, List.filter_eq_nil_iff]
    intro p mem own
    exact apart (still f.agent (eq_of_beq own ▸ session_of_mem_complaints mem))

theorem eq_of_agrees (h : ∀ agent, Agrees agent b t) :
    b.sessions = t.sessions ∧ b.directory = t.directory := by
  have sessions : b.sessions = t.sessions :=
    Std.ExtTreeMap.ext_getElem? fun agent => (h agent).session.symm
  have services : b.directory.services = t.directory.services :=
    Std.ExtTreeMap.ext_getElem? fun agent => (h agent).directory.1.symm
  have descriptions : b.directory.descriptions = t.directory.descriptions :=
    Std.ExtTreeMap.ext_getElem? fun agent => (h agent).directory.2.symm
  have directory : Directory.mk b.directory.services b.directory.descriptions =
      ⟨t.directory.services, t.directory.descriptions⟩ := by rw [services, descriptions]
  exact ⟨sessions, directory⟩

theorem ledger_filings (b : Broker) (filings : List Filing) :
    (Run.last file b filings).ledger =
      b.ledger.without (b.departed (Run.last file b filings)) :=
  (Run.last_induction (P := b.Departs) (fun s f h => h.trans (departs_after_filing s f)) b
    (.of_eq rfl rfl) filings).ledger

theorem untimed_filings (b : Broker) (filings : List Filing) :
    (Run.last file b filings).metrics.untimed = b.metrics.untimed.notes
      (Run.log file (fun b f => b.filingMarks f.agent f.envelope) b filings) :=
  Run.foldl_last (f := fun b => b.metrics.untimed) untimed_after_filing b filings

/-- All interleavings of the agents' streams lead to the same sessions, directory, ledger and
counts, and tell every agent the same in the same order. A mailbox that one agent uses at most holds
the same notices in the same order behind them, and a shared one the same notices in some order. -/
theorem filings_commute (hx : Filing.Interleaves streams xs) (hy : Filing.Interleaves streams ys)
    (b : Broker) :
    let x := Run.last file b xs
    let y := Run.last file b ys
    (x.sessions = y.sessions ∧ x.directory = y.directory ∧ x.ledger = y.ledger ∧
      x.metrics.untimed = y.metrics.untimed) ∧
    (∀ agent, Run.log file (Run.share Filing.agent (fun b f => b.posted f.event) agent) b xs =
      Run.log file (Run.share Filing.agent (fun b f => b.posted f.event) agent) b ys) ∧
    ∀ channel, (x.mailboxes.contents channel).Perm (y.mailboxes.contents channel) ∧
      ∀ agent, b.UsedOnlyBy channel (· = agent) →
        x.mailboxes.contents channel = y.mailboxes.contents channel := by
  intro x y
  have marks := interleavings_agree Agrees.filingMarks hx hy b
  have posts := interleavings_agree Agrees.complaints hx hy b
  obtain ⟨sessions, directory⟩ := eq_of_agrees fun agent => (marks agent).1
  have ledger : x.ledger = y.ledger := by
    have same : b.departed x = b.departed y := by
      funext agent
      rw [departed, departed, isConnected_congr (marks agent).1.session]
    rw [ledger_filings, ledger_filings]
    exact congrArg b.ledger.without same
  have metrics : x.metrics.untimed = y.metrics.untimed := by
    rw [untimed_filings, untimed_filings]
    refine Metrics.notes_perm _ (Run.log_perm fun agent => (marks agent).2) fun mem => ?_
    obtain ⟨past, f, later, -, here⟩ := Run.exists_of_mem_log mem
    exact not_mem_filingMarks _ f.agent f.envelope here
  refine ⟨⟨sessions, directory, ledger, metrics⟩, ?_, fun channel => ?_⟩
  · simp only [posted_filing]
    exact fun agent => (posts agent).2
  · have seen {agent : String} {b t : Broker} (h : Agrees agent b t) (e : Envelope) :
        b.complaintsIn channel agent e = t.complaintsIn channel agent e := by
      rw [complaintsIn, complaintsIn, h.complaints]
    have arrive := interleavings_agree seen hx hy b
    rw [contents_filings, contents_filings]
    refine ⟨(Run.log_perm fun agent => (arrive agent).2).append_left _, fun agent used => ?_⟩
    rw [log_complaintsIn used, log_complaintsIn used]
    exact congrArg (_ ++ ·) (arrive agent).2

/-- Two agents file, one of them with a mailbox that nobody reads any more. -/
theorem filings_commute_closed :
    let b := replay default [.command 0 0 true (.connect "A" 0 0),
      .command 0 0 true (.connect "B" 1 1), .close 1]
    let untitled : Instance := ⟨⟨"book", [⟨"title", .string, true⟩], "a book"⟩, ∅⟩
    let f : Filing := ⟨0, 0, true, "A", 1, .unregisterDescription, rfl⟩
    let f' : Filing := ⟨0, 0, true, "B", 2, .registerService untitled, rfl⟩
    let streams agent := [f, f'].filterMap (Filing.envelopeOf? agent)
    Filing.Interleaves streams [f, f'] ∧ Filing.Interleaves streams [f', f] ∧
      (Run.last file b [f, f']).sessions = (Run.last file b [f', f]).sessions ∧
      (Run.last file b [f', f]).agents = ["A"] := by
  intro b untitled f f' streams
  have swap : Filing.Interleaves streams [f', f] := Filing.interleaves_swap (by decide)
  exact ⟨fun _ => rfl, swap, (filings_commute (fun _ => rfl) swap b).1.1, by decide +kernel⟩

/-- Agents that share a mailbox can see in which order their filings are taken. -/
theorem shared_mailbox_orders_filings :
    let b := replay default [.command 0 0 true (.connect "A" 0 0),
      .command 0 0 true (.connect "B" 0 1)]
    let untitled : Instance := ⟨⟨"book", [⟨"title", .string, true⟩], "a book"⟩, ∅⟩
    let f : Filing := ⟨0, 0, true, "A", 1, .registerService untitled, rfl⟩
    let f' : Filing := ⟨0, 0, true, "B", 2, .registerService untitled, rfl⟩
    let streams agent := [f, f'].filterMap (Filing.envelopeOf? agent)
    Filing.Interleaves streams [f, f'] ∧ Filing.Interleaves streams [f', f] ∧
      b.session? "A" = some 0 ∧
      (Run.last file b [f, f']).mailboxes.contents 0 ≠
        (Run.last file b [f', f]).mailboxes.contents 0 := by
  intro b untitled f f' streams
  have swap : Filing.Interleaves streams [f', f] := Filing.interleaves_swap (by decide)
  have numbers : ((Run.last file b [f, f']).mailboxes.contents 0).map (·.answerId) = [1, 2] := by
    decide +kernel
  have numbers' : ((Run.last file b [f', f]).mailboxes.contents 0).map (·.answerId) = [2, 1] := by
    decide +kernel
  refine ⟨fun _ => rfl, swap, by decide +kernel, fun same => ?_⟩
  rw [same, numbers'] at numbers
  cases numbers

end Broker

end AgentBroker
