import AgentBroker.Proofs.Handshake.Meeting
import AgentBroker.Proofs.Handshake.Undoing

/-!
# What a meeting comes to

When both have left, both have succeeded or both have failed. They have succeeded if the key is an
agent id, every message fits, and the scheduler, when it was asked, was at work and had no session
of the agent.
-/

namespace AgentBroker

open AgentBroker.Frame AgentBroker.Reading Scheduler

theorem Scheduler.Numbered.counting {s : Scheduler} (h : s.Numbered) (f : Metrics → Metrics) :
    (s.counting f).Numbered :=
  ⟨⟨h.ticketed.queue, h.ticketed.replies⟩, h.abandoned⟩

theorem Gate.not_abandon_of_mem_dealings {g : Gate} (t : Ticket) : .abandon t ∉ g.dealings := by
  intro mem
  rcases Gate.mem_dealings mem with ⟨id, -, own⟩ | ⟨id, cause, -, own⟩ | ⟨maxIdle, own⟩ |
    ⟨now, own⟩ | ⟨t', own⟩
  all_goals cases own

namespace Meeting

variable {l : Meeting} {max : Nat} {key phrase : String} {channel : Channel}
  {given written : Bytes} {asked : List Command} {heard : List Reply} {moves : List Move}

theorem scheduler_gatekeeper (l : Meeting) :
    ∃ f, (l.act .gatekeeper).scheduler =
      (l.scheduler.after l.far.state.dealings).counting f := by
  have moved := l.entrance.scheduler_act .go
  rw [Entrance.act, ← entrance_gatekeeper] at moved
  exact moved

theorem scheduler_applicant (l : Meeting) : (l.act .applicant).scheduler = l.scheduler := by
  rw [act, Link.stepNear?]
  cases l.near.step? l.now l.inward l.outward with
  | some found => rfl
  | none =>
    cases l.near.wake? l.now with
    | some near => rfl
    | none => rfl

theorem numbered_act (h : l.scheduler.Numbered) {m : Move} (made : m.IsMade l) :
    (l.act m).scheduler.Numbered := by
  cases m with
  | applicant => exact l.scheduler_applicant ▸ h
  | gatekeeper =>
    obtain ⟨f, moved⟩ := l.scheduler_gatekeeper
    rw [moved]
    exact (h.after Gate.not_abandon_of_mem_dealings).counting f
  | wait span => exact h
  | elsewhere a => exact h.act made

theorem numbered_after (h : l.scheduler.Numbered) (undisturbed : l.Undisturbed moves) :
    (l.after moves).scheduler.Numbered := by
  induction moves generalizing l with
  | nil => exact h
  | cons m rest ih =>
    obtain ⟨-, made, later⟩ := undisturbed
    exact ih (numbered_act h made) later

/-- The scheduler has been asked, and welcomed the applicant. -/
def Granted (key : String) (l : Meeting) (moves : List Move) : Prop :=
  ∃ past rest, moves = past ++ .gatekeeper :: rest ∧
    (l.after past).keeper.stage = .admission key ∧ (l.after past).timeline.Welcomes key

theorem exists_asking (meets : Meets max key phrase channel [] [] [] [] l)
    (undisturbed : l.Undisturbed moves) {r : Reply} (mem : r ∈ l.heard moves) :
    ∃ past rest, moves = past ++ .gatekeeper :: rest ∧ l.Undisturbed past ∧
      (l.after past).keeper.stage = .admission key ∧
      r = ((l.after past).timeline.request (.connect key (l.after past).far.state.channel)).1 := by
  obtain ⟨past, m, rest, split, hears⟩ := Run.exists_of_mem_log mem
  rw [split, undisturbed_append] at undisturbed
  cases m with
  | gatekeeper =>
    have heard : r ∈ (l.after past).entrance.hears .go := hears
    obtain ⟨-, id, stage, reply⟩ := Entrance.stage_of_hears heard
    have hosts := (meets.run undisturbed.1).hosts
    rw [show (l.after past).keeper.stage = .admission id from stage] at hosts
    cases hosts.id_eq
    exact ⟨past, rest, split, undisturbed.1, stage, reply⟩
  | _ => cases hears

theorem granted_iff (meets : Meets max key phrase channel [] [] [] [] l)
    (numbered : l.scheduler.Numbered) (undisturbed : l.Undisturbed moves) :
    Granted key l moves ↔ .admitted true ∈ l.heard moves := by
  constructor
  · rintro ⟨past, rest, rfl, stage, welcomes⟩
    have before := (undisturbed_append l _ _).mp undisturbed
    have reply := (@Timeline.admitted_iff_welcomes _ _ (l.after past).far.state.channel
      (numbered_after numbered before.1)).mpr welcomes
    have here : (l.after past).hears .gatekeeper = [.admitted true] := by
      change (l.after past).far.state.answers = _
      rw [Gate.answers, show (l.after past).far.state.keeper.stage = _ from stage]
      exact congrArg ([·]) reply
    rw [heard, Run.log_append, Run.log]
    refine List.mem_append_right _ (List.mem_append_left _ ?_)
    exact here ▸ List.mem_cons_self
  · intro mem
    obtain ⟨past, rest, split, before, stage, reply⟩ := exists_asking meets undisturbed mem
    have welcomes := (Timeline.admitted_iff_welcomes (numbered_after numbered before)).mp reply.symm
    exact ⟨past, rest, split, stage, welcomes⟩

namespace Meets

theorem results (h : Meets max key phrase channel given written asked heard l) (left : l.Over) :
    ∃ r r', l.near.state.stage = .ended r ∧ l.keeper.stage = .ended r' := by
  obtain ⟨r, near⟩ := Applicant.ended_of_need (h.joined.near.leave left.near)
  obtain ⟨r', far⟩ := Gatekeeper.ended_of_need (h.joined.far.leave left.far)
  exact ⟨r, r', near, far⟩

theorem not_hindered (h : Meets max key phrase channel given written asked heard l) {id : String}
    (stage : l.keeper.stage = .ended (.ok id)) :
    id = key ∧ isAgentId key ∧ Fits max key phrase ∧ heard = [.admitted true] := by
  have hosts := h.hosts
  rw [stage] at hosts
  cases hosts with
  | accepted presented told =>
    exact ⟨rfl, presented.isId, ⟨presented.introduced, presented.challenged, presented.answered,
      told⟩, rfl⟩
  | lost lost => cases lost

theorem welcomed (h : Meets max key phrase channel given written asked heard l) (left : l.Over)
    (stage : l.near.state.stage = .ended (.ok ())) : ∃ id, l.keeper.stage = .ended (.ok id) := by
  obtain ⟨-, r', -, far⟩ := h.results left
  have applies := h.applies
  have speaks := h.speaks
  have stands := h.follows.stands
  rw [stage] at applies
  cases applies with
  | accepted fits =>
    obtain ⟨admitted, n, behind⟩ := speaks.second fits.challenge rfl
    obtain ⟨-, -, none⟩ := outOf_split fits.verdict behind.symm
    have whole : framed (challengeBody phrase) ++ (framed (verdictBody true) ++ l.inward.bytes) =
        welcome phrase := by
      rw [none, List.append_nil]
      rfl
    obtain ⟨id, -, -, -, accepted | ⟨verdict, -⟩⟩ := stands.welcomed whole
    · exact ⟨id, accepted⟩
    · cases far.symm.trans verdict

theorem failed (h : Meets max key phrase channel given written asked heard l) {e : HandshakeError}
    (stage : l.near.state.stage = .ended (.error e)) :
    (e = .refused ∨ ∃ cause, e = .transport cause) ∧ Hindered max key phrase heard := by
  have applies := h.applies
  rw [stage] at applies
  cases applies with
  | failed kind gives hindered => exact ⟨kind, hindered⟩

theorem heard_eq (h : Meets max key phrase channel given written asked heard l) {r r' : Reply}
    (mem : r ∈ heard) (mem' : r' ∈ heard) : r = r' := by
  rcases h.follows.stands.asked_once with ⟨-, none⟩ | ⟨-, -, one, -, only, -⟩
  · rw [none] at mem
    cases mem
  · rw [only] at mem mem'
    exact (List.mem_singleton.mp mem).trans (List.mem_singleton.mp mem').symm

theorem not_admitted (h : Meets max key phrase channel given written asked heard l)
    (hindered : Hindered max key phrase heard) (isId : isAgentId key) (fits : Fits max key phrase) :
    .admitted true ∉ heard := by
  intro admitted
  rcases hindered with noId | large | ⟨r, mem, no⟩
  · exact noId isId
  · exact large fits
  · exact no (h.heard_eq mem admitted)

theorem outcome (h : Meets max key phrase channel given written asked heard l) (left : l.Over) :
    (l.near.state.result? = some (.ok ()) ∧ l.keeper.result? = some (.ok key) ∧ isAgentId key ∧
      Fits max key phrase ∧ .admitted true ∈ heard) ∨
    ((∃ e, l.near.state.result? = some (.error e) ∧
        (e = .refused ∨ ∃ cause, e = .transport cause)) ∧
      (∃ e, l.keeper.result? = some (.error e)) ∧ Hindered max key phrase heard) := by
  obtain ⟨r, r', near, far⟩ := h.results left
  rw [Applicant.result?, near, Gatekeeper.result?, far]
  cases r with
  | ok u =>
    obtain ⟨id, accepted⟩ := h.welcomed left near
    cases far.symm.trans accepted
    obtain ⟨rfl, isId, fits, admitted⟩ := h.not_hindered far
    exact .inl ⟨rfl, rfl, isId, fits, admitted ▸ List.mem_cons_self⟩
  | error e =>
    obtain ⟨kind, hindered⟩ := h.failed near
    cases r' with
    | ok id =>
      obtain ⟨-, isId, fits, admitted⟩ := h.not_hindered far
      exact absurd (admitted ▸ List.mem_cons_self) (h.not_admitted hindered isId fits)
    | error e' => exact .inr ⟨⟨e, rfl, kind⟩, ⟨e', rfl⟩, hindered⟩

theorem agreed (h : Meets max key phrase channel given written asked heard l) (left : l.Over) :
    l.near.state.result? = some (.ok ()) ↔ l.keeper.result? = some (.ok key) := by
  rcases h.outcome left with ⟨near, far, -⟩ | ⟨⟨e, near, -⟩, ⟨e', far⟩, -⟩
  · rw [near, far]
    exact ⟨fun _ => rfl, fun _ => rfl⟩
  · rw [near, far]
    simp

theorem succeeds_iff (h : Meets max key phrase channel given written asked heard l)
    (left : l.Over) : l.near.state.result? = some (.ok ()) ↔
      isAgentId key ∧ Fits max key phrase ∧ .admitted true ∈ heard := by
  rcases h.outcome left with ⟨near, -, why⟩ | ⟨⟨e, near, -⟩, -, hindered⟩
  · exact ⟨fun _ => why, fun _ => near⟩
  · constructor
    · intro ok
      cases near.symm.trans ok
    · rintro ⟨isId, fits, admitted⟩
      exact absurd admitted (h.not_admitted hindered isId fits)

theorem exists_reply (h : Meets max key phrase channel given written asked heard l) (left : l.Over)
    (isId : isAgentId key) (fits : Fits max key phrase) : ∃ r, r ∈ heard := by
  rcases h.outcome left with ⟨-, -, -, -, admitted⟩ | ⟨-, -, noId | large | ⟨r, mem, -⟩⟩
  · exact ⟨_, admitted⟩
  · exact absurd isId noId
  · exact absurd fits large
  · exact ⟨r, mem⟩

end Meets

theorem scheduler_asking (alone : ∀ a, .elsewhere a ∉ moves) (silent : l.asked moves = []) :
    ∃ f, (l.after moves).scheduler = l.scheduler.counting f := by
  induction moves using List.reverseRecOn with
  | nil => exact ⟨fun m => m, rfl⟩
  | append_singleton moves m ih =>
    rw [Meeting.asked, Run.log_concat, List.append_eq_nil_iff] at silent
    obtain ⟨f, same⟩ := ih (fun a mem => alone a (List.mem_append_left _ mem)) silent.1
    rw [after, Run.last_concat]
    cases m with
    | applicant =>
      rw [scheduler_applicant]
      exact ⟨f, same⟩
    | gatekeeper =>
      have asks : (l.after moves).entrance.asks .go = [] := silent.2
      obtain ⟨f', moved⟩ := Entrance.asks_silent (by simp) asks
      rw [Entrance.act, ← entrance_gatekeeper] at moved
      have next : ((l.after moves).act .gatekeeper).scheduler =
          (l.after moves).scheduler.counting f' := moved
      rw [same] at next
      exact ⟨f' ∘ f, next⟩
    | wait span => exact ⟨f, same⟩
    | elsewhere a => exact absurd (List.mem_append_right _ List.mem_cons_self) (alone a)

theorem reply_iff_of_alone (meets : Meets max key phrase channel [] [] [] [] l)
    (numbered : l.scheduler.Numbered) (undisturbed : l.Undisturbed moves)
    (alone : ∀ a, .elsewhere a ∉ moves) (empty : l.scheduler.queue = []) {r : Reply}
    (mem : r ∈ l.heard moves) :
    r = .admitted true ↔
      l.scheduler.phase = .running ∧ l.scheduler.broker.isConnected key = false := by
  obtain ⟨past, rest, split, before, stage, reply⟩ := exists_asking meets undisturbed mem
  have stands := (meets.run before).follows.stands
  rw [show (l.after past).entrance.keeper.stage = .admission key from stage] at stands
  have own (a : Action Unit) : .elsewhere a ∉ past := fun mem =>
    alone a (split ▸ List.mem_append_left _ mem)
  obtain ⟨f, same⟩ := scheduler_asking own stands.asked_of_admission.1
  have idle : (l.after past).timeline.scheduler = l.scheduler.counting f := same
  rw [reply, Timeline.admitted_iff_welcomes (numbered_after numbered before),
    Timeline.welcomes_of_idle (by rw [idle]; exact empty), idle]
  rfl

/-- How a meeting of `key` with a gatekeeper of the challenge `phrase` goes, and how it ends. -/
structure Concluding (max : Nat) (key phrase : String) (l : Meeting) (moves : List Move) :
    Prop where
  /-- Unless both have left one of them can get on. -/
  alive : (l.after moves).Over ∨ (l.after moves).paces .applicant ≠ [] ∨
    (l.after moves).paces .gatekeeper ≠ []
  bounded : (l.steps moves).length ≤ bound key phrase
  /-- When both have had their turns often enough, both have left. -/
  fair : ∀ rounds : List (List Move), moves = rounds.flatten →
    (∀ round ∈ rounds, .applicant ∈ round ∧ .gatekeeper ∈ round) →
    bound key phrase < rounds.length → (l.after moves).Over
  agreed : (l.after moves).Over → ((l.after moves).near.state.result? = some (.ok ()) ↔
    (l.after moves).keeper.result? = some (.ok key))
  accepted : (l.after moves).Over → ((l.after moves).near.state.result? = some (.ok ()) ↔
    isAgentId key ∧ Fits max key phrase ∧ Granted key l moves)
  failed : (l.after moves).Over → (l.after moves).near.state.result? ≠ some (.ok ()) →
    (∃ e, (l.after moves).keeper.result? = some (.error e)) ∧
    ∃ e, (l.after moves).near.state.result? = some (.error e) ∧
      (e = .refused ∨ ∃ cause, e = .transport cause)
  /-- If the scheduler is at rest and others leave it alone, only its state at the beginning
  counts. -/
  alone : (l.after moves).Over → (∀ a, .elsewhere a ∉ moves) → l.scheduler.queue = [] →
    ((l.after moves).near.state.result? = some (.ok ()) ↔
      isAgentId key ∧ Fits max key phrase ∧ l.scheduler.phase = .running ∧
        l.scheduler.broker.isConnected key = false)
  fits : isAgentId key → IsFresh phrase →
    (Fits max key phrase ↔ ∀ body ∈ exchange key phrase, body.length ≤ max)

theorem paced_start (key : String) (max : Nat) (patience patience' : Nanos) (phrase : String)
    (channel : Channel) (timeline : Timeline) (capacity : Nat) :
    Paced 0 [] [] (start key max patience patience' phrase channel timeline capacity) :=
  Nat.zero_le _

theorem Meets.alive (h : Meets max key phrase channel given written asked heard l) :
    l.Over ∨ l.paces .applicant ≠ [] ∨ l.paces .gatekeeper ≠ [] := by
  rw [or_iff_not_imp_right, not_or, not_not, not_not]
  rintro ⟨near, far⟩
  apply h.over_of_waits
  · cases stepped : l.near.step? l.now l.inward l.outward with
    | some found =>
      rw [paces, stepped] at near
      cases near
    | none => exact Seat.waits_of_stuck stepped
  · cases stepped : l.far.step? l.now l.outward l.inward with
    | some found =>
      rw [paces, stepped] at far
      cases far
    | none => exact Seat.waits_of_stuck stepped

/-- Any key, any limit, and any state of the scheduler: both come to an end, and agree on it. -/
theorem concluding (key : String) (max : Nat) (patience patience' : Nanos) (phrase : String)
    (channel : Channel) (timeline : Timeline) (capacity : Nat) (moves : List Move)
    (room : 0 < capacity) (numbered : timeline.scheduler.Numbered)
    (undisturbed : (start key max patience patience' phrase channel timeline capacity).Undisturbed
      moves) :
    Concluding max key phrase (start key max patience patience' phrase channel timeline capacity)
      moves := by
  have begins := meets_start key max patience patience' phrase channel timeline room
  have paced := paced_start key max patience patience' phrase channel timeline capacity
  generalize same : start key max patience patience' phrase channel timeline capacity = l
    at begins paced undisturbed ⊢
  have numbers : l.scheduler.Numbered := same ▸ numbered
  have meets := begins.run undisturbed
  have bounded := begins.steps_le paced undisturbed
  refine ⟨meets.alive, bounded, ?fair, meets.agreed, ?accepted, ?failed, ?alone, fits_iff⟩
  case fair =>
    rintro rounds rfl turns many
    rcases begins.over_or_steps undisturbed turns with left | steps
    · exact left
    · exact absurd (steps.trans bounded) (Nat.not_le.mpr many)
  case accepted =>
    intro left
    rw [granted_iff begins numbers undisturbed]
    exact meets.succeeds_iff left
  case failed =>
    intro left no
    rcases meets.outcome left with ⟨near, -⟩ | ⟨near, far, -⟩
    · exact absurd near no
    · exact ⟨far, near⟩
  case alone =>
    intro left alone empty
    have reply {r : Reply} (mem : r ∈ l.heard moves) :=
      reply_iff_of_alone begins numbers undisturbed alone empty mem
    rw [meets.succeeds_iff left]
    constructor
    · rintro ⟨isId, fits, admitted⟩
      exact ⟨isId, fits, (reply admitted).mp rfl⟩
    · rintro ⟨isId, fits, welcome⟩
      obtain ⟨r, mem⟩ := meets.exists_reply left isId fits
      exact ⟨isId, fits, (reply mem).mpr welcome ▸ mem⟩

theorem concluding_seller :
    let phrase := "0123456789abcdef0123456789abcdef"
    let l := start "seller" 200 1000 1000 phrase 0 (.start default) 64
    let moves := (List.replicate 16 [Move.applicant, .gatekeeper]).flatten
    l.Undisturbed moves ∧ (l.after moves).Over ∧ Concluding 200 "seller" phrase l moves ∧
      (l.after moves).keeper.result? = some (.ok "seller") := by
  intro phrase l moves
  have undisturbed : l.Undisturbed moves := by decide +kernel
  have left : (l.after moves).Over := ⟨by decide +kernel, by decide +kernel⟩
  have concludes := concluding "seller" 200 1000 1000 phrase 0 (.start default) 64 moves (by decide)
    (numbered_start _) undisturbed
  have succeeds : (l.after moves).near.state.result?.any (·.toBool) := by decide +kernel
  have agreed := concludes.agreed left
  refine ⟨undisturbed, left, concludes, agreed.mp ?_⟩
  generalize (l.after moves).near.state.result? = result at succeeds
  cases result with
  | none => cases succeeds
  | some r =>
    cases r with
    | ok u => rfl
    | error e => cases succeeds

end Meeting

end AgentBroker
