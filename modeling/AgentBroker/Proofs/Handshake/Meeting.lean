import AgentBroker.Proofs.Handshake.Hosting
import AgentBroker.Proofs.Scheduler.Admission
import AgentBroker.Proofs.Stream.Link

/-!
# An applicant meets a gatekeeper

An applicant and a gatekeeper run against each other on one stream, in any order of their steps,
while others use the scheduler. No deadline expires. Then both come to an end, and both succeed or
both fail.
-/

namespace AgentBroker

open AgentBroker.Frame AgentBroker.Reading Scheduler

abbrev Meeting := Link Applicant Gate

namespace Meeting

def start (key : String) (max : Nat) (patience patience' : Nanos) (phrase : String)
    (channel : Channel) (timeline : Timeline) (capacity : Nat) : Meeting :=
  Link.start (.start key max patience) ⟨.start max patience' phrase, timeline, channel⟩ capacity

inductive Move where
  | applicant
  | gatekeeper
  | wait (span : Nanos)
  | elsewhere (a : Action Unit)

def timeline (l : Meeting) : Timeline := l.far.state.timeline

def scheduler (l : Meeting) : Scheduler := l.timeline.scheduler

def keeper (l : Meeting) : Gatekeeper := l.far.state.keeper

def act (l : Meeting) : Move → Meeting
  | .applicant => l.stepNear?.getD l
  | .gatekeeper => l.stepFar?.getD l
  | .wait span =>
    { l with now := l.now + span, far.state.timeline.now := l.far.state.timeline.now + span }
  | .elsewhere a => { l with far.state.timeline.scheduler := l.scheduler.act a }

def entrance (l : Meeting) : Entrance := ⟨l.far, l.outward, l.inward, l.now⟩

def gives (l : Meeting) : Move → Bytes
  | .applicant => (l.act .applicant).outward.bytes.drop l.outward.bytes.length
  | _ => []

def writes (l : Meeting) : Move → Bytes
  | .gatekeeper => l.entrance.writes .go
  | _ => []

def asks (l : Meeting) : Move → List Command
  | .gatekeeper => l.entrance.asks .go
  | _ => []

def hears (l : Meeting) : Move → List Reply
  | .gatekeeper => l.entrance.hears .go
  | _ => []

/-- The moves in which somebody gets on. -/
def paces (l : Meeting) : Move → List Move
  | .applicant => if (l.near.step? l.now l.inward l.outward).isSome then [.applicant] else []
  | .gatekeeper => if (l.far.step? l.now l.outward l.inward).isSome then [.gatekeeper] else []
  | _ => []

def after (l : Meeting) (moves : List Move) : Meeting := Run.last act l moves

def given (l : Meeting) (moves : List Move) : Bytes := Run.log act gives l moves

def written (l : Meeting) (moves : List Move) : Bytes := Run.log act writes l moves

def asked (l : Meeting) (moves : List Move) : List Command := Run.log act asks l moves

def heard (l : Meeting) (moves : List Move) : List Reply := Run.log act hears l moves

def steps (l : Meeting) (moves : List Move) : List Move := Run.log act paces l moves

/-- No deadline has expired. -/
structure InTime (l : Meeting) : Prop where
  near : ∀ t ∈ l.near.state.alarm?, l.now < t
  far : ∀ t ∈ l.keeper.alarm?, l.now < t

instance (l : Meeting) : Decidable l.InTime :=
  decidable_of_iff ((∀ t ∈ l.near.state.alarm?, l.now < t) ∧ ∀ t ∈ l.keeper.alarm?, l.now < t)
    ⟨fun h => ⟨h.1, h.2⟩, fun h => ⟨h.near, h.far⟩⟩

/-- Nobody abandons a request that has not been made. -/
def Move.IsMade (l : Meeting) : Move → Prop
  | .elsewhere a => a.IsMade l.scheduler
  | _ => True

/-- No deadline expires in the course of the moves. -/
def Undisturbed (l : Meeting) : List Move → Prop
  | [] => True
  | m :: rest => l.InTime ∧ m.IsMade l ∧ Undisturbed (l.act m) rest

instance (l : Meeting) (m : Move) : Decidable (m.IsMade l) :=
  match m with
  | .elsewhere a => inferInstanceAs (Decidable (a.IsMade l.scheduler))
  | .applicant | .gatekeeper | .wait _ => .isTrue trivial

instance decidableUndisturbed (l : Meeting) : (moves : List Move) → Decidable (l.Undisturbed moves)
  | [] => .isTrue trivial
  | m :: rest =>
    have := decidableUndisturbed (l.act m) rest
    inferInstanceAs (Decidable (l.InTime ∧ m.IsMade l ∧ (l.act m).Undisturbed rest))

variable {l : Meeting} {max : Nat} {key phrase : String} {channel : Channel}
  {given written : Bytes} {asked : List Command} {heard : List Reply} {moves : List Move}

theorem undisturbed_append (l : Meeting) (xs ys : List Move) :
    Undisturbed l (xs ++ ys) ↔ Undisturbed l xs ∧ Undisturbed (l.after xs) ys := by
  induction xs generalizing l with
  | nil => exact ⟨fun h => ⟨trivial, h⟩, And.right⟩
  | cons m rest ih =>
    rw [List.cons_append, Undisturbed, Undisturbed, ih, and_assoc, and_assoc]
    rfl

theorem act_applicant (inTime : l.InTime) :
    (∃ near inward outward, l.near.Step l.now l.inward l.outward near inward outward ∧
      l.act .applicant = { l with near, inward, outward, nearWorks := true } ∧
      l.paces .applicant = [.applicant]) ∨
    l.near.Waits l.inward l.outward ∧ l.act .applicant = l ∧ l.paces .applicant = [] := by
  rw [act, Link.stepNear?, paces]
  cases stepped : l.near.step? l.now l.inward l.outward with
  | some found =>
    obtain ⟨near, inward, outward⟩ := found
    exact .inl ⟨near, inward, outward, Seat.step_of_step? stepped, rfl, rfl⟩
  | none =>
    refine .inr ⟨Seat.waits_of_stuck stepped, ?_, rfl⟩
    cases woken : l.near.wake? l.now with
    | none => rfl
    | some near =>
      obtain ⟨t, alarm, due, -⟩ := Seat.wake?_eq_some woken
      exact absurd due (Nat.not_le.mpr (inTime.near t alarm))

theorem act_gatekeeper (inTime : l.InTime) :
    (∃ far inward outward, l.far.Step l.now l.outward l.inward far outward inward ∧
      l.act .gatekeeper = { l with far, inward, outward, nearWorks := false } ∧
      l.paces .gatekeeper = [.gatekeeper]) ∨
    l.far.Waits l.outward l.inward ∧ l.act .gatekeeper = l ∧ l.paces .gatekeeper = [] := by
  rw [act, Link.stepFar?, paces]
  cases stepped : l.far.step? l.now l.outward l.inward with
  | some found =>
    obtain ⟨far, outward, inward⟩ := found
    exact .inl ⟨far, inward, outward, Seat.step_of_step? stepped, rfl, rfl⟩
  | none =>
    refine .inr ⟨Seat.waits_of_stuck stepped, ?_, rfl⟩
    cases woken : l.far.wake? l.now with
    | none => rfl
    | some far =>
      obtain ⟨t, alarm, due, -⟩ := Seat.wake?_eq_some woken
      exact absurd due (Nat.not_le.mpr (inTime.far t alarm))

theorem entrance_gatekeeper (l : Meeting) : (l.act .gatekeeper).entrance = l.entrance.go := by
  rw [act, Link.stepFar?, Entrance.go]
  cases stepped : l.far.step? l.now l.outward l.inward with
  | some found =>
    rw [show l.entrance.seat.step? l.entrance.now l.entrance.source l.entrance.sink = some found
      from stepped]
    rfl
  | none =>
    rw [show l.entrance.seat.step? l.entrance.now l.entrance.source l.entrance.sink = none
      from stepped]
    cases woken : l.far.wake? l.now with
    | some far =>
      rw [show l.entrance.seat.wake? l.entrance.now = some far from woken]
      rfl
    | none =>
      rw [show l.entrance.seat.wake? l.entrance.now = none from woken]
      rfl

theorem writes_gatekeeper (l : Meeting) : l.writes .gatekeeper =
    (l.act .gatekeeper).inward.bytes.drop l.inward.bytes.length := by
  rw [writes, Entrance.writes, ← entrance_gatekeeper]
  rfl

/-- A meeting with what has gone between the two sides, and between the gatekeeper and the
scheduler. -/
structure Meets (max : Nat) (key phrase : String) (channel : Channel) (given written : Bytes)
    (asked : List Command) (heard : List Reply) (l : Meeting) : Prop where
  follows : Entrance.Follows max phrase channel given written asked heard l.entrance
  out : l.keeper.OutAllowed
  speaks : Speaks max phrase written
  limit : l.near.state.maxFrame = max
  name : l.near.state.publicKey = key
  applies : Applies max key phrase heard l.near.state.stage l.near.seen l.near.gone l.inward.bytes
    given written
  joined : l.Joined
  hindered : l.keeper.stage.isLost → Hindered max key phrase heard

namespace Meets

theorem hosts (h : Meets max key phrase channel given written asked heard l) :
    Hosts max key phrase given l.keeper.stage l.far.seen l.far.gone l.outward.bytes written heard :=
  h.follows.stands.hosts h.follows.max_eq h.follows.phrase_eq h.out h.applies.gives

theorem near_left (h : Meets max key phrase channel given written asked heard l)
    (absent : l.near.isPresent = false) : Hindered max key phrase heard ∨
      given = framed (introductionBody key) ++ framed (answerBody phrase) ∧
        written = welcome phrase := by
  obtain ⟨r, stage⟩ := Applicant.ended_of_need (h.joined.near.leave absent)
  have applies := h.applies
  have speaks := h.speaks
  rw [stage] at applies
  cases applies with
  | accepted fits =>
    obtain ⟨admitted, n, behind⟩ := speaks.second fits.challenge rfl
    obtain ⟨-, -, none⟩ := outOf_split fits.verdict behind.symm
    rw [none, List.append_nil]
    exact .inr ⟨rfl, rfl⟩
  | failed _ _ hindered => exact .inl hindered

theorem far_left (h : Meets max key phrase channel given written asked heard l)
    (absent : l.far.isPresent = false) : Hindered max key phrase heard ∨
      given = framed (introductionBody key) ++ framed (answerBody phrase) ∧
        written = welcome phrase := by
  obtain ⟨r, stage⟩ := Gatekeeper.ended_of_need (h.joined.far.leave absent)
  cases r with
  | error e => exact .inl (h.hindered (by rw [keeper, stage]; rfl))
  | ok id =>
    have hosts := h.hosts
    rw [keeper, stage] at hosts
    cases hosts with
    | accepted presented => exact .inr ⟨presented.held, rfl⟩
    | lost lost => cases lost

theorem closed (h : Meets max key phrase channel given written asked heard l)
    (closed : l.inward.isOpen = false ∨ l.outward.isOpen = false) :
    Hindered max key phrase heard ∨
      given = framed (introductionBody key) ++ framed (answerBody phrase) ∧
        written = welcome phrase := by
  rw [h.joined.near.source, h.joined.near.sink, or_self, Bool.and_eq_false_iff] at closed
  rcases closed with near | far
  · exact h.near_left near
  · exact h.far_left far

theorem refused (h : Meets max key phrase channel given written asked heard l)
    (allowed : Allowed max refusalBody) (whole : written = framed refusalBody) :
    Hindered max key phrase heard := by
  have hosts := h.hosts
  have not_challenge {n : Nat} (same : written = outOf max (challengeBody phrase) n) : False := by
    have split : outOf max (challengeBody phrase) n = framed refusalBody ++ [] := by
      rw [← same, whole, List.append_nil]
    exact refusal_ne_challenge phrase (outOf_split allowed split).2.1
  have not_framed {rest : Bytes} (fits : Allowed max (challengeBody phrase))
      (same : written = framed (challengeBody phrase) ++ rest) : False := by
    have split : framed refusalBody ++ [] = framed (challengeBody phrase) ++ rest := by
      rw [List.append_nil, ← whole, same]
    exact refusal_ne_challenge phrase (framed_append_inj allowed fits split).1
  have hindered := h.hindered
  generalize l.keeper.stage = stage at hosts hindered
  cases hosts with
  | introduction => exact absurd whole.symm (framed_ne_nil _)
  | refusal noId => exact .inl noId
  | challenge _ _ _ out => exact (not_challenge out).elim
  | answer _ _ challenged => exact (not_framed challenged (List.append_nil _).symm).elim
  | admission presented =>
    exact (not_framed presented.challenged (List.append_nil _).symm).elim
  | verdict presented out => exact (not_framed presented.challenged out).elim
  | accepted presented => exact (not_framed presented.challenged rfl).elim
  | lost lost => exact hindered lost

theorem denied (h : Meets max key phrase channel given written asked heard l)
    (challenged : Allowed max (challengeBody phrase)) (allowed : Allowed max (verdictBody false))
    (whole : written = framed (challengeBody phrase) ++ framed (verdictBody false)) :
    Hindered max key phrase heard := by
  have hosts := h.hosts
  have hindered := h.hindered
  generalize l.keeper.stage = stage at hosts hindered
  cases hosts with
  | introduction => exact absurd (List.append_eq_nil_iff.mp whole.symm).1 (framed_ne_nil _)
  | refusal noId => exact .inl noId
  | challenge _ _ _ out =>
    exact absurd (outOf_split challenged (out.symm.trans whole)).2.2 (framed_ne_nil _)
  | answer | admission =>
    exact absurd (List.append_right_eq_self.mp whole.symm) (framed_ne_nil _)
  | @verdict _ _ _ _ admitted _ out =>
    cases admitted with
    | true =>
      have split : outOf max (verdictBody true) l.far.gone = framed (verdictBody false) ++ [] := by
        rw [List.append_nil]
        exact List.append_cancel_left (out.symm.trans whole)
      have same := (outOf_split allowed split).2.1
      exact absurd (same ▸ List.prefix_rfl) verdicts_differ
    | false => exact Hosts.hindered_of_denied List.mem_cons_self
  | accepted =>
    have same := List.append_cancel_left (show framed (challengeBody phrase) ++ _ = _ from whole)
    exact absurd (same ▸ List.prefix_rfl) verdicts_differ
  | lost lost => exact hindered lost

theorem blames (h : Meets max key phrase channel given written asked heard l) :
    Blames max key phrase heard given written l.inward l.outward :=
  ⟨h.refused, h.denied, h.closed⟩

theorem applicant (h : Meets max key phrase channel given written asked heard l)
    (inTime : l.InTime) :
    Meets max key phrase channel (given ++ l.gives .applicant) written asked heard
      (l.act .applicant) := by
  rw [gives]
  rcases act_applicant inTime with ⟨near, inward, outward, step, moved, -⟩ | ⟨-, still, -⟩
  · rw [moved]
    have settings := Applicant.settings_seat step
    have stands := h.follows.stands.give (outward.bytes.drop l.outward.bytes.length)
    rw [show l.entrance.source.bytes = l.outward.bytes from rfl, step.sink_bytes] at stands
    exact ⟨⟨h.follows.max_eq, h.follows.phrase_eq, h.follows.channel_eq, stands⟩, h.out, h.speaks,
      settings.1.trans h.limit, settings.2.trans h.name,
      h.applies.step h.limit h.name h.speaks h.blames step, h.joined.stepNear step, h.hindered⟩
  · rw [still, List.drop_length, List.append_nil]
    exact h

theorem gatekeeper (h : Meets max key phrase channel given written asked heard l)
    (inTime : l.InTime) :
    Meets max key phrase channel given (written ++ l.writes .gatekeeper)
      (asked ++ l.asks .gatekeeper) (heard ++ l.hears .gatekeeper) (l.act .gatekeeper) := by
  have follows := h.follows.go
  rw [← entrance_gatekeeper] at follows
  obtain ⟨turn, -⟩ := l.entrance.turn_go
  rw [h.follows.channel_eq] at turn
  have speaks : Speaks max phrase (written ++ l.writes .gatekeeper) :=
    turn.speaks h.follows.max_eq h.follows.phrase_eq h.follows.stands h.out h.speaks
  have out := turn.outAllowed h.out
  rw [← entrance_gatekeeper] at out
  rcases act_gatekeeper inTime with ⟨far, inward, outward, step, moved, -⟩ | ⟨-, still, -⟩
  · have told := l.writes_gatekeeper
    rw [moved] at told
    rw [moved] at follows out ⊢
    refine ⟨follows, out, speaks, h.limit, h.name, ?_, h.joined.stepFar step, fun lost => ?_⟩
    · have applies := h.applies.hear (l.writes .gatekeeper) (l.hears .gatekeeper)
      rw [told, step.sink_bytes, ← told] at applies
      exact applies
    · by_cases fine : l.keeper.stage.isLost
      · exact (h.hindered fine).append _
      · exact h.hosts.hindered h.follows.max_eq h.follows.phrase_eq h.applies.gives
          (fun shut => h.closed shut.symm) fine step lost
  · have silent := l.writes_gatekeeper
    rw [still, List.drop_length] at silent
    rw [still] at follows ⊢
    have applies := h.applies.hear [] (l.hears .gatekeeper)
    rw [List.append_nil, List.append_nil] at applies
    refine ⟨follows, h.out, speaks, h.limit, h.name, ?_, h.joined, fun lost => ?_⟩
    · rw [silent, List.append_nil]
      exact applies
    · exact (h.hindered lost).append _

theorem act (h : Meets max key phrase channel given written asked heard l) (inTime : l.InTime)
    (m : Move) :
    Meets max key phrase channel (given ++ l.gives m) (written ++ l.writes m) (asked ++ l.asks m)
      (heard ++ l.hears m) (l.act m) := by
  cases m with
  | applicant =>
    simp only [writes, asks, hears, List.append_nil]
    exact h.applicant inTime
  | gatekeeper =>
    have none : l.gives .gatekeeper = [] := rfl
    rw [none, List.append_nil]
    exact h.gatekeeper inTime
  | wait span =>
    have follows := h.follows.act (.wait span)
    simp only [gives, writes, asks, hears, List.append_nil]
    simp only [Entrance.gives, Entrance.writes, Entrance.asks, Entrance.hears,
      List.append_nil] at follows
    exact ⟨follows, h.out, h.speaks, h.limit, h.name, h.applies, ⟨h.joined.near,
      ⟨h.joined.far.source, h.joined.far.sink, h.joined.far.leave⟩, h.joined.inward,
      h.joined.outward⟩, h.hindered⟩
  | elsewhere a =>
    have follows := h.follows.act (.elsewhere a)
    simp only [gives, writes, asks, hears, List.append_nil]
    simp only [Entrance.gives, Entrance.writes, Entrance.asks, Entrance.hears,
      List.append_nil] at follows
    exact ⟨follows, h.out, h.speaks, h.limit, h.name, h.applies, ⟨h.joined.near,
      ⟨h.joined.far.source, h.joined.far.sink, h.joined.far.leave⟩, h.joined.inward,
      h.joined.outward⟩, h.hindered⟩

theorem run (h : Meets max key phrase channel [] [] [] [] l) (undisturbed : l.Undisturbed moves) :
    Meets max key phrase channel (l.given moves) (l.written moves) (l.asked moves) (l.heard moves)
      (l.after moves) := by
  -- The logs grow at their end, so the run is taken apart from its end.
  induction moves using List.reverseRecOn with
  | nil => exact h
  | append_singleton moves m ih =>
    obtain ⟨before, inTime, -⟩ := (undisturbed_append l moves [m]).mp undisturbed
    rw [Meeting.given, Meeting.written, Meeting.asked, Meeting.heard, after, Run.log_concat,
      Run.log_concat, Run.log_concat, Run.log_concat, Run.last_concat]
    exact (ih before).act inTime m

end Meets

theorem meets_start (key : String) (max : Nat) (patience patience' : Nanos) (phrase : String)
    (channel : Channel) (timeline : Timeline) {capacity : Nat} (room : 0 < capacity) :
    Meets max key phrase channel [] [] [] []
      (start key max patience patience' phrase channel timeline capacity) where
  follows := Entrance.follows_start max patience' phrase channel timeline capacity capacity
  out := List.forall_mem_nil _
  speaks := by
    have silent := @Speaks.refusal max phrase 0
    rwa [outOf_zero] at silent
  limit := rfl
  name := rfl
  applies := by
    have silent := @Applies.introduction max key phrase [] [] [] 0
    rwa [outOf_zero] at silent
  joined := Link.joined_start _ _ room
  hindered lost := by cases lost

structure Over (l : Meeting) : Prop where
  near : l.near.isPresent = false
  far : l.far.isPresent = false

namespace Meets

theorem not_silent (h : Meets max key phrase channel given written asked heard l)
    {limit limit' : Nat} (near : Party.need l.near.state = .frame limit)
    (incomplete : next limit l.near.seen = .incomplete) (inward : l.inward.bytes = [])
    (far : Party.need l.far.state = .frame limit')
    (incomplete' : next limit' l.far.seen = .incomplete) (outward : l.outward.bytes = []) :
    False := by
  obtain ⟨rfl, reads⟩ := Applicant.reads_of_need near
  obtain ⟨reads', rfl⟩ := Gatekeeper.reads_of_need far
  have applies := h.applies
  have hosts := h.hosts
  rw [inward] at applies
  rw [outward] at hosts
  -- Each has read all that the other has written, so one of them has got a whole frame.
  rcases applies.waiting reads with ⟨gave, heard, introduced⟩ | ⟨gave, heard, answered⟩
  · rcases hosts.waiting reads' with ⟨-, got⟩ | ⟨told, challenged, -⟩
    · exact next_framed_ne introduced.fits incomplete' (got.symm.trans gave)
    · exact next_framed_ne challenged.fits incomplete (heard.symm.trans told)
  · rcases hosts.waiting reads' with ⟨told, -⟩ | ⟨-, -, got⟩
    · exact framed_ne_nil _ (List.append_eq_nil_iff.mp (heard.symm.trans told)).1
    · exact next_framed_ne answered.fits incomplete' (List.append_cancel_left (got.symm.trans gave))

theorem not_jammed (h : Meets max key phrase channel given written asked heard l)
    {bytes bytes' : Bytes} (near : Party.need l.near.state = .write (.ok bytes))
    (waits : bytes.drop l.near.gone ≠ []) (inward : l.inward.bytes ≠ [])
    (far : Party.need l.far.state = .write (.ok bytes')) : False := by
  obtain ⟨body, tells, -⟩ := Gatekeeper.tells_of_need far
  obtain ⟨⟨rest, introduced⟩, told⟩ := h.hosts.telling tells
  have applies := h.applies
  rcases Applicant.writes_of_need near with ⟨stage, made⟩ | ⟨phrase', stage, made⟩
  · obtain ⟨allowed, rfl⟩ := write?_eq_ok_iff.mp made.symm
    rw [h.limit, h.name] at allowed
    rw [h.name] at waits
    rw [stage] at applies
    cases applies with
    | introduction =>
      have none := (outOf_split allowed introduced).2.2
      rw [none, List.append_nil] at introduced
      exact outOf_ne (fun _ => waits) introduced
  · obtain ⟨allowed, rfl⟩ := write?_eq_ok_iff.mp made.symm
    rw [stage] at applies
    cases applies with
    | answer _ challenged =>
      rcases told with both | refusal | challenge
      · exact outOf_ne (fun _ => waits) (List.append_cancel_left both)
      · exact refusal_ne_challenge phrase (outOf_split challenged refusal.symm).2.1.symm
      · exact inward (outOf_split challenged challenge.symm).2.2

theorem over_of_waits (h : Meets max key phrase channel given written asked heard l)
    (near : l.near.Waits l.inward l.outward) (far : l.far.Waits l.outward l.inward) : l.Over := by
  cases h.joined.stuck near far with
  | deserted near far => exact ⟨near, far⟩
  | silent near incomplete inward far incomplete' outward =>
    exact (h.not_silent near incomplete inward far incomplete' outward).elim
  | jammed near waits inward far => exact (h.not_jammed near waits inward far).elim
  | idle rests =>
    rcases rests with rest | rest
    · exact absurd rest l.near.state.need_ne.2
    · exact absurd rest l.keeper.need_ne_rest

end Meets

/-- No more steps than this can be taken: those of the two sides, and two for each byte. -/
def bound (key phrase : String) : Nat :=
  12 + 2 * ((framed (introductionBody key)).length + (framed (answerBody phrase)).length +
    ((framed refusalBody).length + (framed (challengeBody phrase)).length +
      ((framed (verdictBody false)).length + (framed (verdictBody true)).length)))

/-- So many steps have been taken at most. A byte counts when it is written and when it is read. -/
def Paced (n : Nat) (given written : Bytes) (l : Meeting) : Prop :=
  n + l.outward.bytes.length + l.inward.bytes.length ≤
    l.near.pace Applicant.rank + l.far.pace Gate.rank + 2 * given.length + 2 * written.length

theorem Paced.act {n : Nat} (h : Paced n given written l) (inTime : l.InTime) (m : Move) :
    Paced (n + (l.paces m).length) (given ++ l.gives m) (written ++ l.writes m) (l.act m) := by
  rw [Paced] at h
  cases m with
  | applicant =>
    rw [gives]
    rcases act_applicant inTime with ⟨near, inward, outward, step, moved, paces⟩ |
      ⟨-, still, paces⟩
    · have spends := step.spends fun happening => l.near.state.rank_step l.now (h := happening)
      have bytes := congrArg List.length step.sink_bytes
      rw [List.length_append] at bytes
      rw [moved, paces, Paced]
      simp only [writes, List.append_nil, List.length_append, List.length_singleton]
      omega
    · rw [still, paces, List.drop_length, List.append_nil]
      exact h.trans (Nat.le_of_eq (by simp [writes]))
  | gatekeeper =>
    rw [writes_gatekeeper]
    rcases act_gatekeeper inTime with ⟨far, inward, outward, step, moved, paces⟩ |
      ⟨-, still, paces⟩
    · have spends := step.spends fun happening => l.far.state.rank_step l.now (h := happening)
      have bytes := congrArg List.length step.sink_bytes
      rw [List.length_append] at bytes
      rw [moved, paces, Paced]
      simp only [gives, List.append_nil, List.length_append, List.length_singleton]
      omega
    · rw [still, paces, List.drop_length, List.append_nil]
      exact h.trans (Nat.le_of_eq (by simp [gives]))
  | wait | elsewhere => exact h.trans (Nat.le_of_eq (by simp [gives, writes]; rfl))

theorem Paced.run (h : Paced 0 [] [] l) (undisturbed : l.Undisturbed moves) :
    Paced (l.steps moves).length (l.given moves) (l.written moves) (l.after moves) := by
  induction moves using List.reverseRecOn with
  | nil => exact h
  | append_singleton moves m ih =>
    obtain ⟨before, inTime, -⟩ := (undisturbed_append l moves [m]).mp undisturbed
    rw [steps, Meeting.given, Meeting.written, after, Run.log_concat, Run.log_concat,
      Run.log_concat, Run.last_concat, List.length_append]
    exact (ih before).act inTime m

theorem near_pace_le (l : Meeting) : l.near.pace Applicant.rank ≤ 5 := by
  have rank : l.near.state.rank ≤ 4 := by
    rw [Applicant.rank]
    cases l.near.state.stage with
    | _ => simp [ApplicantStage.rank]
  rw [Seat.pace]
  split <;> omega

theorem far_pace_le (l : Meeting) : l.far.pace Gate.rank ≤ 7 := by
  have rank : l.far.state.rank ≤ 6 := by
    rw [Gate.rank]
    cases l.far.state.keeper.stage with
    | _ => simp [GateStage.rank]
  rw [Seat.pace]
  split <;> omega

theorem Meets.steps_le (h : Meets max key phrase channel [] [] [] [] l) (paced : Paced 0 [] [] l)
    (undisturbed : l.Undisturbed moves) : (l.steps moves).length ≤ bound key phrase := by
  have meets := h.run undisturbed
  have gave := meets.applies.gives.length_le
  have told := meets.speaks.length_le
  have taken := paced.run undisturbed
  have near := near_pace_le (l.after moves)
  have far := far_pace_le (l.after moves)
  rw [Paced] at taken
  rw [bound]
  omega

theorem waits_of_steps_nil (undisturbed : l.Undisturbed moves) (none : l.steps moves = []) :
    (.applicant ∈ moves → l.near.Waits l.inward l.outward) ∧
      (.gatekeeper ∈ moves → l.far.Waits l.outward l.inward) := by
  induction moves generalizing l with
  | nil => exact ⟨fun mem => absurd mem List.not_mem_nil, fun mem => absurd mem List.not_mem_nil⟩
  | cons m rest ih =>
    obtain ⟨inTime, -, later⟩ := undisturbed
    obtain ⟨first, none⟩ := List.append_eq_nil_iff.mp none
    obtain ⟨near, far⟩ := ih later none
    cases m with
    | applicant =>
      rcases act_applicant inTime with ⟨_, _, _, -, -, paces⟩ | ⟨waits, still, -⟩
      · rw [paces] at first
        cases first
      · rw [still] at far
        exact ⟨fun _ => waits, fun mem => far (by simpa using mem)⟩
    | gatekeeper =>
      rcases act_gatekeeper inTime with ⟨_, _, _, -, -, paces⟩ | ⟨waits, still, -⟩
      · rw [paces] at first
        cases first
      · rw [still] at near
        exact ⟨fun mem => near (by simpa using mem), fun _ => waits⟩
    | wait | elsewhere =>
      exact ⟨fun mem => near (by simpa using mem),
        fun mem => (far (by simpa using mem)).congr rfl rfl rfl rfl⟩

theorem Over.act (h : l.Over) (joined : l.Joined) (inTime : l.InTime) (m : Move) :
    (l.act m).Over := by
  cases m with
  | applicant =>
    rcases act_applicant inTime with ⟨_, _, _, step, -⟩ | ⟨-, still, -⟩
    · cases h.near.symm.trans (joined.near.present step)
    · rwa [still]
  | gatekeeper =>
    rcases act_gatekeeper inTime with ⟨_, _, _, step, -⟩ | ⟨-, still, -⟩
    · cases h.far.symm.trans (joined.far.present step)
    · rwa [still]
  | wait | elsewhere => exact ⟨h.near, h.far⟩

theorem Meets.over_after (h : Meets max key phrase channel given written asked heard l)
    (left : l.Over) (undisturbed : l.Undisturbed moves) : (l.after moves).Over := by
  induction moves generalizing l given written asked heard with
  | nil => exact left
  | cons m rest ih =>
    obtain ⟨inTime, -, later⟩ := undisturbed
    exact ih (h.act inTime m) (left.act h.joined inTime m) later

theorem Meets.exists_after (h : Meets max key phrase channel given written asked heard l)
    (undisturbed : l.Undisturbed moves) :
    ∃ given written asked heard, Meets max key phrase channel given written asked heard
      (l.after moves) := by
  induction moves generalizing l given written asked heard with
  | nil => exact ⟨_, _, _, _, h⟩
  | cons m rest ih =>
    obtain ⟨inTime, -, later⟩ := undisturbed
    exact ih (h.act inTime m) later

/-- As long as both get their turns somebody gets on, until both have left. -/
theorem Meets.over_or_steps (h : Meets max key phrase channel given written asked heard l)
    {rounds : List (List Move)} (undisturbed : l.Undisturbed rounds.flatten)
    (fair : ∀ round ∈ rounds, .applicant ∈ round ∧ .gatekeeper ∈ round) :
    (l.after rounds.flatten).Over ∨ rounds.length ≤ (l.steps rounds.flatten).length := by
  induction rounds generalizing l given written asked heard with
  | nil => exact .inr (Nat.zero_le _)
  | cons round rest ih =>
    obtain ⟨first, others⟩ := List.forall_mem_cons.mp fair
    rw [List.flatten_cons] at undisturbed ⊢
    obtain ⟨before, later⟩ := (undisturbed_append l round rest.flatten).mp undisturbed
    by_cases none : l.steps round = []
    · obtain ⟨near, far⟩ := waits_of_steps_nil before none
      exact .inl (h.over_after (h.over_of_waits (near first.1) (far first.2)) undisturbed)
    · obtain ⟨_, _, _, _, meets⟩ := h.exists_after before
      have some := List.length_pos_iff.mpr none
      rw [after, steps, Run.last_append, Run.log_append, List.length_append, List.length_cons]
      rcases ih meets later others with left | many
      · exact .inl left
      · have both := Nat.add_le_add some many
        exact .inr ((Nat.add_comm _ _).trans_le both)

end Meeting

end AgentBroker
