import AgentBroker.Proofs.Handshake.Applicant

/-!
# A gatekeeper in front of an applicant

A gatekeeper whose client keeps to the exchange knows the key of this client and no other one, and
it never rejects an answer. It fails only for a reason that keeps the applicant out.
-/

namespace AgentBroker

open AgentBroker.Frame AgentBroker.Reading

def GateStage.rank : GateStage → Nat
  | .introduction => 0
  | .refusal _ | .challenge _ => 1
  | .answer _ => 2
  | .rejection _ | .admission _ => 3
  | .verdict .. => 4
  | .withdrawal .. => 5
  | .ended _ => 6

namespace Gatekeeper

variable {k : Gatekeeper}

theorem need_ne_rest (k : Gatekeeper) : k.need ≠ .rest := by
  rw [need]
  cases k.stage with
  | _ => simp [message]

theorem ended_of_need (h : k.need = .leave) : ∃ r, k.stage = .ended r := by
  rw [need] at h
  cases stage : k.stage with
  | ended r => exact ⟨r, rfl⟩
  | _ => rw [stage] at h; cases h

theorem rank_receive {frame : Bytes} (reads : k.stage.reads) :
    k.stage.rank < (k.receive frame).stage.rank := by
  rw [receive]
  cases stage : k.stage with
  | introduction =>
    dsimp only
    cases (Wire.decode? frame : Option Introduction) with
    | none => exact (by decide : 0 < 6)
    | some i =>
      dsimp only
      split
      · exact (by decide : 0 < 1)
      · exact (by decide : 0 < 1)
  | answer id =>
    dsimp only
    cases (Wire.decode? frame : Option Answer) with
    | none => exact (by decide : 2 < 6)
    | some a =>
      dsimp only
      split
      · exact (by decide : 2 < 3)
      · exact (by decide : 2 < 3)
  | _ => rw [stage] at reads; cases reads

theorem rank_wrote {body : Bytes} (tells : k.tells? = some body) :
    k.stage.rank < k.wrote.stage.rank := by
  rw [tells?] at tells
  rw [wrote]
  cases stage : k.stage with
  | refusal id => exact (by decide : 1 < 6)
  | challenge id => exact (by decide : 1 < 2)
  | rejection id => exact (by decide : 3 < 6)
  | verdict id admitted =>
    cases admitted with
    | true => exact (by decide : 4 < 6)
    | false => exact (by decide : 4 < 6)
  | _ => rw [stage] at tells; cases tells

theorem rank_breakOff {e : HandshakeError} (busy : k.stage.reads ∨ ∃ body, k.tells? = some body) :
    k.stage.rank < (k.breakOff e).stage.rank := by
  rw [tells?] at busy
  rw [breakOff]
  cases stage : k.stage with
  | introduction => exact (by decide : 0 < 6)
  | answer id => exact (by decide : 2 < 6)
  | refusal id => exact (by decide : 1 < 6)
  | challenge id => exact (by decide : 1 < 6)
  | rejection id => exact (by decide : 3 < 6)
  | verdict id admitted =>
    cases admitted with
    | true => exact (by decide : 4 < 5)
    | false => exact (by decide : 4 < 6)
  | _ =>
    rw [stage] at busy
    rcases busy with reads | ⟨body, tells⟩
    · cases reads
    · cases tells

theorem rank_decide {id : String} (stage : k.stage = .admission id) (now : Nanos)
    (admitted : Option Bool) : k.stage.rank < (k.decide now admitted).stage.rank := by
  cases admitted with
  | none =>
    simp only [Gatekeeper.decide, stage]
    exact (by decide : 3 < 6)
  | some admitted =>
    simp only [Gatekeeper.decide, stage]
    exact (by decide : 3 < 4)

end Gatekeeper

namespace Gate

def rank (g : Gate) : Nat := g.keeper.stage.rank

theorem rank_step (g : Gate) (now : Nanos) {h : Happening} (met : (Party.need g).isMet h) :
    g.rank < (Party.step g now h).rank := by
  have stream (other : h ≠ .turn) (further : g.keeper.stage.rank < (g.keeper.meet h).stage.rank) :
      g.rank < (Party.step g now h).rank := by
    rwa [rank, rank, (g.leads_step now other).keeper]
  cases need : Party.need g with
  | frame limit =>
    obtain ⟨reads, -⟩ := Gatekeeper.reads_of_need need
    rw [need] at met
    cases h with
    | received outcome =>
      refine stream (by simp) ?_
      cases outcome with
      | ok frame => exact Gatekeeper.rank_receive reads
      | error e => exact Gatekeeper.rank_breakOff (.inl reads)
    | _ => cases met
  | write written =>
    obtain ⟨body, tells, -⟩ := Gatekeeper.tells_of_need need
    rw [need] at met
    cases h with
    | written outcome =>
      refine stream (by simp) ?_
      cases outcome with
      | ok u => exact Gatekeeper.rank_wrote tells
      | error e => exact Gatekeeper.rank_breakOff (.inr ⟨body, tells⟩)
    | _ => cases met
  | turn =>
    rw [need] at met
    cases h with
    | turn =>
      change g.keeper.stage.rank < (g.consult now).keeper.stage.rank
      rcases Gatekeeper.waits_of_need need with ⟨id, stage⟩ | ⟨id, cause, stage⟩
      · rw [(leads_admission stage now).keeper]
        exact Gatekeeper.rank_decide stage now _
      · rw [(leads_withdrawal stage now).keeper, Gatekeeper.withdraw, stage]
        exact (by decide : 5 < 6)
    | _ => cases met
  | _ =>
    rw [need] at met
    cases h with
    | _ => cases met

end Gate

/-- The applicant has said all that it has to say. -/
structure Presented (max : Nat) (key phrase : String) (given : Bytes) : Prop where
  isId : isAgentId key
  introduced : Allowed max (introductionBody key)
  challenged : Allowed max (challengeBody phrase)
  answered : Allowed max (answerBody phrase)
  held : given = framed (introductionBody key) ++ framed (answerBody phrase)

/-- Where a gatekeeper stands whose client keeps to the exchange. -/
inductive Hosts (max : Nat) (key phrase : String) (given : Bytes) :
    GateStage → Bytes → Nat → Bytes → Bytes → List Reply → Prop
  | introduction {seen left : Bytes} {gone : Nat} (begun : Begun max seen)
      (held : given = seen ++ left) :
      Hosts max key phrase given .introduction seen gone left [] []
  | refusal {id : String} {seen left written rest : Bytes} {gone : Nat} (noId : ¬ isAgentId key)
      (introduced : Allowed max (introductionBody key))
      (held : given = framed (introductionBody key) ++ rest)
      (out : written = outOf max refusalBody gone) :
      Hosts max key phrase given (.refusal id) seen gone left written []
  | challenge {seen left written : Bytes} {gone : Nat} (isId : isAgentId key)
      (introduced : Allowed max (introductionBody key))
      (held : given = framed (introductionBody key) ++ left)
      (out : written = outOf max (challengeBody phrase) gone) :
      Hosts max key phrase given (.challenge key) seen gone left written []
  | answer {seen left : Bytes} {gone : Nat} (isId : isAgentId key)
      (introduced : Allowed max (introductionBody key))
      (challenged : Allowed max (challengeBody phrase)) (begun : Begun max seen)
      (held : given = framed (introductionBody key) ++ (seen ++ left)) :
      Hosts max key phrase given (.answer key) seen gone left (framed (challengeBody phrase)) []
  | admission {seen left : Bytes} {gone : Nat} (presented : Presented max key phrase given) :
      Hosts max key phrase given (.admission key) seen gone left (framed (challengeBody phrase)) []
  | verdict {seen left written : Bytes} {gone : Nat} {admitted : Bool}
      (presented : Presented max key phrase given)
      (out : written = framed (challengeBody phrase) ++ outOf max (verdictBody admitted) gone) :
      Hosts max key phrase given (.verdict key admitted) seen gone left written
        [.admitted admitted]
  | accepted {seen left : Bytes} {gone : Nat} (presented : Presented max key phrase given)
      (told : Allowed max (verdictBody true)) :
      Hosts max key phrase given (.ended (.ok key)) seen gone left (welcome phrase)
        [.admitted true]
  | lost {stage : GateStage} {seen left written : Bytes} {gone : Nat} {heard : List Reply}
      (lost : stage.isLost) : Hosts max key phrase given stage seen gone left written heard

variable {max : Nat} {key phrase : String} {channel : Channel} {given written seen left : Bytes}
  {gone : Nat} {asked : List Command} {heard : List Reply} {k : Gatekeeper} {stage : GateStage}

theorem Identifies.presented {id : String} (h : Identifies max phrase given id)
    (challenged : Allowed max (challengeBody phrase)) (gives : Gives max key phrase given) :
    id = key ∧ Presented max key phrase given := by
  obtain ⟨introduction, answer, rest, split, came, allowed, -⟩ := h
  cases gives.names came.allowed split came.typed
  obtain ⟨introduced, -⟩ := gives.first came.allowed split
  obtain ⟨answered, -, held⟩ := gives.second came.allowed allowed split
  exact ⟨rfl, came.isId, introduced, challenged, answered, held⟩

theorem Entrance.Stands.hosts
    (h : Stands max phrase channel given k.stage seen gone left written asked heard)
    (limit : k.maxFrame = max) (secret : k.phrase = phrase) (out : k.OutAllowed)
    (gives : Gives max key phrase given) :
    Hosts max key phrase given k.stage seen gone left written heard := by
  rw [Gatekeeper.OutAllowed, secret, limit] at out
  generalize k.stage = stage at h out
  cases h with
  | introduction begun held => exact .introduction begun held
  | refusal written_eq came =>
    obtain ⟨frame, rest, split, allowed, typed, noId⟩ := came
    cases gives.names allowed split typed
    obtain ⟨introduced, rfl, -⟩ := gives.first allowed split
    exact .refusal noId introduced split written_eq
  | challenge came held written_eq =>
    cases gives.names came.allowed held came.typed
    obtain ⟨introduced, rfl, -⟩ := gives.first came.allowed held
    exact .challenge came.isId introduced held written_eq
  | answer came begun held =>
    cases gives.names came.allowed held came.typed
    obtain ⟨introduced, rfl, -⟩ := gives.first came.allowed held
    exact .answer came.isId introduced (out _ List.mem_cons_self) begun held
  | rejection _ came =>
    -- An applicant that keeps to the exchange answers as it should.
    obtain ⟨introduction, answer, rest, reply, split, allowed, allowed', typed, wrong⟩ := came
    obtain ⟨-, rfl, -⟩ := gives.second allowed allowed' split
    rw [decode?_answerBody] at typed
    cases typed
    exact absurd rfl wrong
  | admission knows =>
    obtain ⟨rfl, presented⟩ := knows.presented (out _ List.mem_cons_self) gives
    exact .admission presented
  | verdict knows written_eq =>
    obtain ⟨rfl, presented⟩ := knows.presented (out _ List.mem_cons_self) gives
    exact .verdict presented written_eq
  | accepted knows =>
    obtain ⟨rfl, presented⟩ := knows.presented (out _ List.mem_cons_self) gives
    exact .accepted presented (out _ (List.mem_cons_of_mem _ List.mem_cons_self))
  | withdrawal | refused | denied | withdrawn => exact .lost rfl

namespace Hosts

theorem id_eq {id : String}
    (h : Hosts max key phrase given (.admission id) seen gone left written heard) : id = key := by
  cases h with
  | admission => rfl
  | lost lost => cases lost

theorem next_ne_tooLarge (h : Hosts max key phrase given stage seen gone left written heard)
    (gives : Gives max key phrase given) (reads : stage.reads) (size : Nat) :
    next max seen ≠ .tooLarge size := by
  cases h with
  | introduction begun held =>
    cases gives with
    | introduction n => exact next_ne_tooLarge_outOf held.symm size
    | answer introduced n => exact Frame.next_ne_tooLarge introduced held.symm size
  | answer _ introduced _ _ held =>
    obtain ⟨-, -, n, behind⟩ := gives.first introduced held
    exact next_ne_tooLarge_outOf behind size
  | lost lost =>
    cases stage with
    | withdrawal | ended => cases reads
    | _ => cases lost
  | _ => cases reads

theorem receives {body rest : Bytes}
    (h : Hosts max key phrase given k.stage seen gone left written heard)
    (secret : k.phrase = phrase) (gives : Gives max key phrase given) (reads : k.stage.reads)
    (whole : next max seen = .frame body rest) : ¬ (k.receive body).stage.isLost := by
  rw [Gatekeeper.receive, secret]
  generalize k.stage = stage at h reads
  cases h with
  | introduction begun held =>
    obtain ⟨allowed, rfl⟩ := Entrance.eq_framed_of_begun begun whole
    obtain ⟨-, rfl, -⟩ := gives.first allowed held
    rw [decode?_introductionBody]
    dsimp only
    split <;> exact Bool.false_ne_true
  | answer _ introduced _ begun held =>
    obtain ⟨allowed, rfl⟩ := Entrance.eq_framed_of_begun begun whole
    obtain ⟨-, rfl, -⟩ := gives.second introduced allowed held
    rw [decode?_answerBody]
    dsimp only
    rw [if_pos rfl]
    exact Bool.false_ne_true
  | lost lost =>
    cases stage with
    | withdrawal | ended => cases reads
    | _ => cases lost
  | _ => cases reads

theorem waiting (h : Hosts max key phrase given stage seen gone [] written heard)
    (reads : stage.reads) : written = [] ∧ given = seen ∨
      written = framed (challengeBody phrase) ∧ Allowed max (challengeBody phrase) ∧
        given = framed (introductionBody key) ++ seen := by
  cases h with
  | introduction begun held => exact .inl ⟨rfl, by rw [held, List.append_nil]⟩
  | answer _ _ challenged begun held => exact .inr ⟨rfl, challenged, by rw [held, List.append_nil]⟩
  | lost lost =>
    cases stage with
    | withdrawal | ended => cases reads
    | _ => cases lost
  | _ => cases reads

theorem telling {body : Bytes} (h : Hosts max key phrase given k.stage seen gone left written heard)
    (tells : k.tells? = some body) :
    (∃ rest, given = framed (introductionBody key) ++ rest) ∧
      (given = framed (introductionBody key) ++ framed (answerBody phrase) ∨
        written = outOf max refusalBody gone ∨
          written = outOf max (challengeBody phrase) gone) := by
  rw [Gatekeeper.tells?] at tells
  generalize k.stage = stage at h tells
  cases h with
  | refusal _ _ held out => exact ⟨⟨_, held⟩, .inr (.inl out)⟩
  | challenge _ _ held out => exact ⟨⟨_, held⟩, .inr (.inr out)⟩
  | verdict presented => exact ⟨⟨_, presented.held⟩, .inl presented.held⟩
  | lost lost =>
    cases stage with
    | withdrawal | ended => cases tells
    | _ => cases lost
  | _ => cases tells

theorem hindered_of_denied (mem : .admitted false ∈ heard) : Hindered max key phrase heard :=
  .inr (.inr ⟨_, mem, by simp⟩)

theorem tells {body : Bytes} (h : Hosts max key phrase given k.stage seen gone left written heard)
    (secret : k.phrase = phrase) (tells : k.tells? = some body) :
    Hindered max key phrase heard ∨
      k.stage = .challenge key ∧ body = challengeBody phrase ∧
        written = outOf max (challengeBody phrase) gone ∨
      k.stage = .verdict key true ∧ body = verdictBody true ∧
        written = framed (challengeBody phrase) ++ outOf max (verdictBody true) gone := by
  rw [Gatekeeper.tells?, secret] at tells
  generalize k.stage = stage at h tells
  cases h with
  | refusal noId => exact .inl (.inl noId)
  | challenge _ _ _ out =>
    cases tells
    exact .inr (.inl ⟨rfl, rfl, out⟩)
  | @verdict _ _ _ _ admitted _ out =>
    cases tells
    cases admitted with
    | true => exact .inr (.inr ⟨rfl, rfl, out⟩)
    | false => exact .inl (hindered_of_denied List.mem_cons_self)
  | lost lost =>
    cases stage with
    | withdrawal | ended => cases tells
    | _ => cases lost
  | _ => cases tells

theorem hindered_of_large {body : Bytes}
    (h : Hosts max key phrase given k.stage seen gone left written heard)
    (secret : k.phrase = phrase) (tells : k.tells? = some body) (large : ¬ Allowed max body) :
    Hindered max key phrase heard := by
  rcases h.tells secret tells with hindered | ⟨-, rfl, -⟩ | ⟨-, rfl, -⟩
  · exact hindered
  · exact .inr (.inl fun fits => large fits.challenge)
  · exact .inr (.inl fun fits => large fits.verdict)

theorem hindered_of_wrote {body : Bytes}
    (h : Hosts max key phrase given k.stage seen gone left written heard)
    (secret : k.phrase = phrase) (tells : k.tells? = some body) (lost : k.wrote.stage.isLost) :
    Hindered max key phrase heard := by
  rw [Gatekeeper.wrote] at lost
  rcases h.tells secret tells with hindered | ⟨stage, -⟩ | ⟨stage, -⟩
  · exact hindered
  · rw [stage] at lost
    cases lost
  · rw [stage] at lost
    cases lost

theorem hindered_of_broken {body : Bytes}
    (h : Hosts max key phrase given k.stage seen gone left written heard)
    (secret : k.phrase = phrase) (tells : k.tells? = some body) (allowed : Allowed max body)
    (waits : (framed body).drop gone ≠ [])
    (closed : Hindered max key phrase heard ∨
      given = framed (introductionBody key) ++ framed (answerBody phrase) ∧
        written = welcome phrase) :
    Hindered max key phrase heard := by
  refine closed.elim id ?_
  rintro ⟨-, told⟩
  rcases h.tells secret tells with hindered | ⟨-, rfl, out⟩ | ⟨-, rfl, out⟩
  · exact hindered
  · exact absurd (outOf_split allowed (out.symm.trans told)).2.2 (framed_ne_nil _)
  · exact absurd (List.append_cancel_left (out.symm.trans told)) (outOf_ne fun _ => waits)

theorem hindered_of_finished
    (h : Hosts max key phrase given stage seen gone [] written heard) (reads : stage.reads)
    (closed : Hindered max key phrase heard ∨
      given = framed (introductionBody key) ++ framed (answerBody phrase) ∧
        written = welcome phrase) :
    Hindered max key phrase heard := by
  refine closed.resolve_right ?_
  rintro ⟨-, told⟩
  rw [welcome] at told
  cases h with
  | introduction => exact framed_ne_nil _ (List.append_eq_nil_iff.mp told.symm).1
  | answer => exact framed_ne_nil _ (List.append_right_eq_self.mp told.symm)
  | lost lost =>
    cases stage with
    | withdrawal | ended => cases reads
    | _ => cases lost
  | _ => cases reads

theorem hindered_of_undecided {now : Nanos} {r : Reply} {id : String}
    (stage : k.stage = .admission id) (lost : (k.decide now r.admitted?).stage.isLost) :
    r ≠ .admitted true := by
  rintro rfl
  have next : (k.decide now (some true)).stage = .verdict id true := by
    simp only [Gatekeeper.decide, stage]
  rw [Reply.admitted?, next] at lost
  cases lost

variable {s s' : Seat Gate} {now : Nanos} {source source' sink sink' : Pipe}

/-- A gatekeeper fails only for a reason that keeps the applicant out. -/
theorem hindered
    (h : Hosts max key phrase given s.state.keeper.stage s.seen s.gone source.bytes written heard)
    (limit : s.state.keeper.maxFrame = max) (secret : s.state.keeper.phrase = phrase)
    (gives : Gives max key phrase given)
    (closed : source.isOpen = false ∨ sink.isOpen = false → Hindered max key phrase heard ∨
      given = framed (introductionBody key) ++ framed (answerBody phrase) ∧
        written = welcome phrase)
    (fine : ¬ s.state.keeper.stage.isLost)
    (step : Seat.Step s now source sink s' source' sink') (lost : s'.state.keeper.stage.isLost) :
    Hindered max key phrase (heard ++ s.state.answers) := by
  have met (happening : Happening) (stream : happening ≠ .turn)
      (lost : (s.happen now happening).state.keeper.stage.isLost) :
      (s.state.keeper.meet happening).stage.isLost :=
    (s.state.leads_step now stream).keeper ▸ lost
  cases step with
  | receives needs whole =>
    obtain ⟨reads, rfl⟩ := Gatekeeper.reads_of_need needs
    exact absurd (met (.received (.ok _)) (by simp) lost)
      (h.receives secret gives reads (limit ▸ whole))
  | refuses needs above =>
    obtain ⟨reads, rfl⟩ := Gatekeeper.reads_of_need needs
    exact absurd (limit ▸ above) (h.next_ne_tooLarge gives reads _)
  | finishes needs shut incomplete empty =>
    obtain ⟨reads, -⟩ := Gatekeeper.reads_of_need needs
    exact ((empty ▸ h).hindered_of_finished reads (closed (.inl shut))).append _
  | fails needs =>
    obtain ⟨body, tells, failed⟩ := Gatekeeper.tells_of_need needs
    refine (h.hindered_of_large secret tells fun allowed => ?_).append _
    rw [limit, write?_eq_ok allowed] at failed
    cases failed
  | completes needs =>
    obtain ⟨body, tells, -⟩ := Gatekeeper.tells_of_need needs
    exact (h.hindered_of_wrote secret tells (met (.written (.ok ())) (by simp) lost)).append _
  | breaks needs waits shut =>
    obtain ⟨body, tells, made⟩ := Gatekeeper.tells_of_need needs
    obtain ⟨allowed, rfl⟩ := write?_eq_ok_iff.mp made
    exact (h.hindered_of_broken secret tells (limit ▸ allowed) waits (closed (.inr shut))).append _
  | turns needs =>
    rcases Gatekeeper.waits_of_need needs with ⟨id, stage⟩ | ⟨id, cause, stage⟩
    · have leads := Gate.leads_admission stage now
      have undecided : (s.state.keeper.decide now
          (s.state.timeline.request (.connect id s.state.channel)).1.admitted?).stage.isLost :=
        leads.keeper ▸ lost
      have no := hindered_of_undecided stage undecided
      rw [Gate.answers, stage]
      exact .inr (.inr ⟨_, List.mem_append_right _ List.mem_cons_self, no⟩)
    · rw [stage] at fine
      exact absurd rfl fine
  | takes | puts | leaves => exact absurd lost fine

end Hosts

end AgentBroker
