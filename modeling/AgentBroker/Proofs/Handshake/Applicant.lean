import AgentBroker.Handshake.Applicant
import AgentBroker.Proofs.Handshake.Exchange

/-!
# An applicant at work

Where an applicant stands is read off what it has given and what it has been told. It fails only for
a reason that keeps it out: its key is no agent id, a message is too large, or the scheduler does
not admit it.
-/

namespace AgentBroker

open AgentBroker.Frame AgentBroker.Reading

variable {max : Nat} {key phrase : String} {heard : List Reply}

/-- Something keeps the applicant out. -/
def Hindered (max : Nat) (key phrase : String) (heard : List Reply) : Prop :=
  ¬ isAgentId key ∨ ¬ Fits max key phrase ∨ ∃ r ∈ heard, r ≠ .admitted true

theorem Hindered.append (h : Hindered max key phrase heard) (more : List Reply) :
    Hindered max key phrase (heard ++ more) := by
  rcases h with invalid | large | ⟨r, mem, no⟩
  · exact .inl invalid
  · exact .inr (.inl large)
  · exact .inr (.inr ⟨r, List.mem_append_left _ mem, no⟩)

def ApplicantStage.rank : ApplicantStage → Nat
  | .introduction => 0
  | .challenge => 1
  | .answer _ => 2
  | .verdict => 3
  | .ended _ => 4

namespace Applicant

variable {a : Applicant}

def rank (a : Applicant) : Nat := a.stage.rank

theorem reads_of_need {limit : Nat} (h : a.need = .frame limit) :
    limit = a.maxFrame ∧ (a.stage = .challenge ∨ a.stage = .verdict) := by
  rw [need] at h
  cases stage : a.stage with
  | challenge =>
    rw [stage] at h
    cases h
    exact ⟨rfl, .inl rfl⟩
  | verdict =>
    rw [stage] at h
    cases h
    exact ⟨rfl, .inr rfl⟩
  | _ => rw [stage] at h; cases h

theorem writes_of_need {written : Except WireError Bytes} (h : a.need = .write written) :
    a.stage = .introduction ∧ written = write? a.maxFrame (introductionBody a.publicKey) ∨
      ∃ phrase, a.stage = .answer phrase ∧ written = write? a.maxFrame (answerBody phrase) := by
  rw [need] at h
  cases stage : a.stage with
  | introduction =>
    rw [stage] at h
    cases h
    exact .inl ⟨rfl, rfl⟩
  | answer phrase =>
    rw [stage] at h
    cases h
    exact .inr ⟨phrase, rfl, rfl⟩
  | _ => rw [stage] at h; cases h

theorem ended_of_need (h : a.need = .leave) : ∃ r, a.stage = .ended r := by
  rw [need] at h
  cases stage : a.stage with
  | ended r => exact ⟨r, rfl⟩
  | _ => rw [stage] at h; cases h

theorem need_ne (a : Applicant) : a.need ≠ .turn ∧ a.need ≠ .rest := by
  rw [need]
  cases a.stage with
  | _ => exact ⟨by simp [message], by simp [message]⟩

theorem rank_lt (busy : a.need ≠ .leave) : a.rank < 4 := by
  rw [need] at busy
  rw [rank]
  cases stage : a.stage with
  | ended r =>
    rw [stage] at busy
    exact absurd rfl busy
  | _ => simp [ApplicantStage.rank]

theorem rank_receive {frame : Bytes} (reads : a.stage = .challenge ∨ a.stage = .verdict) :
    a.rank < (a.receive frame).rank := by
  rw [receive, rank]
  rcases reads with stage | stage
  · rw [stage]
    dsimp only
    cases (Wire.decode? frame : Option Challenge) with
    | none => exact (by decide : 1 < 4)
    | some c =>
      cases c with
      | phrase => exact (by decide : 1 < 2)
      | failure => exact (by decide : 1 < 4)
  · rw [stage]
    dsimp only
    cases (Wire.decode? frame : Option Verdict) with
    | none => exact (by decide : 3 < 4)
    | some v =>
      dsimp only
      split
      · exact (by decide : 3 < 4)
      · exact (by decide : 3 < 4)

theorem rank_wrote {written : Except WireError Bytes} (writes : a.need = .write written) :
    a.rank < a.wrote.rank := by
  rw [wrote, rank]
  rcases writes_of_need writes with ⟨stage, -⟩ | ⟨phrase, stage, -⟩
  · rw [stage]
    exact (by decide : 0 < 1)
  · rw [stage]
    exact (by decide : 2 < 3)

theorem rank_step (a : Applicant) (now : Nanos) {h : Happening} (met : a.need.isMet h) :
    a.rank < (Party.step a now h).rank := by
  cases need : a.need with
  | frame limit =>
    rw [need] at met
    cases h with
    | received outcome =>
      cases outcome with
      | ok frame => exact rank_receive (reads_of_need need).2
      | error e => exact rank_lt (by simp [need])
    | _ => cases met
  | write written =>
    rw [need] at met
    cases h with
    | written outcome =>
      cases outcome with
      | ok u => exact rank_wrote need
      | error e => exact rank_lt (by simp [need])
    | _ => cases met
  | turn => exact absurd need a.need_ne.1
  | rest => exact absurd need a.need_ne.2
  | leave =>
    rw [need] at met
    cases h with
    | _ => cases met

theorem settings_step (a : Applicant) (now : Nanos) (h : Happening) :
    (Party.step a now h : Applicant).maxFrame = a.maxFrame ∧
      (Party.step a now h : Applicant).publicKey = a.publicKey := by
  cases h with
  | received outcome =>
    cases outcome with
    | ok frame =>
      change (a.receive frame).maxFrame = _ ∧ (a.receive frame).publicKey = _
      rw [receive]
      split
      · split <;> exact ⟨rfl, rfl⟩
      · split
        · exact ⟨rfl, rfl⟩
        · split <;> exact ⟨rfl, rfl⟩
      · exact ⟨rfl, rfl⟩
    | error e => exact ⟨rfl, rfl⟩
  | written outcome =>
    cases outcome with
    | ok u =>
      change a.wrote.maxFrame = _ ∧ a.wrote.publicKey = _
      rw [wrote]
      split <;> exact ⟨rfl, rfl⟩
    | error e => exact ⟨rfl, rfl⟩
  | turn => exact ⟨rfl, rfl⟩
  | alarm => exact ⟨rfl, rfl⟩

theorem settings_seat {s s' : Seat Applicant} {now : Nanos} {source source' sink sink' : Pipe}
    (step : s.Step now source sink s' source' sink') :
    s'.state.maxFrame = s.state.maxFrame ∧ s'.state.publicKey = s.state.publicKey := by
  cases step with
  | takes | puts | leaves => exact ⟨rfl, rfl⟩
  | _ => exact settings_step _ _ _

end Applicant

/-- Where an applicant stands, by what it has given and what it has been told. -/
inductive Applies (max : Nat) (key phrase : String) (heard : List Reply) :
    ApplicantStage → Bytes → Nat → Bytes → Bytes → Bytes → Prop
  | introduction {seen left : Bytes} {gone : Nat} :
      Applies max key phrase heard .introduction seen gone left
        (outOf max (introductionBody key) gone) left
  | challenge {seen left : Bytes} {gone : Nat} (introduced : Allowed max (introductionBody key))
      (begun : Begun max seen) :
      Applies max key phrase heard .challenge seen gone left
        (framed (introductionBody key)) (seen ++ left)
  | answer {seen left : Bytes} {gone : Nat} (introduced : Allowed max (introductionBody key))
      (challenged : Allowed max (challengeBody phrase)) :
      Applies max key phrase heard (.answer phrase) seen gone left
        (framed (introductionBody key) ++ outOf max (answerBody phrase) gone)
        (framed (challengeBody phrase) ++ left)
  | verdict {seen left : Bytes} {gone : Nat} (introduced : Allowed max (introductionBody key))
      (challenged : Allowed max (challengeBody phrase)) (answered : Allowed max (answerBody phrase))
      (begun : Begun max seen) :
      Applies max key phrase heard .verdict seen gone left
        (framed (introductionBody key) ++ framed (answerBody phrase))
        (framed (challengeBody phrase) ++ (seen ++ left))
  | accepted {seen left : Bytes} {gone : Nat} (fits : Fits max key phrase) :
      Applies max key phrase heard (.ended (.ok ())) seen gone left
        (framed (introductionBody key) ++ framed (answerBody phrase))
        (framed (challengeBody phrase) ++ (framed (verdictBody true) ++ left))
  | failed {e : HandshakeError} {seen left given written : Bytes} {gone : Nat}
      (kind : e = .refused ∨ ∃ cause, e = .transport cause) (gives : Gives max key phrase given)
      (hindered : Hindered max key phrase heard) :
      Applies max key phrase heard (.ended (.error e)) seen gone left given written

/-- Whatever can stop an applicant keeps it out. -/
structure Blames (max : Nat) (key phrase : String) (heard : List Reply) (given written : Bytes)
    (source sink : Pipe) : Prop where
  refused : Allowed max refusalBody → written = framed refusalBody → Hindered max key phrase heard
  denied : Allowed max (challengeBody phrase) → Allowed max (verdictBody false) →
    written = framed (challengeBody phrase) ++ framed (verdictBody false) →
    Hindered max key phrase heard
  /-- A gatekeeper that has left has failed, or it has accepted the applicant. -/
  closed : source.isOpen = false ∨ sink.isOpen = false → Hindered max key phrase heard ∨
    given = framed (introductionBody key) ++ framed (answerBody phrase) ∧ written = welcome phrase

namespace Applies

variable {stage : ApplicantStage} {seen left given written body rest : Bytes} {gone : Nat}
  {a : Applicant} {s s' : Seat Applicant} {now : Nanos} {source source' sink sink' : Pipe}

theorem gives (h : Applies max key phrase heard stage seen gone left given written) :
    Gives max key phrase given := by
  have whole (introduced : Allowed max (introductionBody key))
      (answered : Allowed max (answerBody phrase)) : Gives max key phrase
        (framed (introductionBody key) ++ framed (answerBody phrase)) := by
    have more := @Gives.answer max key phrase introduced (framed (answerBody phrase)).length
    rwa [outOf, if_pos answered, List.take_length] at more
  cases h with
  | introduction => exact .introduction gone
  | challenge introduced =>
    have more := @Gives.answer max key phrase introduced 0
    rwa [outOf_zero, List.append_nil] at more
  | answer introduced => exact .answer introduced gone
  | verdict introduced _ answered => exact whole introduced answered
  | accepted fits => exact whole fits.introduction fits.answer
  | failed _ gives => exact gives

theorem hear (h : Applies max key phrase heard stage seen gone left given written) (more : Bytes)
    (replies : List Reply) :
    Applies max key phrase (heard ++ replies) stage seen gone (left ++ more) given
      (written ++ more) := by
  cases h with
  | introduction => exact .introduction
  | challenge introduced begun =>
    rw [List.append_assoc]
    exact .challenge introduced begun
  | answer introduced challenged =>
    rw [List.append_assoc]
    exact .answer introduced challenged
  | verdict introduced challenged answered begun =>
    rw [List.append_assoc, List.append_assoc]
    exact .verdict introduced challenged answered begun
  | accepted fits =>
    rw [List.append_assoc, List.append_assoc]
    exact .accepted fits
  | failed kind gives hindered => exact .failed kind gives (hindered.append replies)

theorem receives (h : Applies max key phrase heard a.stage seen gone left given written)
    (speaks : Speaks max phrase written) (reads : a.stage = .challenge ∨ a.stage = .verdict)
    (whole : next max seen = .frame body rest)
    (refused : Allowed max refusalBody → written = framed refusalBody →
      Hindered max key phrase heard)
    (denied : Allowed max (challengeBody phrase) → Allowed max (verdictBody false) →
      written = framed (challengeBody phrase) ++ framed (verdictBody false) →
      Hindered max key phrase heard) :
    Applies max key phrase heard (a.receive body).stage [] 0 left given written := by
  have gives := h.gives
  rw [Applicant.receive]
  rcases reads with stage | stage
  · rw [stage] at h ⊢
    cases h with
    | challenge introduced begun =>
      obtain ⟨allowed, rfl⟩ := Entrance.eq_framed_of_begun begun whole
      rcases speaks.first allowed rfl with ⟨rfl, rfl⟩ | rfl
      · rw [decode?_refusalBody]
        exact .failed (.inl rfl) gives (refused allowed (List.append_nil _))
      · rw [decode?_challengeBody]
        have none : framed (introductionBody key) =
            framed (introductionBody key) ++ outOf max (answerBody phrase) 0 := by
          rw [outOf_zero, List.append_nil]
        rw [none]
        exact .answer introduced allowed
  · rw [stage] at h ⊢
    cases h with
    | verdict introduced challenged answered begun =>
      obtain ⟨allowed, rfl⟩ := Entrance.eq_framed_of_begun begun whole
      obtain ⟨admitted, n, out⟩ := speaks.second challenged rfl
      obtain ⟨fits, rfl, rfl⟩ := outOf_split allowed out.symm
      rw [decode?_verdictBody]
      cases admitted with
      | true => exact .accepted ⟨introduced, challenged, answered, fits⟩
      | false =>
        rw [List.append_nil] at denied
        exact .failed (.inl rfl) gives (denied challenged fits rfl)

theorem next_ne_tooLarge (h : Applies max key phrase heard stage seen gone left given written)
    (speaks : Speaks max phrase written) (reads : stage = .challenge ∨ stage = .verdict)
    (size : Nat) : next max seen ≠ .tooLarge size := by
  cases h with
  | challenge => exact speaks.next_ne_tooLarge rfl size
  | verdict _ challenged =>
    obtain ⟨admitted, n, out⟩ := speaks.second challenged rfl
    exact next_ne_tooLarge_outOf out size
  | _ => rcases reads with reads | reads <;> cases reads

theorem takes (h : Applies max key phrase heard stage seen gone left given written)
    (reads : stage = .challenge ∨ stage = .verdict) {piece rest : Bytes}
    (incomplete : next max seen = .incomplete) (few : piece.length ≤ lacking seen)
    (split : left = piece ++ rest) :
    Applies max key phrase heard stage (seen ++ piece) gone rest given written := by
  have begun := (begun_append incomplete).2 piece few
  cases h with
  | challenge introduced =>
    rw [split, ← List.append_assoc]
    exact .challenge introduced begun
  | verdict introduced challenged answered =>
    rw [split, ← List.append_assoc seen]
    exact .verdict introduced challenged answered begun
  | _ => rcases reads with reads | reads <;> cases reads

theorem waiting (h : Applies max key phrase heard stage seen gone [] given written)
    (reads : stage = .challenge ∨ stage = .verdict) :
    given = framed (introductionBody key) ∧ written = seen ∧ Allowed max (introductionBody key) ∨
      given = framed (introductionBody key) ++ framed (answerBody phrase) ∧
        written = framed (challengeBody phrase) ++ seen ∧ Allowed max (answerBody phrase) := by
  cases h with
  | challenge introduced => exact .inl ⟨rfl, List.append_nil _, introduced⟩
  | verdict _ _ answered => exact .inr ⟨rfl, by rw [List.append_nil], answered⟩
  | _ => rcases reads with reads | reads <;> cases reads

theorem hindered_of_finished
    (h : Applies max key phrase heard stage seen gone [] given written)
    (reads : stage = .challenge ∨ stage = .verdict) (incomplete : next max seen = .incomplete)
    (closed : Hindered max key phrase heard ∨
      given = framed (introductionBody key) ++ framed (answerBody phrase) ∧
        written = welcome phrase) :
    Hindered max key phrase heard := by
  refine closed.resolve_right ?_
  rintro ⟨both, told⟩
  rw [welcome] at told
  have whole : framed (introductionBody key) ≠
      framed (introductionBody key) ++ framed (answerBody phrase) := by
    intro same
    exact framed_ne_nil _ (List.append_right_eq_self.mp same.symm)
  cases h with
  | challenge => exact whole both
  | verdict introduced challenged answered =>
    rw [List.append_nil] at told
    exact next_framed_ne verdict_fits incomplete (List.append_cancel_left told)
  | _ => rcases reads with reads | reads <;> cases reads

theorem puts {sent : Except WireError Bytes} {bytes : Bytes}
    (h : Applies max key phrase heard a.stage seen gone left given written)
    (limit : a.maxFrame = max) (name : a.publicKey = key) (writes : a.need = .write sent)
    (made : sent = .ok bytes) (n : Nat) :
    Applies max key phrase heard a.stage seen (gone + n) left
      (given ++ (bytes.drop gone).take n) written := by
  rcases Applicant.writes_of_need writes with ⟨stage, rfl⟩ | ⟨phrase', stage, rfl⟩
  · obtain ⟨allowed, rfl⟩ := write?_eq_ok_iff.mp made
    rw [limit, name] at allowed
    rw [name]
    rw [stage] at h ⊢
    cases h with
    | introduction =>
      rw [outOf_add allowed]
      exact .introduction
  · obtain ⟨allowed, rfl⟩ := write?_eq_ok_iff.mp made
    rw [limit] at allowed
    rw [stage] at h ⊢
    cases h with
    | answer introduced challenged =>
      rw [List.append_assoc, outOf_add allowed]
      exact .answer introduced challenged

theorem wrote {sent : Except WireError Bytes} {bytes : Bytes}
    (h : Applies max key phrase heard a.stage seen gone left given written)
    (limit : a.maxFrame = max) (name : a.publicKey = key) (writes : a.need = .write sent)
    (made : sent = .ok bytes) (out : bytes.drop gone = []) :
    Applies max key phrase heard a.wrote.stage [] 0 left given written := by
  have fresh : Begun max [] := .inl (Nat.zero_le _)
  rw [Applicant.wrote]
  rcases Applicant.writes_of_need writes with ⟨stage, rfl⟩ | ⟨phrase', stage, rfl⟩
  · obtain ⟨allowed, rfl⟩ := write?_eq_ok_iff.mp made
    rw [limit, name] at allowed
    rw [name] at out
    rw [stage] at h ⊢
    cases h with
    | introduction =>
      rw [outOf_eq allowed out]
      exact .challenge allowed fresh
  · obtain ⟨allowed, rfl⟩ := write?_eq_ok_iff.mp made
    rw [limit] at allowed
    rw [stage] at h ⊢
    cases h with
    | answer introduced challenged =>
      rw [outOf_eq allowed out]
      exact .verdict introduced challenged allowed fresh

theorem hindered_of_broken {sent : Except WireError Bytes} {bytes : Bytes}
    (h : Applies max key phrase heard a.stage seen gone left given written)
    (limit : a.maxFrame = max) (name : a.publicKey = key) (writes : a.need = .write sent)
    (made : sent = .ok bytes) (waits : bytes.drop gone ≠ [])
    (closed : Hindered max key phrase heard ∨
      given = framed (introductionBody key) ++ framed (answerBody phrase) ∧
        written = welcome phrase) :
    Hindered max key phrase heard := by
  refine closed.resolve_right ?_
  rintro ⟨both, -⟩
  rcases Applicant.writes_of_need writes with ⟨stage, rfl⟩ | ⟨phrase', stage, rfl⟩
  · obtain ⟨allowed, rfl⟩ := write?_eq_ok_iff.mp made
    rw [limit, name] at allowed
    rw [stage] at h
    cases h with
    | introduction => exact framed_ne_nil _ (outOf_split allowed both).2.2
  · obtain ⟨allowed, rfl⟩ := write?_eq_ok_iff.mp made
    rw [stage] at h
    cases h with
    | answer => exact outOf_ne (fun _ => waits) (List.append_cancel_left both)

theorem hindered_of_large {e : WireError}
    (h : Applies max key phrase heard a.stage seen gone left given written)
    (limit : a.maxFrame = max) (name : a.publicKey = key) (writes : a.need = .write (.error e)) :
    Hindered max key phrase heard := by
  refine .inr (.inl fun fits => ?_)
  rcases Applicant.writes_of_need writes with ⟨stage, made⟩ | ⟨phrase', stage, made⟩
  · rw [limit, name, write?_eq_ok fits.introduction] at made
    cases made
  · rw [stage] at h
    cases h with
    | answer =>
      rw [limit, write?_eq_ok fits.answer] at made
      cases made

theorem fails {e : HandshakeError}
    (h : Applies max key phrase heard stage seen gone left given written)
    (kind : e = .refused ∨ ∃ cause, e = .transport cause)
    (hindered : Hindered max key phrase heard) :
    Applies max key phrase heard (.ended (.error e)) [] 0 left given written :=
  .failed kind h.gives hindered

theorem step (h : Applies max key phrase heard s.state.stage s.seen s.gone source.bytes given
      written)
    (limit : s.state.maxFrame = max) (name : s.state.publicKey = key)
    (speaks : Speaks max phrase written)
    (blames : Blames max key phrase heard given written source sink)
    (step : Seat.Step s now source sink s' source' sink') :
    Applies max key phrase heard s'.state.stage s'.seen s'.gone source'.bytes
      (given ++ sink'.bytes.drop sink.bytes.length) written := by
  have silent : given ++ sink.bytes.drop sink.bytes.length = given := by
    rw [List.drop_length, List.append_nil]
  cases step with
  | receives needs whole =>
    obtain ⟨rfl, reads⟩ := Applicant.reads_of_need needs
    rw [silent]
    exact h.receives speaks reads (limit ▸ whole) blames.refused blames.denied
  | refuses needs above =>
    obtain ⟨rfl, reads⟩ := Applicant.reads_of_need needs
    exact absurd (limit ▸ above) (h.next_ne_tooLarge speaks reads _)
  | takes needs incomplete few split =>
    obtain ⟨rfl, reads⟩ := Applicant.reads_of_need needs
    rw [silent]
    exact h.takes reads (limit ▸ incomplete) few split
  | finishes needs closed incomplete empty =>
    obtain ⟨rfl, reads⟩ := Applicant.reads_of_need needs
    rw [silent]
    refine h.fails (.inr ⟨_, rfl⟩) ?_
    exact (empty ▸ h).hindered_of_finished reads (limit ▸ incomplete) (blames.closed (.inl closed))
  | fails needs =>
    rw [silent]
    exact h.fails (.inr ⟨_, rfl⟩) (h.hindered_of_large limit name needs)
  | completes needs out =>
    rw [silent]
    exact h.wrote limit name needs rfl out
  | breaks needs waits closed =>
    rw [silent]
    refine h.fails (.inr ⟨_, rfl⟩) ?_
    exact h.hindered_of_broken limit name needs rfl waits (blames.closed (.inr closed))
  | puts needs =>
    rw [Pipe.put, List.drop_left]
    exact h.puts limit name needs rfl sink.room
  | turns needs => exact absurd needs s.state.need_ne.1
  | leaves =>
    have none : given ++ sink.close.bytes.drop sink.bytes.length = given := silent
    rw [none]
    exact h

end Applies

end AgentBroker
