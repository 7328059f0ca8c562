import AgentBroker.Proofs.Broker.Apart
import AgentBroker.Proofs.Handshake.Entrance

/-!
# What a handshake comes to

Whatever a client does: it is admitted only once, when it has introduced itself and answered the
challenge, and it is told so only when it has been admitted. An admission that cannot be told is
taken back, and nothing of it stays behind.
-/

namespace AgentBroker

open AgentBroker.Frame AgentBroker.Reading

structure Introduces (max : Nat) (id : String) (frame : Bytes) : Prop where
  allowed : Allowed max frame
  typed : Wire.decode? frame = some (Introduction.mk id)
  isId : isAgentId id

/-- The stream begins with a frame that introduces an agent and one that answers the challenge. -/
def Identifies (max : Nat) (phrase : String) (given : Bytes) (id : String) : Prop :=
  ∃ introduction answer rest, given = framed introduction ++ (framed answer ++ rest) ∧
    Introduces max id introduction ∧
    Allowed max answer ∧ Wire.decode? answer = some (Answer.mk (answerTo phrase))

theorem Identifies.append {max : Nat} {phrase : String} {given : Bytes} {id : String}
    (h : Identifies max phrase given id) (more : Bytes) :
    Identifies max phrase (given ++ more) id := by
  obtain ⟨introduction, answer, rest, split, came, allowed, typed⟩ := h
  refine ⟨introduction, answer, rest ++ more, ?_, came, allowed, typed⟩
  rw [split, List.append_assoc, List.append_assoc]

def Misnames (max : Nat) (given : Bytes) (id : String) : Prop :=
  ∃ introduction rest, given = framed introduction ++ rest ∧ Allowed max introduction ∧
    Wire.decode? introduction = some (Introduction.mk id) ∧ ¬ isAgentId id

theorem Misnames.append {max : Nat} {given : Bytes} {id : String} (h : Misnames max given id)
    (more : Bytes) : Misnames max (given ++ more) id := by
  obtain ⟨introduction, rest, split, came⟩ := h
  refine ⟨introduction, rest ++ more, ?_, came⟩
  rw [split, List.append_assoc]

def Misanswers (max : Nat) (phrase : String) (given : Bytes) : Prop :=
  ∃ introduction answer rest reply, given = framed introduction ++ (framed answer ++ rest) ∧
    Allowed max introduction ∧ Allowed max answer ∧
    Wire.decode? answer = some (Answer.mk reply) ∧ reply ≠ answerTo phrase

theorem Misanswers.append {max : Nat} {phrase : String} {given : Bytes}
    (h : Misanswers max phrase given) (more : Bytes) :
    Misanswers max phrase (given ++ more) := by
  obtain ⟨introduction, answer, rest, reply, split, came⟩ := h
  refine ⟨introduction, answer, rest ++ more, reply, ?_, came⟩
  rw [split, List.append_assoc, List.append_assoc]

def refusalBody : Bytes := Wire.encode Challenge.failure

def challengeBody (phrase : String) : Bytes := Wire.encode (Challenge.phrase phrase)

def verdictBody (admitted : Bool) : Bytes := Wire.encode (Verdict.mk admitted)

/-- What is out of a frame of which so many bytes have gone. -/
def outOf (max : Nat) (body : Bytes) (gone : Nat) : Bytes :=
  if Allowed max body then (framed body).take gone else []

theorem outOf_isPrefix (max : Nat) (body : Bytes) (gone : Nat) :
    outOf max body gone <+: framed body := by
  rw [outOf]
  split
  · exact List.take_prefix _ _
  · exact List.nil_prefix

theorem outOf_zero (max : Nat) (body : Bytes) : outOf max body 0 = [] := by
  rw [outOf]
  split
  · rfl
  · rfl

theorem outOf_add {max : Nat} {body : Bytes} (allowed : Allowed max body) (gone n : Nat) :
    outOf max body gone ++ ((framed body).drop gone).take n = outOf max body (gone + n) := by
  rw [outOf, outOf, if_pos allowed, if_pos allowed, List.take_add]

theorem outOf_eq {max : Nat} {body : Bytes} (allowed : Allowed max body) {gone : Nat}
    (out : (framed body).drop gone = []) : outOf max body gone = framed body := by
  have whole := List.take_append_drop gone (framed body)
  rw [out, List.append_nil] at whole
  rw [outOf, if_pos allowed, whole]

theorem framed_ne_nil (body : Bytes) : framed body ≠ [] := by
  rw [framed, lengthBytes]
  exact List.cons_ne_nil _ _

theorem outOf_ne {max : Nat} {body : Bytes} {gone : Nat}
    (waits : Allowed max body → (framed body).drop gone ≠ []) :
    outOf max body gone ≠ framed body := by
  rw [outOf]
  split
  next allowed =>
    intro whole
    have split := List.take_append_drop gone (framed body)
    rw [whole] at split
    exact waits allowed (List.append_right_eq_self.mp split)
  · exact (framed_ne_nil body).symm

namespace Entrance

/-- Where a handshake stands, by what the client has given and by what the gatekeeper has written,
asked and heard. -/
inductive Stands (max : Nat) (phrase : String) (channel : Channel) (given : Bytes) :
    GateStage → Bytes → Nat → Bytes → Bytes → List Command → List Reply → Prop
  | introduction {seen left : Bytes} {gone : Nat} (begun : Begun max seen)
      (held : given = seen ++ left) :
      Stands max phrase channel given .introduction seen gone left [] [] []
  | refusal {id : String} {seen left written : Bytes} {gone : Nat}
      (out : written = outOf max refusalBody gone) (came : Misnames max given id) :
      Stands max phrase channel given (.refusal id) seen gone left written [] []
  | challenge {id : String} {seen left frame written : Bytes} {gone : Nat}
      (came : Introduces max id frame) (held : given = framed frame ++ left)
      (out : written = outOf max (challengeBody phrase) gone) :
      Stands max phrase channel given (.challenge id) seen gone left written [] []
  | answer {id : String} {seen left frame : Bytes} {gone : Nat} (came : Introduces max id frame)
      (begun : Begun max seen) (held : given = framed frame ++ (seen ++ left)) :
      Stands max phrase channel given (.answer id) seen gone left
        (framed (challengeBody phrase)) [] []
  | rejection {id : String} {seen left written : Bytes} {gone : Nat}
      (out : written = framed (challengeBody phrase) ++ outOf max (verdictBody false) gone)
      (came : Misanswers max phrase given) :
      Stands max phrase channel given (.rejection id) seen gone left written [] []
  | admission {id : String} {seen left : Bytes} {gone : Nat}
      (knows : Identifies max phrase given id) :
      Stands max phrase channel given (.admission id) seen gone left
        (framed (challengeBody phrase)) [] []
  | verdict {id : String} {seen left written : Bytes} {gone : Nat} {admitted : Bool}
      {ticket : Ticket} (knows : Identifies max phrase given id)
      (out : written = framed (challengeBody phrase) ++ outOf max (verdictBody admitted) gone) :
      Stands max phrase channel given (.verdict id admitted) seen gone left written
        [.connect id channel ticket] [.admitted admitted]
  | withdrawal {id : String} {cause : HandshakeError} {seen left out : Bytes} {gone : Nat}
      {ticket : Ticket} (knows : Identifies max phrase given id)
      (part : out <+: framed (verdictBody true)) (short : out ≠ framed (verdictBody true)) :
      Stands max phrase channel given (.withdrawal id cause) seen gone left
        (framed (challengeBody phrase) ++ out) [.connect id channel ticket] [.admitted true]
  | accepted {id : String} {seen left : Bytes} {gone : Nat} {ticket : Ticket}
      (knows : Identifies max phrase given id) :
      Stands max phrase channel given (.ended (.ok id)) seen gone left
        (framed (challengeBody phrase) ++ framed (verdictBody true))
        [.connect id channel ticket] [.admitted true]
  | refused {cause : HandshakeError} {seen left written : Bytes} {gone : Nat}
      (part : written <+: framed refusalBody ∨
        written <+: framed (challengeBody phrase) ++ framed (verdictBody false)) :
      Stands max phrase channel given (.ended (.error cause)) seen gone left written [] []
  | denied {cause : HandshakeError} {id : String} {seen left out : Bytes} {gone : Nat}
      {ticket : Ticket} {r : Reply} (knows : Identifies max phrase given id)
      (no : r ≠ .admitted true) (part : out <+: framed (verdictBody false)) :
      Stands max phrase channel given (.ended (.error cause)) seen gone left
        (framed (challengeBody phrase) ++ out) [.connect id channel ticket] [r]
  | withdrawn {cause : HandshakeError} {id : String} {seen left out : Bytes} {gone : Nat}
      {ticket : Ticket} (knows : Identifies max phrase given id)
      (part : out <+: framed (verdictBody true)) (short : out ≠ framed (verdictBody true)) :
      Stands max phrase channel given (.ended (.error cause)) seen gone left
        (framed (challengeBody phrase) ++ out) [.connect id channel ticket, .disconnect id]
        [.admitted true]

variable {max : Nat} {phrase : String} {channel : Channel} {given written more : Bytes}
  {asked : List Command} {heard : List Reply} {stage : GateStage} {seen left : Bytes} {gone : Nat}

theorem Stands.give (h : Stands max phrase channel given stage seen gone left written asked heard)
    (more : Bytes) :
    Stands max phrase channel (given ++ more) stage seen gone (left ++ more) written asked
      heard := by
  cases h with
  | introduction begun held => exact .introduction begun (by rw [held, List.append_assoc])
  | refusal out came => exact .refusal out (came.append more)
  | challenge came held out => exact .challenge came (by rw [held, List.append_assoc]) out
  | answer came begun held => exact .answer came begun (by simp only [held, List.append_assoc])
  | rejection out came => exact .rejection out (came.append more)
  | admission knows => exact .admission (knows.append more)
  | verdict knows out => exact .verdict (knows.append more) out
  | withdrawal knows part short => exact .withdrawal (knows.append more) part short
  | accepted knows => exact .accepted (knows.append more)
  | refused part => exact .refused part
  | denied knows no part => exact .denied (knows.append more) no part
  | withdrawn knows part short => exact .withdrawn (knows.append more) part short

theorem Stands.reads (h : Stands max phrase channel given stage seen gone left written asked heard)
    (reads : stage.reads) {piece rest : Bytes} (incomplete : next max seen = .incomplete)
    (few : piece.length ≤ lacking seen) (split : left = piece ++ rest) :
    Stands max phrase channel given stage (seen ++ piece) gone rest written asked heard := by
  have begun := (begun_append incomplete).2 piece few
  -- `few` keeps the gatekeeper from reading into the next frame.
  cases h with
  | introduction _ held => exact .introduction begun (by rw [held, split, List.append_assoc])
  | answer came _ held => exact .answer came begun (by rw [held, split, List.append_assoc])
  | _ => cases reads

variable {k : Gatekeeper} {body rest : Bytes}

theorem eq_framed_of_begun (begun : Begun max seen) (whole : next max seen = .frame body rest) :
    Allowed max body ∧ seen = framed body := by
  obtain ⟨allowed, split⟩ := next_eq_frame.mp whole
  rw [begun.rest_eq_nil whole, List.append_nil] at split
  exact ⟨allowed, split⟩

theorem Stands.receives
    (h : Stands max phrase channel given k.stage seen gone left written asked heard)
    (reads : k.stage.reads) (secret : k.phrase = phrase)
    (whole : next max seen = .frame body rest) :
    Stands max phrase channel given (k.receive body).stage [] 0 left written asked heard := by
  have nothing (body : Bytes) : framed (challengeBody phrase) =
      framed (challengeBody phrase) ++ outOf max body 0 := by
    rw [outOf_zero, List.append_nil]
  rw [Gatekeeper.receive, secret]
  generalize k.stage = stage at h reads
  cases h with
  | introduction begun held =>
    obtain ⟨allowed, rfl⟩ := eq_framed_of_begun begun whole
    dsimp only
    cases typed : (Wire.decode? body : Option Introduction) with
    | none => exact .refused (.inl List.nil_prefix)
    | some i =>
      dsimp only
      split
      next isId => exact .challenge ⟨allowed, typed, isId⟩ held (outOf_zero _ _).symm
      next noId =>
        exact .refusal (outOf_zero _ _).symm ⟨body, left, held, allowed, typed, noId⟩
  | @answer _ _ _ frame _ came begun held =>
    obtain ⟨allowed, rfl⟩ := eq_framed_of_begun begun whole
    dsimp only
    cases typed : (Wire.decode? body : Option Answer) with
    | none => exact .refused (.inr (List.prefix_append _ _))
    | some a =>
      dsimp only
      split
      next right =>
        obtain ⟨answer⟩ := a
        cases right
        exact .admission ⟨_, body, left, held, came, allowed, typed⟩
      next wrong =>
        exact .rejection (nothing _)
          ⟨frame, body, left, a.answer, held, came.allowed, allowed, typed, wrong⟩
  | _ => cases reads

theorem Stands.puts
    (h : Stands max phrase channel given k.stage seen gone left written asked heard)
    (secret : k.phrase = phrase) (tells : k.tells? = some body) (allowed : Allowed max body)
    (n : Nat) :
    Stands max phrase channel given k.stage seen (gone + n) left
      (written ++ ((framed body).drop gone).take n) asked heard := by
  rw [Gatekeeper.tells?, secret] at tells
  have further (front : Bytes) : front ++ outOf max body gone ++ ((framed body).drop gone).take n =
      front ++ outOf max body (gone + n) := by
    rw [List.append_assoc, outOf_add allowed]
  generalize k.stage = stage at h tells
  cases h with
  | refusal out came =>
    cases tells
    exact .refusal (by rw [out]; exact further []) came
  | challenge came held out =>
    cases tells
    exact .challenge came held (by rw [out]; exact further [])
  | rejection out came =>
    cases tells
    exact .rejection (by rw [out]; exact further _) came
  | verdict knows out =>
    cases tells
    exact .verdict knows (by rw [out]; exact further _)
  | _ => cases tells

theorem Stands.wrote
    (h : Stands max phrase channel given k.stage seen gone left written asked heard)
    (secret : k.phrase = phrase) (tells : k.tells? = some body) (allowed : Allowed max body)
    (whole : (framed body).drop gone = []) :
    Stands max phrase channel given k.wrote.stage [] 0 left written asked heard := by
  have fresh : Begun max [] := .inl (Nat.zero_le _)
  have all := outOf_eq allowed whole
  rw [Gatekeeper.tells?, secret] at tells
  rw [Gatekeeper.wrote]
  generalize k.stage = stage at h tells
  cases h with
  | refusal out =>
    cases tells
    exact .refused (.inl (by rw [out]; exact outOf_isPrefix _ _ _))
  | challenge came held out =>
    cases tells
    rw [out, challengeBody, all]
    exact .answer came fresh held
  | rejection out =>
    cases tells
    have told : written = framed (challengeBody phrase) ++ framed (verdictBody false) := by
      rw [out, verdictBody, all]
    exact .refused (.inr (told ▸ List.prefix_rfl))
  | @verdict id _ _ _ _ admitted _ knows out =>
    cases tells
    rw [out, verdictBody, all]
    cases admitted with
    | true => exact .accepted knows
    | false => exact .denied knows (by simp) List.prefix_rfl
  | _ => cases tells

theorem Stands.breaksOff
    (h : Stands max phrase channel given k.stage seen gone left written asked heard)
    (secret : k.phrase = phrase) (busy : k.stage.reads ∨ ∃ body, k.tells? = some body)
    (waits : ∀ body, k.tells? = some body → Allowed max body → (framed body).drop gone ≠ [])
    (cause : HandshakeError) :
    Stands max phrase channel given (k.breakOff cause).stage [] 0 left written asked heard := by
  rw [Gatekeeper.tells?, secret] at busy waits
  rw [Gatekeeper.breakOff]
  generalize k.stage = stage at h busy waits
  cases h with
  | introduction => exact .refused (.inl List.nil_prefix)
  | refusal out => exact .refused (.inl (by rw [out]; exact outOf_isPrefix _ _ _))
  | challenge came held out =>
    refine .refused (.inr ?_)
    rw [out]
    exact (outOf_isPrefix _ _ _).trans (List.prefix_append _ _)
  | answer => exact .refused (.inr (List.prefix_append _ _))
  | rejection out =>
    refine .refused (.inr ?_)
    rw [out]
    exact (List.prefix_append_right_inj _).mpr (outOf_isPrefix _ _ _)
  | @verdict id _ _ _ _ admitted _ knows out =>
    rw [out]
    cases admitted with
    | true => exact .withdrawal knows (outOf_isPrefix _ _ _) (outOf_ne (waits _ rfl))
    | false => exact .denied knows (by simp) (outOf_isPrefix _ _ _)
  | _ =>
    rcases busy with reads | ⟨body, tells⟩
    · cases reads
    · cases tells

theorem Stands.asks
    (h : Stands max phrase channel given k.stage seen gone left written asked heard) {id : String}
    (stage : k.stage = .admission id) (ticket : Ticket) (r : Reply) (now : Nanos) :
    Stands max phrase channel given (k.decide now r.admitted?).stage [] 0 left written
      (asked ++ [.connect id channel ticket]) (heard ++ [r]) := by
  rw [stage] at h
  cases h with
  | admission knows =>
    have untold : framed (challengeBody phrase) = framed (challengeBody phrase) ++ [] :=
      (List.append_nil _).symm
    cases verdict : r.admitted? with
    | some ok =>
      cases Reply.eq_admitted verdict
      have next : (k.decide now (some ok)).stage = .verdict id ok := by
        simp only [Gatekeeper.decide, stage]
      rw [next]
      exact .verdict knows (by rw [outOf_zero]; exact untold)
    | none =>
      have next : (k.decide now none).stage = .ended (.error .stopped) := by
        simp only [Gatekeeper.decide, stage]
        rfl
      have no : r ≠ .admitted true := fun yes => by rw [yes] at verdict; cases verdict
      rw [next, untold]
      exact .denied knows no List.nil_prefix

theorem Stands.withdraws
    (h : Stands max phrase channel given k.stage seen gone left written asked heard) {id : String}
    {cause : HandshakeError} (stage : k.stage = .withdrawal id cause) (taken : Bool) :
    Stands max phrase channel given (k.withdraw taken).stage [] 0 left written
      (asked ++ [.disconnect id]) heard := by
  rw [Gatekeeper.withdraw]
  rw [stage] at h ⊢
  cases h with
  | withdrawal knows part short => exact .withdrawn knows part short

theorem Stands.turn {v v' : View} {out : Bytes} {asks : List Command} {hears : List Reply}
    (h : Stands v.keeper.maxFrame v.keeper.phrase channel given v.keeper.stage v.seen v.gone v.left
      written asked heard)
    (turn : Turn channel v out asks hears v') :
    v.keeper.SameSettings v'.keeper ∧
    Stands v.keeper.maxFrame v.keeper.phrase channel given v'.keeper.stage v'.seen v'.gone v'.left
      (written ++ out) (asked ++ asks) (heard ++ hears) := by
  cases turn with
  | rests =>
    simp only [List.append_nil]
    exact ⟨.refl _, h⟩
  | reads reads incomplete few split =>
    simp only [List.append_nil]
    exact ⟨.refl _, h.reads reads incomplete few split⟩
  | receives reads whole =>
    simp only [List.append_nil]
    exact ⟨.receive _ _, h.receives reads rfl whole⟩
  | puts tells allowed n =>
    simp only [List.append_nil]
    exact ⟨.refl _, h.puts rfl tells allowed n⟩
  | wrote tells allowed whole =>
    simp only [List.append_nil]
    exact ⟨.wrote _, h.wrote rfl tells allowed whole⟩
  | breaksOff busy waits =>
    simp only [List.append_nil]
    exact ⟨.breakOff _ _, h.breaksOff rfl busy waits _⟩
  | asks stage ticket r now =>
    rw [List.append_nil]
    exact ⟨.decide _ _ _, h.asks stage ticket r now⟩
  | withdraws stage taken =>
    simp only [List.append_nil]
    exact ⟨.withdraw _ _, h.withdraws stage taken⟩

/-- A handshake between a client and a gatekeeper with these settings. -/
structure Follows (max : Nat) (phrase : String) (channel : Channel) (given written : Bytes)
    (asked : List Command) (heard : List Reply) (e : Entrance) : Prop where
  max_eq : e.keeper.maxFrame = max
  phrase_eq : e.keeper.phrase = phrase
  channel_eq : e.seat.state.channel = channel
  stands : Stands max phrase channel given e.keeper.stage e.seat.seen e.seat.gone e.source.bytes
    written asked heard

theorem Follows.go {e : Entrance} {given written : Bytes} {asked : List Command}
    {heard : List Reply} (h : Follows max phrase channel given written asked heard e) :
    Follows max phrase channel given (written ++ e.writes .go) (asked ++ e.asks .go)
      (heard ++ e.hears .go) e.go := by
  obtain ⟨rfl, rfl, rfl, stands⟩ := h
  obtain ⟨turn, leads⟩ := e.turn_go
  obtain ⟨same, next⟩ := Stands.turn (v := e.view) stands turn
  exact ⟨same.maxFrame, same.phrase, leads.channel, next⟩

theorem Follows.act {e : Entrance} {given written : Bytes} {asked : List Command}
    {heard : List Reply} (h : Follows max phrase channel given written asked heard e) (m : Move) :
    Follows max phrase channel (given ++ e.gives m) (written ++ e.writes m) (asked ++ e.asks m)
      (heard ++ e.hears m) (e.act m) := by
  cases m with
  | go =>
    have none : e.gives .go = [] := rfl
    rw [none, List.append_nil]
    exact h.go
  | send piece =>
    simp only [writes, asks, hears, gives, List.append_nil]
    rw [Entrance.act]
    split
    · exact ⟨h.max_eq, h.phrase_eq, h.channel_eq, h.stands.give _⟩
    · rwa [List.append_nil]
  | _ =>
    simp only [writes, asks, hears, gives, List.append_nil]
    exact ⟨h.max_eq, h.phrase_eq, h.channel_eq, h.stands⟩

theorem follows_start (maxFrame : Nat) (patience : Nanos) (phrase : String) (channel : Channel)
    (timeline : Timeline) (room room' : Nat) :
    Follows maxFrame phrase channel [] [] [] []
      (start maxFrame patience phrase channel timeline room room') :=
  ⟨rfl, rfl, rfl, .introduction (.inl (Nat.zero_le _)) rfl⟩

theorem Follows.run {e : Entrance} (h : Follows max phrase channel [] [] [] [] e)
    (moves : List Move) :
    Follows max phrase channel (e.given moves) (e.written moves) (e.asked moves) (e.heard moves)
      (e.after moves) := by
  -- The logs grow at their end, so the run is taken apart from its end.
  induction moves using List.reverseRecOn with
  | nil => exact h
  | append_singleton moves m ih =>
    rw [given, written, asked, heard, after, Run.log_concat, Run.log_concat, Run.log_concat,
      Run.log_concat, Run.last_concat]
    exact ih.act m

end Entrance

end AgentBroker
