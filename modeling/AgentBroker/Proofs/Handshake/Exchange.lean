import AgentBroker.Proofs.Handshake.Gatekeeping
import AgentBroker.Proofs.Wire.RoundTrip
import AgentBroker.Proofs.Wire.Size

/-!
# What goes between an applicant and a gatekeeper

An applicant that keeps to the exchange gives its introduction and then its answer; a gatekeeper
says its challenge and then its verdict, or nothing but a refusal. So each side reads what the other
one has written, and nothing else.
-/

namespace AgentBroker

open AgentBroker.Frame AgentBroker.Reading

def introductionBody (key : String) : Bytes := Wire.encode (Introduction.mk key)

def answerBody (phrase : String) : Bytes := Wire.encode (Answer.mk (answerTo phrase))

theorem decode?_introductionBody (key : String) :
    Wire.decode? (introductionBody key) = some (Introduction.mk key) :=
  LawfulWire.keepsValues.decode?_encode _ (List.forall_mem_nil _) (List.forall_mem_nil _)

theorem decode?_challengeBody (phrase : String) :
    Wire.decode? (challengeBody phrase) = some (Challenge.phrase phrase) :=
  LawfulWire.keepsValues.decode?_encode _ (List.forall_mem_nil _) (List.forall_mem_nil _)

theorem decode?_refusalBody : Wire.decode? refusalBody = some Challenge.failure :=
  LawfulWire.keepsValues.decode?_encode _ (List.forall_mem_nil _) (List.forall_mem_nil _)

theorem decode?_answerBody (phrase : String) :
    Wire.decode? (answerBody phrase) = some (Answer.mk (answerTo phrase)) :=
  LawfulWire.keepsValues.decode?_encode _ (List.forall_mem_nil _) (List.forall_mem_nil _)

theorem decode?_verdictBody (admitted : Bool) :
    Wire.decode? (verdictBody admitted) = some (Verdict.mk admitted) :=
  LawfulWire.keepsValues.decode?_encode _ (List.forall_mem_nil _) (List.forall_mem_nil _)

theorem refusal_ne_challenge (phrase : String) : refusalBody ≠ challengeBody phrase := by
  intro same
  have decoded := decode?_challengeBody phrase
  rw [← same, decode?_refusalBody] at decoded
  cases decoded

theorem verdict_fits : (verdictBody true).length < UInt32.size := by decide +kernel

/-- Every message of an exchange that succeeds is small enough. -/
structure Fits (max : Nat) (key phrase : String) : Prop where
  introduction : Allowed max (introductionBody key)
  challenge : Allowed max (challengeBody phrase)
  answer : Allowed max (answerBody phrase)
  verdict : Allowed max (verdictBody true)

open Json Wire in
theorem length_introductionBody {key : String} (isId : isAgentId key) :
    (introductionBody key).length = key.length + 17 := by
  have name : (ofString "public_key").size = 12 := by decide
  change (record [("public_key", toJson key)]).size = _
  rw [size_record, List.map_singleton, List.sum_singleton, memberSize, name,
    show (toJson key).size = _ from size_agentId isId]
  omega

open Json Wire in
theorem length_challengeBody {phrase : String} (plain : isAgentId phrase) :
    (challengeBody phrase).length = phrase.length + 13 := by
  have name : (ofString "phrase").size = 8 := by decide
  change (variant "phrase" (toJson phrase)).size = _
  rw [size_variant, memberSize, name, show (toJson phrase).size = _ from size_agentId plain]
  omega

theorem isAgentId_answerTo {phrase : String} (plain : isAgentId phrase) :
    isAgentId (answerTo phrase) := by
  rw [isAgentId, decide_eq_true_iff] at plain ⊢
  rw [answerTo, String.toList_ofList, List.length_reverse, List.all_reverse]
  exact plain

open Json Wire in
theorem length_answerBody {phrase : String} (plain : isAgentId phrase) :
    (answerBody phrase).length = phrase.length + 13 := by
  have name : (ofString "answer").size = 8 := by decide
  have turned : (answerTo phrase).length = phrase.length := by
    rw [answerTo, String.length_ofList, List.length_reverse, String.length_toList]
  change (record [("answer", toJson (answerTo phrase))]).size = _
  rw [size_record, List.map_singleton, List.sum_singleton, memberSize, name,
    show (toJson (answerTo phrase)).size = _ from size_agentId (isAgentId_answerTo plain), turned]
  omega

def exchange (key phrase : String) : List Bytes :=
  [introductionBody key, challengeBody phrase, answerBody phrase, verdictBody true]

/-- A fresh challenge is made of hexadecimal digits. -/
structure IsFresh (phrase : String) : Prop where
  length : phrase.length = 32
  digits : ∀ c ∈ phrase.toList, c.isDigit ∨ c ∈ ['a', 'b', 'c', 'd', 'e', 'f']

theorem IsFresh.plain {phrase : String} (fresh : IsFresh phrase) : isAgentId phrase := by
  rw [isAgentId, decide_eq_true_iff, String.length_toList, fresh.length]
  refine ⟨by decide, by decide, List.all_eq_true.mpr fun c mem => ?_⟩
  rw [isAgentIdChar, Char.isAlphanum]
  rcases fresh.digits c mem with digit | letter
  · rw [digit, Bool.or_true, Bool.true_or]
  · simp only [List.mem_cons, List.not_mem_nil, or_false] at letter
    rcases letter with rfl | rfl | rfl | rfl | rfl | rfl
    all_goals decide

theorem length_le_of_isAgentId {id : String} (isId : isAgentId id) : id.length ≤ 256 := by
  rw [isAgentId, decide_eq_true_iff, String.length_toList] at isId
  exact isId.2.1

theorem fits_iff {max : Nat} {key phrase : String} (isId : isAgentId key) (fresh : IsFresh phrase) :
    Fits max key phrase ↔ ∀ body ∈ exchange key phrase, body.length ≤ max := by
  have short := length_le_of_isAgentId isId
  have introduction := length_introductionBody isId
  have challenge := length_challengeBody fresh.plain
  have answer := length_answerBody fresh.plain
  rw [fresh.length] at challenge answer
  have size : UInt32.size = 4294967296 := rfl
  rw [exchange, List.forall_mem_cons, List.forall_mem_cons, List.forall_mem_cons,
    List.forall_mem_singleton]
  constructor
  · intro fits
    exact ⟨fits.introduction.le_max, fits.challenge.le_max, fits.answer.le_max,
      fits.verdict.le_max⟩
  · rintro ⟨first, second, third, last⟩
    exact ⟨⟨first, by omega⟩, ⟨second, by omega⟩, ⟨third, by omega⟩, ⟨last, verdict_fits⟩⟩

namespace Frame

variable {max n : Nat} {a b x y seen left : Bytes}

theorem framed_append_inj (fits : Allowed max a) (fits' : Allowed max b)
    (h : framed a ++ x = framed b ++ y) : a = b ∧ x = y := by
  have announces := announces_framed fits.fits x
  rw [h] at announces
  obtain ⟨length, bodies⟩ := announces.unique (announces_framed fits'.fits y)
  exact List.append_inj bodies length

theorem outOf_split (allowed : Allowed max b) (h : outOf max a n = framed b ++ y) :
    Allowed max a ∧ b = a ∧ y = [] := by
  have fits : Allowed max a := by
    by_contra large
    rw [outOf, if_neg large] at h
    exact framed_ne_nil b (List.append_eq_nil_iff.mp h.symm).1
  obtain ⟨cut, whole⟩ := outOf_isPrefix max a n
  rw [h, List.append_assoc] at whole
  have same : framed b ++ (y ++ cut) = framed a ++ [] := by rw [whole, List.append_nil]
  obtain ⟨rfl, rest⟩ := framed_append_inj allowed fits same
  exact ⟨fits, rfl, (List.append_eq_nil_iff.mp rest).1⟩

theorem next_ne_tooLarge (allowed : Allowed max a) (h : seen ++ left = framed a ++ x)
    (size : Nat) : next max seen ≠ .tooLarge size := by
  intro above
  obtain ⟨lt, tail, announces⟩ := next_eq_tooLarge above
  have longer := announces.append left
  rw [h] at longer
  have same := (longer.unique (announces_framed allowed.fits x)).1
  exact absurd lt (Nat.not_lt.mpr (same ▸ allowed.le_max))

theorem next_ne_tooLarge_outOf (h : seen ++ left = outOf max a n) (size : Nat) :
    next max seen ≠ .tooLarge size := by
  by_cases allowed : Allowed max a
  · obtain ⟨cut, whole⟩ := outOf_isPrefix max a n
    have longer : seen ++ (left ++ cut) = framed a ++ [] := by
      rw [← List.append_assoc, h, whole, List.append_nil]
    exact next_ne_tooLarge allowed longer size
  · rw [outOf, if_neg allowed] at h
    rw [(List.append_eq_nil_iff.mp h).1]
    simp [next]

theorem next_framed_ne (fits : a.length < UInt32.size) (incomplete : next max seen = .incomplete) :
    seen ≠ framed a := by
  rintro rfl
  have announces := announces_framed fits []
  rw [List.append_nil, List.append_nil] at announces
  rw [announces.next_eq, if_neg (Nat.lt_irrefl a.length)] at incomplete
  split at incomplete
  · cases incomplete
  · cases incomplete

end Frame

variable {max n : Nat} {key phrase id : String} {given written frame frame' rest : Bytes}

inductive Gives (max : Nat) (key phrase : String) : Bytes → Prop
  | introduction (n : Nat) : Gives max key phrase (outOf max (introductionBody key) n)
  | answer (fits : Allowed max (introductionBody key)) (n : Nat) :
    Gives max key phrase (framed (introductionBody key) ++ outOf max (answerBody phrase) n)

theorem Gives.first (h : Gives max key phrase given) (allowed : Allowed max frame)
    (split : given = framed frame ++ rest) :
    Allowed max (introductionBody key) ∧ frame = introductionBody key ∧
      ∃ n, rest = outOf max (answerBody phrase) n := by
  cases h with
  | introduction n =>
    obtain ⟨fits, same, none⟩ := outOf_split allowed split
    exact ⟨fits, same, 0, none.trans (outOf_zero _ _).symm⟩
  | answer fits n =>
    obtain ⟨same, behind⟩ := framed_append_inj fits allowed split
    exact ⟨fits, same.symm, n, behind.symm⟩

theorem Gives.names (h : Gives max key phrase given) (allowed : Allowed max frame)
    (split : given = framed frame ++ rest)
    (typed : Wire.decode? frame = some (Introduction.mk id)) : id = key := by
  rw [(h.first allowed split).2.1, decode?_introductionBody] at typed
  cases typed
  rfl

theorem Gives.second (h : Gives max key phrase given) (allowed : Allowed max frame)
    (allowed' : Allowed max frame') (split : given = framed frame ++ (framed frame' ++ rest)) :
    Allowed max (answerBody phrase) ∧ frame' = answerBody phrase ∧
      given = framed (introductionBody key) ++ framed (answerBody phrase) := by
  obtain ⟨-, same, n, behind⟩ := h.first allowed split
  obtain ⟨fits, rfl, rfl⟩ := outOf_split allowed' behind.symm
  rw [List.append_nil] at split
  exact ⟨fits, rfl, same ▸ split⟩

theorem Gives.length_le (h : Gives max key phrase given) : given.length ≤
    (framed (introductionBody key)).length + (framed (answerBody phrase)).length := by
  cases h with
  | introduction n => exact (outOf_isPrefix _ _ _).length_le.trans (Nat.le_add_right _ _)
  | answer fits n =>
    rw [List.length_append]
    exact Nat.add_le_add_left (outOf_isPrefix _ _ _).length_le _

inductive Speaks (max : Nat) (phrase : String) : Bytes → Prop
  | refusal (n : Nat) : Speaks max phrase (outOf max refusalBody n)
  | challenge (n : Nat) : Speaks max phrase (outOf max (challengeBody phrase) n)
  | verdict (fits : Allowed max (challengeBody phrase)) (admitted : Bool) (n : Nat) :
    Speaks max phrase (framed (challengeBody phrase) ++ outOf max (verdictBody admitted) n)

theorem Speaks.first (h : Speaks max phrase written) (allowed : Allowed max frame)
    (split : written = framed frame ++ rest) :
    frame = refusalBody ∧ rest = [] ∨ frame = challengeBody phrase := by
  cases h with
  | refusal n =>
    obtain ⟨-, same, none⟩ := outOf_split allowed split
    exact .inl ⟨same, none⟩
  | challenge n => exact .inr (outOf_split allowed split).2.1
  | verdict fits admitted n => exact .inr (framed_append_inj fits allowed split).1.symm

theorem Speaks.second (h : Speaks max phrase written) (fits : Allowed max (challengeBody phrase))
    (split : written = framed (challengeBody phrase) ++ rest) :
    ∃ admitted n, rest = outOf max (verdictBody admitted) n := by
  cases h with
  | refusal n =>
    obtain ⟨-, same, -⟩ := outOf_split fits split
    exact absurd same.symm (refusal_ne_challenge phrase)
  | challenge n =>
    obtain ⟨-, -, none⟩ := outOf_split fits split
    exact ⟨true, 0, none.trans (outOf_zero _ _).symm⟩
  | verdict _ admitted n => exact ⟨admitted, n, (List.append_cancel_left split).symm⟩

theorem Speaks.next_ne_tooLarge {seen left : Bytes} (h : Speaks max phrase written)
    (split : written = seen ++ left) (size : Nat) : next max seen ≠ .tooLarge size := by
  cases h with
  | refusal n => exact next_ne_tooLarge_outOf split.symm size
  | challenge n => exact next_ne_tooLarge_outOf split.symm size
  | verdict fits admitted n => exact Frame.next_ne_tooLarge fits split.symm size

theorem Speaks.length_le (h : Speaks max phrase written) : written.length ≤
    (framed refusalBody).length + (framed (challengeBody phrase)).length +
      ((framed (verdictBody false)).length + (framed (verdictBody true)).length) := by
  cases h with
  | refusal n =>
    have := (outOf_isPrefix max refusalBody n).length_le
    omega
  | challenge n =>
    have := (outOf_isPrefix max (challengeBody phrase) n).length_le
    omega
  | verdict fits admitted n =>
    have := (outOf_isPrefix max (verdictBody admitted) n).length_le
    rw [List.length_append]
    cases admitted with
    | true => omega
    | false => omega

namespace Entrance

variable {k : Gatekeeper} {channel : Channel} {asked : List Command} {heard : List Reply}
  {seen left body : Bytes} {gone : Nat}

theorem Stands.speaks
    (h : Stands max phrase channel given k.stage seen gone left written asked heard)
    (frame_eq : k.maxFrame = max) (secret : k.phrase = phrase) (out : k.OutAllowed)
    (tells : k.tells? = some body) : Speaks max phrase written := by
  rw [Gatekeeper.OutAllowed, secret, frame_eq] at out
  rw [Gatekeeper.tells?] at tells
  generalize k.stage = stage at h out tells
  cases h with
  | refusal written_eq => exact written_eq ▸ .refusal _
  | challenge _ _ written_eq => exact written_eq ▸ .challenge _
  | rejection written_eq => exact written_eq ▸ .verdict (out _ List.mem_cons_self) _ _
  | verdict _ written_eq => exact written_eq ▸ .verdict (out _ List.mem_cons_self) _ _
  | _ => cases tells

theorem Turn.speaks {v v' : View} {out : Bytes} {asks : List Command} {hears : List Reply}
    (turn : Turn channel v out asks hears v') (limit : v.keeper.maxFrame = max)
    (secret : v.keeper.phrase = phrase)
    (h : Stands max phrase channel given v.keeper.stage v.seen v.gone v.left written asked heard)
    (allowed : v.keeper.OutAllowed) (speaks : Speaks max phrase written) :
    Speaks max phrase (written ++ out) := by
  cases turn with
  | puts tells fits n =>
    exact (h.puts secret tells (limit ▸ fits) n).speaks limit secret allowed tells
  | _ => rwa [List.append_nil]

end Entrance

end AgentBroker
