import AgentBroker.Frame
import Mathlib.Algebra.Group.Nat.Defs

/-!
# Frames of a byte stream

A stream splits in one way only into frames that the reader allows and a rest that begins with none.
Reading all frames finds this decomposition, and the rest decides the error that ends the reading.
-/

namespace AgentBroker.Frame

theorem byteAt_toNat (n k : Nat) : (byteAt n k).toNat = n / 256 ^ k % 256 := by
  have small : n / 256 ^ k % 256 < UInt8.size := Nat.mod_lt _ (by decide)
  rw [byteAt, Nat.pow_eq, UInt8.toNat_ofNat_of_lt' small]

theorem lengthValue_lt (a b c d : UInt8) : lengthValue a b c d < UInt32.size := by
  have := a.toNat_lt
  have := b.toNat_lt
  have := c.toNat_lt
  have := d.toNat_lt
  rw [lengthValue, UInt32.size]
  omega

theorem lengthValue_byteAt {n : Nat} (h : n < UInt32.size) :
    lengthValue (byteAt n 3) (byteAt n 2) (byteAt n 1) (byteAt n 0) = n := by
  rw [UInt32.size] at h
  simp only [lengthValue, byteAt_toNat]
  omega

theorem lengthBytes_lengthValue (a b c d : UInt8) :
    lengthBytes (lengthValue a b c d) = [a, b, c, d] := by
  have ha := a.toNat_lt
  have hb := b.toNat_lt
  have hc := c.toNat_lt
  have hd := d.toNat_lt
  have byte (k : Nat) (x : UInt8) (h : lengthValue a b c d / 256 ^ k % 256 = x.toNat) :
      byteAt (lengthValue a b c d) k = x :=
    UInt8.toNat_inj.mp ((byteAt_toNat _ k).trans h)
  rw [lengthBytes, byte 3 a, byte 2 b, byte 1 c, byte 0 d]
  all_goals rw [lengthValue]; omega

@[simp] theorem length_lengthBytes (n : Nat) : (lengthBytes n).length = 4 := rfl

/-- The stream begins with a length, and `tail` stands behind it. -/
structure Announces (size : Nat) (stream tail : Bytes) : Prop where
  fits : size < UInt32.size
  split : stream = lengthBytes size ++ tail

theorem announces_cons (a b c d : UInt8) (tail : Bytes) :
    Announces (lengthValue a b c d) (a :: b :: c :: d :: tail) tail where
  fits := lengthValue_lt a b c d
  split := by rw [lengthBytes_lengthValue]; rfl

theorem Announces.next_eq {size : Nat} {stream tail : Bytes} (h : Announces size stream tail)
    (max : Nat) : next max stream = if max < size then .tooLarge size
      else if tail.length < size then .incomplete
      else .frame (tail.take size) (tail.drop size) := by
  obtain ⟨fits, rfl⟩ := h
  change next max (byteAt size 3 :: byteAt size 2 :: byteAt size 1 :: byteAt size 0 :: tail) = _
  rw [next, lengthValue_byteAt fits]

theorem next_short {max : Nat} {stream : Bytes} (h : stream.length < 4) :
    next max stream = .incomplete := by
  match stream with
  | [] | [_] | [_, _] | [_, _, _] => rfl

theorem short_or_announces (stream : Bytes) :
    stream.length < 4 ∨ ∃ size tail, Announces size stream tail := by
  match stream with
  | [] | [_] | [_, _] | [_, _, _] => exact .inl (by simp)
  | a :: b :: c :: d :: tail => exact .inr ⟨_, tail, announces_cons a b c d tail⟩

theorem Announces.length_eq {size : Nat} {stream tail : Bytes} (h : Announces size stream tail) :
    stream.length = 4 + tail.length := by
  rw [h.split, List.length_append, length_lengthBytes]

theorem Announces.append {size : Nat} {stream tail : Bytes} (h : Announces size stream tail)
    (more : Bytes) : Announces size (stream ++ more) (tail ++ more) where
  fits := h.fits
  split := by rw [h.split, List.append_assoc]

theorem next_eq_tooLarge {max size : Nat} {stream : Bytes} (h : next max stream = .tooLarge size) :
    max < size ∧ ∃ tail, Announces size stream tail := by
  rcases short_or_announces stream with short | ⟨size', tail, announces⟩
  · rw [next_short short] at h
    cases h
  · rw [announces.next_eq] at h
    split at h
    next above =>
      cases h
      exact ⟨above, tail, announces⟩
    · split at h <;> cases h

theorem Announces.unique {size size' : Nat} {stream tail tail' : Bytes}
    (h : Announces size stream tail) (h' : Announces size' stream tail') :
    size = size' ∧ tail = tail' := by
  obtain ⟨lengths, tails⟩ := List.append_inj (h.split.symm.trans h'.split) rfl
  simp only [lengthBytes, List.cons.injEq, and_true] at lengths
  obtain ⟨a, b, c, d⟩ := lengths
  refine ⟨?_, tails⟩
  rw [← lengthValue_byteAt h.fits, a, b, c, d, lengthValue_byteAt h'.fits]

def framed (body : Bytes) : Bytes := lengthBytes body.length ++ body

/-- A reader with this limit takes the body. -/
structure Allowed (max : Nat) (body : Bytes) : Prop where
  le_max : body.length ≤ max
  fits : body.length < UInt32.size

instance (max : Nat) (body : Bytes) : Decidable (Allowed max body) :=
  decidable_of_iff (body.length ≤ max ∧ body.length < UInt32.size)
    ⟨fun h => ⟨h.1, h.2⟩, fun h => ⟨h.le_max, h.fits⟩⟩

theorem announces_framed {body : Bytes} (fits : body.length < UInt32.size) (rest : Bytes) :
    Announces body.length (framed body ++ rest) (body ++ rest) where
  fits := fits
  split := List.append_assoc _ _ _

theorem next_framed {max : Nat} {body : Bytes} (h : Allowed max body) (rest : Bytes) :
    next max (framed body ++ rest) = .frame body rest := by
  have long : ¬ (body ++ rest).length < body.length := by simp
  rw [(announces_framed h.fits rest).next_eq, if_neg (Nat.not_lt.mpr h.le_max), if_neg long,
    List.take_left, List.drop_left]

theorem next_eq_frame {max : Nat} {stream body rest : Bytes} :
    next max stream = .frame body rest ↔ Allowed max body ∧ stream = framed body ++ rest := by
  constructor
  · intro h
    rcases short_or_announces stream with short | ⟨size, tail, announces⟩
    · rw [next_short short] at h
      cases h
    · rw [announces.next_eq] at h
      split at h
      · cases h
      next allowed =>
        split at h
        · cases h
        next long =>
          cases h
          have length : (tail.take size).length = size := List.length_take_of_le (by omega)
          refine ⟨⟨by omega, by rw [length]; exact announces.fits⟩, ?_⟩
          rw [framed, length, List.append_assoc, List.take_append_drop, announces.split]
  · rintro ⟨allowed, rfl⟩
    exact next_framed allowed rest

theorem write?_eq_ok {max : Nat} {body : Bytes} (h : Allowed max body) :
    write? max body = .ok (framed body) :=
  if_pos ⟨h.le_max, h.fits⟩

theorem write?_eq_error {max : Nat} {body : Bytes} (h : ¬ Allowed max body) :
    write? max body = .error (.tooLarge body.length max) :=
  if_neg fun allowed => h ⟨allowed.1, allowed.2⟩

theorem write?_eq_ok_iff {max : Nat} {body bytes : Bytes} :
    write? max body = .ok bytes ↔ Allowed max body ∧ framed body = bytes := by
  by_cases allowed : Allowed max body
  · simp [write?_eq_ok allowed, allowed]
  · simp [write?_eq_error allowed, allowed]

def wire (bodies : List Bytes) : Bytes := bodies.flatMap framed

/-- The stream consists of frames with these bodies and a rest that begins with no frame. -/
structure Splits (max : Nat) (stream : Bytes) (bodies : List Bytes) (rest : Bytes) : Prop where
  whole : stream = wire bodies ++ rest
  allowed : ∀ body ∈ bodies, Allowed max body
  ended : ∀ body tail, Allowed max body → rest ≠ framed body ++ tail

/-- The error that ends a reading in front of this rest. -/
structure EndsWith (max : Nat) (rest : Bytes) (e : WireError) : Prop where
  closed : e = .closed ↔ rest.length < 4
  tooLarge : ∀ size limit, e = .tooLarge size limit ↔
    limit = max ∧ max < size ∧ ∃ tail, Announces size rest tail
  broken : e = .broken ↔ ∃ size tail, size ≤ max ∧ Announces size rest tail ∧ tail.length < size

theorem endsWith_short {max : Nat} {rest : Bytes} (h : rest.length < 4) :
    EndsWith max rest .closed := by
  have silent {size : Nat} {tail : Bytes} (announces : Announces size rest tail) : False := by
    have := announces.length_eq
    omega
  refine ⟨by simp [h], fun size limit => ?_, ?_⟩
  · simp only [reduceCtorEq, false_iff, not_and, not_exists]
    exact fun _ _ tail announces => silent announces
  · simp only [reduceCtorEq, false_iff, not_exists, not_and]
    exact fun size tail _ announces => (silent announces).elim

theorem endsWith_tooLarge {max size : Nat} {rest tail : Bytes} (h : Announces size rest tail)
    (above : max < size) : EndsWith max rest (.tooLarge size max) := by
  have length := h.length_eq
  refine ⟨by simp [length], fun size' limit => ?_, ?_⟩
  · simp only [WireError.tooLarge.injEq]
    constructor
    · rintro ⟨rfl, rfl⟩
      exact ⟨rfl, above, tail, h⟩
    · rintro ⟨rfl, -, tail', h'⟩
      exact ⟨(h.unique h').1, rfl⟩
  · simp only [reduceCtorEq, false_iff, not_exists, not_and]
    intro size' tail' le h'
    rw [(h.unique h').1] at above
    omega

theorem endsWith_broken {max size : Nat} {rest tail : Bytes} (h : Announces size rest tail)
    (le : size ≤ max) (lacks : tail.length < size) : EndsWith max rest .broken := by
  have length := h.length_eq
  refine ⟨by simp [length], fun size' limit => ?_, ?_⟩
  · simp only [reduceCtorEq, false_iff, not_and, not_exists]
    intro _ above tail' h'
    rw [(h.unique h').1] at le
    omega
  · simp only [true_iff]
    exact ⟨size, tail, le, h, lacks⟩

theorem readAll_frame {max : Nat} {stream body rest : Bytes}
    (h : next max stream = .frame body rest) :
    readAll max stream = (body :: (readAll max rest).1, (readAll max rest).2) := by
  rw [readAll]
  split
  next eq => rw [h] at eq; cases eq
  next eq => rw [h] at eq; cases eq
  next eq =>
    rw [h] at eq
    cases eq
    rfl

theorem readAll_tooLarge {max size : Nat} {stream : Bytes} (h : next max stream = .tooLarge size) :
    readAll max stream = ([], .tooLarge size max) := by
  rw [readAll]
  split
  next eq => rw [h] at eq; cases eq
  next eq =>
    rw [h] at eq
    cases eq
    rfl
  next eq => rw [h] at eq; cases eq

theorem readAll_incomplete {max : Nat} {stream : Bytes} (h : next max stream = .incomplete) :
    readAll max stream = ([], endError stream) := by
  rw [readAll]
  split
  · rfl
  next eq => rw [h] at eq; cases eq
  next eq => rw [h] at eq; cases eq

theorem readAll_wire {max : Nat} {bodies : List Bytes} (allowed : ∀ body ∈ bodies, Allowed max body)
    (rest : Bytes) :
    readAll max (wire bodies ++ rest) = (bodies ++ (readAll max rest).1, (readAll max rest).2) := by
  induction bodies with
  | nil => rfl
  | cons body bodies ih =>
    have first : next max (wire (body :: bodies) ++ rest) = .frame body (wire bodies ++ rest) := by
      rw [wire, List.flatMap_cons, List.append_assoc]
      exact next_framed (allowed body List.mem_cons_self) _
    rw [readAll_frame first, ih fun b mem => allowed b (List.mem_cons_of_mem _ mem)]
    rfl

theorem readAll_rest {max : Nat} {rest : Bytes}
    (h : ∀ body tail, Allowed max body → rest ≠ framed body ++ tail) :
    (readAll max rest).1 = [] ∧ EndsWith max rest (readAll max rest).2 := by
  rcases short_or_announces rest with short | ⟨size, tail, announces⟩
  · rw [readAll_incomplete (next_short short), endError, if_pos short]
    exact ⟨rfl, endsWith_short short⟩
  · have arrival := announces.next_eq max
    split at arrival
    next above =>
      rw [readAll_tooLarge arrival]
      exact ⟨rfl, endsWith_tooLarge announces above⟩
    next allowed =>
      split at arrival
      next lacks =>
        have long : ¬ rest.length < 4 := by rw [announces.length_eq]; omega
        rw [readAll_incomplete arrival, endError, if_neg long]
        exact ⟨rfl, endsWith_broken announces (Nat.not_lt.mp allowed) lacks⟩
      · obtain ⟨allowed, split⟩ := next_eq_frame.mp arrival
        exact absurd split (h _ _ allowed)

theorem exists_splits (max : Nat) (stream : Bytes) :
    ∃ bodies rest, Splits max stream bodies rest := by
  cases first : next max stream with
  | frame body rest =>
    obtain ⟨allowed, split⟩ := next_eq_frame.mp first
    have shorter : rest.length < stream.length := next_rest_length first
    obtain ⟨bodies, last, splits⟩ := exists_splits max rest
    refine ⟨body :: bodies, last, ?_, ?_, splits.ended⟩
    · rw [split, splits.whole, wire, wire, List.flatMap_cons, List.append_assoc]
    · exact List.forall_mem_cons.mpr ⟨allowed, splits.allowed⟩
  | incomplete =>
    refine ⟨[], stream, rfl, by simp, fun body tail allowed split => ?_⟩
    rw [split, next_framed allowed] at first
    cases first
  | tooLarge size =>
    refine ⟨[], stream, rfl, by simp, fun body tail allowed split => ?_⟩
    rw [split, next_framed allowed] at first
    cases first
termination_by stream.length

/-- Reading finds every decomposition, so there is only one. -/
theorem Splits.readAll_eq {max : Nat} {stream rest : Bytes} {bodies : List Bytes}
    (h : Splits max stream bodies rest) :
    (readAll max stream).1 = bodies ∧ EndsWith max rest (readAll max stream).2 := by
  obtain ⟨none, ending⟩ := readAll_rest h.ended
  rw [h.whole, readAll_wire h.allowed, none, List.append_nil]
  exact ⟨rfl, ending⟩

theorem Splits.unique {max : Nat} {stream rest rest' : Bytes} {bodies bodies' : List Bytes}
    (h : Splits max stream bodies rest) (h' : Splits max stream bodies' rest') :
    bodies = bodies' ∧ rest = rest' := by
  have same : bodies = bodies' := h.readAll_eq.1.symm.trans h'.readAll_eq.1
  subst same
  exact ⟨rfl, List.append_cancel_left (h.whole.symm.trans h'.whole)⟩

theorem splits_nil (max : Nat) : Splits max [] [] [] where
  whole := rfl
  allowed := nofun
  ended body tail _ none := by
    have length := congrArg List.length none
    simp only [framed, List.length_append, length_lengthBytes, List.length_nil] at length
    omega

theorem Splits.cons {max : Nat} {stream body rest : Bytes} {bodies : List Bytes}
    (h : Splits max stream bodies rest) (allowed : Allowed max body) :
    Splits max (framed body ++ stream) (body :: bodies) rest where
  whole := by rw [h.whole, wire, wire, List.flatMap_cons, List.append_assoc]
  allowed := List.forall_mem_cons.mpr ⟨allowed, h.allowed⟩
  ended := h.ended

theorem splits_cut {max : Nat} {stream cut body : Bytes} (allowed : Allowed max body)
    (whole : framed body = stream ++ cut) (part : cut ≠ []) : Splits max stream [] stream where
  whole := rfl
  allowed := nofun
  ended other tail takes := by
    rintro rfl
    have first := next_framed allowed []
    rw [List.append_nil, whole, List.append_assoc, next_framed takes] at first
    injection first with _ none
    exact part (List.append_eq_nil_iff.mp none).2

theorem exists_splits_of_prefix {max : Nat} {stream : Bytes} {bodies : List Bytes}
    (allowed : ∀ body ∈ bodies, Allowed max body) (h : stream <+: wire bodies) :
    ∃ front rest, front <+: bodies ∧ Splits max stream front rest := by
  induction bodies generalizing stream with
  | nil =>
    cases List.prefix_nil.mp h
    exact ⟨[], [], List.nil_prefix, splits_nil max⟩
  | cons body bodies ih =>
    obtain ⟨fits, later⟩ := List.forall_mem_cons.mp allowed
    obtain ⟨tail, whole⟩ := h
    rw [wire, List.flatMap_cons] at whole
    have longer {more : Bytes} (begins : more <+: wire bodies) :
        ∃ front rest, front <+: body :: bodies ∧ Splits max (framed body ++ more) front rest := by
      obtain ⟨front, rest, among, splits⟩ := ih later begins
      exact ⟨body :: front, rest, (List.prefix_cons_inj body).mpr among, splits.cons fits⟩
    rcases List.append_eq_append_iff.mp whole with ⟨cut, split, -⟩ | ⟨more, rfl, behind⟩
    · by_cases part : cut = []
      · rw [part, List.append_nil] at split
        have all := @longer [] List.nil_prefix
        rwa [List.append_nil, split] at all
      · exact ⟨[], stream, List.nil_prefix, splits_cut fits split part⟩
    · exact longer ⟨tail, behind.symm⟩

end AgentBroker.Frame
