import AgentBroker.Proofs.Frame.Decomposition
import AgentBroker.Proofs.Run
import AgentBroker.Stream.Party

/-!
# Frames that arrive in pieces

Bytes come into a pipe in pieces of any size, and a reader takes them out as far as they are there.
What it has read in the end depends on the stream alone, and it comes to an end.
-/

namespace AgentBroker

structure Collector (max : Nat) where
  bodies : List Bytes
  ending : Option WireError

instance (max : Nat) : Party (Collector max) where
  need c := if c.ending.isNone then .frame max else .rest
  alarm? _ := none
  step c _
    | .received (.ok body) => { c with bodies := c.bodies ++ [body] }
    | .received (.error e) => { c with ending := some e }
    | _ => c

/-- A collector in its seat, and the pipe that it reads from. -/
structure Reading (max : Nat) where
  seat : Seat (Collector max)
  pipe : Pipe

namespace Reading

open AgentBroker.Frame

variable {max : Nat}

def bodies (r : Reading max) : List Bytes := r.seat.state.bodies

def ending (r : Reading max) : Option WireError := r.seat.state.ending

def start (max capacity : Nat) : Reading max := ⟨.take ⟨[], none⟩, .empty capacity⟩

inductive Move where
  /-- A piece comes, of which as much goes in as the pipe has room for. -/
  | arrive (piece : Bytes)
  /-- Nothing more will come. -/
  | close
  /-- The reader takes a step, if it can. -/
  | read

def arrived (r : Reading max) : Move → Bytes
  | .arrive piece => if r.pipe.isOpen then piece.take r.pipe.room else []
  | _ => []

def act (r : Reading max) : Move → Reading max
  | .arrive piece => if r.pipe.isOpen then { r with pipe := r.pipe.put piece } else r
  | .close => { r with pipe := r.pipe.close }
  | .read =>
    match r.seat.step? 0 r.pipe (.empty 0) with
    | some (seat, pipe, _) => ⟨seat, pipe⟩
    | none => r

def stream (r : Reading max) (moves : List Move) : Bytes := Run.log act arrived r moves

/-- The bytes are the beginning of one frame, or all of it. -/
def Begun (max : Nat) (seen : Bytes) : Prop :=
  seen.length ≤ 4 ∨ ∃ size tail, Announces size seen tail ∧ size ≤ max ∧ tail.length ≤ size

theorem lacking_short {seen : Bytes} (h : seen.length < 4) : lacking seen = 4 - seen.length := by
  match seen with
  | [] | [_] | [_, _] | [_, _, _] => rfl

theorem lacking_announces {size : Nat} {seen tail : Bytes} (h : Announces size seen tail) :
    lacking seen = size - tail.length := by
  obtain ⟨fits, rfl⟩ := h
  change lacking (byteAt size 3 :: byteAt size 2 :: byteAt size 1 :: byteAt size 0 :: tail) = _
  rw [lacking, lengthValue_byteAt fits]

theorem begun_append {seen : Bytes} (incomplete : next max seen = .incomplete) :
    0 < lacking seen ∧ ∀ more : Bytes, more.length ≤ lacking seen → Begun max (seen ++ more) := by
  rcases short_or_announces seen with short | ⟨size, tail, announces⟩
  · rw [lacking_short short]
    refine ⟨by omega, fun more le => .inl ?_⟩
    rw [List.length_append]
    omega
  · rw [lacking_announces announces]
    rw [announces.next_eq] at incomplete
    split at incomplete
    · cases incomplete
    next allowed =>
      split at incomplete
      next lacks =>
        refine ⟨by omega, fun more le => .inr ⟨size, tail ++ more, announces.append more, ?_⟩⟩
        rw [List.length_append]
        omega
      · cases incomplete

theorem Begun.rest_eq_nil {seen body rest : Bytes} (begun : Begun max seen)
    (whole : next max seen = .frame body rest) : rest = [] := by
  obtain ⟨allowed, split⟩ := next_eq_frame.mp whole
  have announced := announces_framed allowed.fits rest
  rw [← split] at announced
  rcases begun with short | ⟨size, tail, announces, -, le⟩
  · have length := announced.length_eq
    rw [List.length_append] at length
    exact List.eq_nil_of_length_eq_zero (by omega)
  · obtain ⟨rfl, rfl⟩ := announces.unique announced
    rw [List.length_append] at le
    exact List.eq_nil_of_length_eq_zero (by omega)

theorem step?_ended {r : Reading max} {e : WireError} (h : r.ending = some e) :
    r.seat.step? 0 r.pipe (.empty 0) = none := by
  have need : Party.need r.seat.state = .rest := by
    change (if r.ending.isNone then Need.frame max else .rest) = .rest
    rw [h]
    rfl
  rw [Seat.step?, need]

theorem step?_going {r : Reading max} (h : r.ending = none) :
    r.seat.step? 0 r.pipe (.empty 0) =
      match next max r.seat.seen with
      | .frame body _ => some (r.seat.happen 0 (.received (.ok body)), r.pipe, .empty 0)
      | .tooLarge size =>
        some (r.seat.happen 0 (.received (.error (.tooLarge size max))), r.pipe, .empty 0)
      | .incomplete =>
        match r.pipe.take (lacking r.seat.seen) with
        | ([], _) =>
          if r.pipe.isOpen then none
          else some (r.seat.happen 0 (.received (.error (endError r.seat.seen))), r.pipe, .empty 0)
        | (bytes, source) =>
          some ({ r.seat with seen := r.seat.seen ++ bytes }, source, .empty 0) := by
  have need : Party.need r.seat.state = .frame max := by
    change (if r.ending.isNone then Need.frame max else .rest) = .frame max
    rw [h]
    rfl
  rw [Seat.step?]
  generalize Party.need r.seat.state = n at need ⊢
  subst need
  rfl

inductive Turn (r : Reading max) : Reading max → Prop
  | body {body rest : Bytes} (going : r.ending = none)
      (whole : next max r.seat.seen = .frame body rest) :
      Turn r ⟨⟨⟨r.bodies ++ [body], none⟩, [], 0, r.seat.isPresent⟩, r.pipe⟩
  | refuse {size : Nat} (going : r.ending = none) (above : next max r.seat.seen = .tooLarge size) :
      Turn r ⟨⟨⟨r.bodies, some (.tooLarge size max)⟩, [], 0, r.seat.isPresent⟩, r.pipe⟩
  | take {piece left : Bytes} (going : r.ending = none)
      (incomplete : next max r.seat.seen = .incomplete) (some : piece ≠ [])
      (few : piece.length ≤ lacking r.seat.seen) (split : r.pipe.bytes = piece ++ left) :
      Turn r ⟨{ r.seat with seen := r.seat.seen ++ piece }, { r.pipe with bytes := left }⟩
  | finish (going : r.ending = none) (incomplete : next max r.seat.seen = .incomplete)
      (empty : r.pipe.bytes = []) (closed : r.pipe.isOpen = false) :
      Turn r ⟨⟨⟨r.bodies, .some (endError r.seat.seen)⟩, [], 0, r.seat.isPresent⟩, r.pipe⟩
  | wait (idle : r.ending = none → r.pipe.isOpen) : Turn r r

theorem turn_read (r : Reading max) : Turn r (r.act .read) := by
  rw [act]
  cases ending : r.ending with
  | some e =>
    rw [step?_ended ending]
    exact .wait fun going => by rw [ending] at going; cases going
  | none =>
    have state : r.seat.state = ⟨r.bodies, none⟩ := by rw [← ending]; rfl
    rw [step?_going ending]
    cases arrival : next max r.seat.seen with
    | frame body rest =>
      have turn := Turn.body ending arrival
      simp only [Seat.happen, state]
      exact turn
    | tooLarge size =>
      have turn := Turn.refuse ending arrival
      simp only [Seat.happen, state]
      exact turn
    | incomplete =>
      have lacks := (begun_append arrival).1
      dsimp only [Pipe.take]
      cases piece : r.pipe.bytes.take (lacking r.seat.seen) with
      | nil =>
        have empty : r.pipe.bytes = [] := by
          rcases List.take_eq_nil_iff.mp piece with zero | empty
          · omega
          · exact empty
        by_cases isOpen : r.pipe.isOpen
        · simp only [if_pos isOpen]
          exact .wait fun _ => isOpen
        · have turn := Turn.finish ending arrival empty (Bool.eq_false_iff.mpr isOpen)
          simp only [if_neg isOpen, Seat.happen, state]
          exact turn
      | cons b bytes =>
        have some : b :: bytes ≠ [] := List.cons_ne_nil b bytes
        have few : (b :: bytes).length ≤ lacking r.seat.seen := by
          rw [← piece]
          exact List.length_take_le _ _
        have split : r.pipe.bytes = b :: bytes ++ r.pipe.bytes.drop (lacking r.seat.seen) := by
          rw [← piece, List.take_append_drop]
        exact .take ending arrival some few split

/-- What the reader has made of the bytes that have come. While it goes on they are the frames that
it has read, what it has taken of the next one, and what is left in the pipe. -/
inductive Reads (past : Bytes) (r : Reading max) : Prop
  | going (ending : r.ending = none) (allowed : ∀ body ∈ r.bodies, Allowed max body)
      (begun : Begun max r.seat.seen)
      (split : past = wire r.bodies ++ (r.seat.seen ++ r.pipe.bytes))
  | refused {size : Nat} {rest tail : Bytes} (ending : r.ending = some (.tooLarge size max))
      (allowed : ∀ body ∈ r.bodies, Allowed max body) (announces : Announces size rest tail)
      (above : max < size) (split : past = wire r.bodies ++ rest)
  | finished {rest : Bytes} (ending : r.ending = some (endError rest))
      (allowed : ∀ body ∈ r.bodies, Allowed max body) (closed : r.pipe.isOpen = false)
      (incomplete : next max rest = .incomplete) (split : past = wire r.bodies ++ rest)

theorem reads_start (max capacity : Nat) : Reads [] (start max capacity) :=
  .going rfl (fun _ mem => nomatch mem) (.inl (Nat.zero_le _)) rfl

variable {r : Reading max} {past : Bytes}

theorem Reads.eq_readAll (h : Reads past r) {e : WireError} (ending : r.ending = some e) :
    readAll max past = (r.bodies, e) := by
  cases h with
  | going none => rw [none] at ending; cases ending
  | refused refused allowed announces above split =>
    have arrival := announces.next_eq max
    rw [if_pos above] at arrival
    rw [refused] at ending
    cases ending
    rw [split, readAll_wire allowed, readAll_tooLarge arrival, List.append_nil]
  | finished finished allowed closed incomplete split =>
    rw [finished] at ending
    cases ending
    rw [split, readAll_wire allowed, readAll_incomplete incomplete, List.append_nil]

theorem Reads.arrive (h : Reads past r) (piece : Bytes) (isOpen : r.pipe.isOpen) :
    Reads (past ++ piece.take r.pipe.room) { r with pipe := r.pipe.put piece } := by
  cases h with
  | going ending allowed begun split =>
    refine .going ending allowed begun ?_
    rw [split, Pipe.put]
    simp only [List.append_assoc]
    rfl
  | refused ending allowed announces above split =>
    refine .refused ending allowed (announces.append (piece.take r.pipe.room)) above ?_
    rw [split, List.append_assoc]
    rfl
  | finished _ _ closed => rw [closed] at isOpen; cases isOpen

theorem Reads.close (h : Reads past r) : Reads past { r with pipe := r.pipe.close } := by
  cases h with
  | going ending allowed begun split => exact .going ending allowed begun split
  | refused ending allowed announces above split =>
    exact .refused ending allowed announces above split
  | finished ending allowed closed incomplete split =>
    exact .finished ending allowed rfl incomplete split

theorem Reads.of_going (h : Reads past r) (going : r.ending = none) :
    (∀ body ∈ r.bodies, Allowed max body) ∧ Begun max r.seat.seen ∧
      past = wire r.bodies ++ (r.seat.seen ++ r.pipe.bytes) := by
  cases h with
  | going _ allowed begun split => exact ⟨allowed, begun, split⟩
  | refused ending => rw [going] at ending; cases ending
  | finished ending => rw [going] at ending; cases ending

theorem Reads.turn {r' : Reading max} (h : Reads past r) (turn : Turn r r') : Reads past r' := by
  cases turn with
  | wait => exact h
  | body going whole =>
    obtain ⟨allowed, begun, split⟩ := h.of_going going
    have nothing := begun.rest_eq_nil whole
    obtain ⟨allowed', seen⟩ := next_eq_frame.mp whole
    refine .going rfl ?_ (.inl (Nat.zero_le _)) ?_
    · intro body mem
      rcases List.mem_append.mp mem with mem | mem
      · exact allowed body mem
      · cases List.mem_singleton.mp mem
        exact allowed'
    · rw [split, seen, nothing, List.append_nil]
      simp [bodies, wire]
  | refuse going large =>
    obtain ⟨allowed, -, split⟩ := h.of_going going
    obtain ⟨above, tail, announces⟩ := next_eq_tooLarge large
    exact .refused rfl allowed (announces.append r.pipe.bytes) above split
  | take going incomplete some few taken =>
    obtain ⟨allowed, -, split⟩ := h.of_going going
    refine .going going allowed ((begun_append incomplete).2 _ few) ?_
    rw [split, taken, List.append_assoc]
    rfl
  | finish going incomplete empty closed =>
    obtain ⟨allowed, -, split⟩ := h.of_going going
    rw [empty, List.append_nil] at split
    exact .finished rfl allowed closed incomplete split

theorem Reads.act (h : Reads past r) (m : Move) : Reads (past ++ r.arrived m) (r.act m) := by
  cases m with
  | arrive piece =>
    rw [Reading.act, arrived]
    split
    next isOpen => exact h.arrive piece isOpen
    · rwa [List.append_nil]
  | close =>
    have nothing : r.arrived .close = [] := rfl
    rw [nothing, List.append_nil]
    exact h.close
  | read =>
    have nothing : r.arrived .read = [] := rfl
    rw [nothing, List.append_nil]
    exact h.turn (turn_read r)

theorem Reads.run (h : Reads past r) (moves : List Move) :
    Reads (past ++ r.stream moves) (Run.last Reading.act r moves) := by
  induction moves generalizing past r with
  | nil => rwa [stream, Run.log, List.append_nil]
  | cons m rest ih =>
    have further := ih (h.act m)
    rw [List.append_assoc] at further
    exact further

/-- How many steps a reader can still take when nothing more comes. -/
def effort (r : Reading max) : Nat :=
  2 * r.pipe.bytes.length + r.seat.seen.length + if r.ending.isNone then 1 else 0

theorem effort_going (h : r.ending = none) :
    r.effort = 2 * r.pipe.bytes.length + r.seat.seen.length + 1 := by
  rw [effort, h]
  rfl

theorem effort_ended {e : WireError} (h : r.ending = some e) :
    r.effort = 2 * r.pipe.bytes.length + r.seat.seen.length := by
  rw [effort, h]
  rfl

theorem effort_turn {r' : Reading max} (turn : Turn r r') (closed : r.pipe.isOpen = false)
    (going : r.ending = none) : r'.effort < r.effort := by
  rw [effort_going going]
  cases turn with
  | @body body rest _ whole =>
    obtain ⟨allowed, seen⟩ := next_eq_frame.mp whole
    have long := (announces_framed allowed.fits rest).length_eq
    rw [← seen] at long
    rw [effort_going rfl]
    dsimp only [List.length_nil]
    omega
  | refuse =>
    rw [effort_ended rfl]
    dsimp only [List.length_nil]
    omega
  | @take piece left _ _ some _ split =>
    have positive := List.length_pos_iff.mpr some
    refine lt_of_eq_of_lt (effort_going going) ?_
    dsimp only
    rw [split, List.length_append, List.length_append]
    omega
  | finish =>
    rw [effort_ended rfl]
    dsimp only [List.length_nil]
    omega
  | wait idle =>
    have isOpen := idle going
    rw [closed] at isOpen
    cases isOpen

theorem pipe_turn {r' : Reading max} (turn : Turn r r') :
    r'.pipe.isOpen = r.pipe.isOpen ∧ r'.pipe.capacity = r.pipe.capacity ∧
      r'.pipe.bytes.length ≤ r.pipe.bytes.length := by
  cases turn with
  | take _ _ _ _ split =>
    refine ⟨rfl, rfl, ?_⟩
    rw [split, List.length_append]
    exact Nat.le_add_left _ _
  | body | refuse | finish | wait => exact ⟨rfl, rfl, Nat.le_refl _⟩

theorem ended_of_closed (closed : r.pipe.isOpen = false) {n : Nat} (enough : r.effort ≤ n) :
    (Run.last act r (List.replicate n .read)).ending ≠ none := by
  induction n generalizing r with
  | zero =>
    intro going
    have positive := effort_going going
    change r.effort = _ at positive
    omega
  | succ n ih =>
    rw [List.replicate_succ, Run.last_cons]
    by_cases going : r.ending = none
    · have less := effort_turn (turn_read r) closed going
      have still := (pipe_turn (turn_read r)).1.trans closed
      exact ih still (by omega)
    · obtain ⟨e, ended⟩ := Option.ne_none_iff_exists'.mp going
      have same : r.act .read = r := by rw [act, step?_ended ended]
      have stays (k : Nat) : Run.last act r (List.replicate k .read) = r := by
        induction k with
        | zero => rfl
        | succ k ih => rw [List.replicate_succ, Run.last_cons, same, ih]
      rw [same, stays]
      exact going

theorem stream_reads (r : Reading max) (n : Nat) :
    r.stream (.close :: List.replicate n .read) = [] := by
  have silent (r : Reading max) (n : Nat) : r.stream (List.replicate n .read) = [] := by
    induction n generalizing r with
    | zero => rfl
    | succ n ih =>
      rw [List.replicate_succ]
      exact ih (r.act .read)
  exact silent (r.act .close) n

/-- However its bytes have come, a reader that goes on behind the end of a stream has read the
frames of the stream, and its error is theirs. -/
theorem collects (capacity : Nat) (moves : List Move) :
    ∃ enough, ∀ n ≥ enough,
      let r := Run.last act (start max capacity) (moves ++ .close :: List.replicate n .read)
      let whole := (start max capacity).stream moves
      r.bodies = (readAll max whole).1 ∧ r.ending = some (readAll max whole).2 := by
  let r := (Run.last act (start max capacity) moves).act .close
  refine ⟨r.effort, fun n enough => ?_⟩
  dsimp only
  have reads := (reads_start max capacity).run (moves ++ .close :: List.replicate n .read)
  have whole : (start max capacity).stream (moves ++ .close :: List.replicate n .read) =
      (start max capacity).stream moves := by
    rw [stream, Run.log_append]
    exact (congrArg _ (stream_reads _ n)).trans (List.append_nil _)
  rw [whole, List.nil_append] at reads
  have ended : (Run.last act (start max capacity)
      (moves ++ .close :: List.replicate n .read)).ending ≠ none := by
    rw [Run.last_append, Run.last_cons]
    exact @ended_of_closed max r rfl n enough
  obtain ⟨e, ending⟩ := Option.ne_none_iff_exists'.mp ended
  have found := reads.eq_readAll ending
  rw [found]
  exact ⟨rfl, ending⟩

def Move.piece : Move → Bytes
  | .arrive piece => piece
  | _ => []

theorem stream_eq_pieces {moves : List Move} (isOpen : r.pipe.isOpen) (goes : .close ∉ moves)
    (room : r.pipe.bytes.length + (moves.flatMap Move.piece).length ≤ r.pipe.capacity) :
    r.stream moves = moves.flatMap Move.piece := by
  induction moves generalizing r with
  | nil => rfl
  | cons m rest ih =>
    obtain ⟨first, later⟩ := not_or.mp (mt List.mem_cons.mpr goes)
    rw [List.flatMap_cons, List.length_append] at room
    have whole : r.stream (m :: rest) = r.arrived m ++ (r.act m).stream rest := rfl
    rw [whole, List.flatMap_cons]
    cases m with
    | close => exact absurd rfl first
    | arrive piece =>
      have le : piece.length ≤ r.pipe.room := by
        rw [Pipe.room]
        dsimp only [Move.piece] at room
        omega
      have put : r.act (.arrive piece) = { r with pipe := r.pipe.put piece } := if_pos isOpen
      have came : r.arrived (.arrive piece) = piece := by
        rw [arrived, if_pos isOpen, List.take_of_length_le le]
      have fits : (r.pipe.put piece).bytes.length + (rest.flatMap Move.piece).length ≤
          (r.pipe.put piece).capacity := by
        rw [Pipe.bytes_put_of_le le, List.length_append, Nat.add_assoc]
        exact room
      rw [put, came]
      exact congrArg (piece ++ ·) (@ih { r with pipe := r.pipe.put piece } isOpen later fits)
    | read =>
      obtain ⟨still, capacity, shorter⟩ := pipe_turn (turn_read r)
      have fits : (r.act .read).pipe.bytes.length + (rest.flatMap Move.piece).length ≤
          (r.act .read).pipe.capacity := by
        rw [capacity]
        omega
      exact ih (still.trans isOpen) later fits

end Reading

namespace Frame

/-- What goes onto the wire for a body: nothing if it is refused. -/
def sent (limit : Nat) (body : Bytes) : Bytes :=
  match write? limit body with
  | .ok bytes => bytes
  | .error _ => []

theorem sent_eq (limit : Nat) (body : Bytes) :
    sent limit body = if Allowed limit body then framed body else [] := by
  rw [sent]
  by_cases allowed : Allowed limit body
  · rw [write?_eq_ok allowed, if_pos allowed]
  · rw [write?_eq_error allowed, if_neg allowed]

theorem flatMap_sent (limit : Nat) (bodies : List Bytes) :
    bodies.flatMap (sent limit) = wire (bodies.filter fun body => Allowed limit body) := by
  induction bodies with
  | nil => rfl
  | cons body bodies ih =>
    rw [List.flatMap_cons, ih, sent_eq]
    by_cases allowed : Allowed limit body
    · rw [if_pos allowed, List.filter_cons_of_pos (by simpa using allowed)]
      rfl
    · rw [if_neg allowed, List.filter_cons_of_neg (by simpa using allowed)]
      rfl

/-- Reading finds the one decomposition of a stream into allowed frames and a rest, tells how the
rest ends, gives back what was written within its limit, and does not depend on the pieces in which
the bytes come. -/
theorem readAll_exact (max : Nat) :
    (∀ stream, ∃ rest, Splits max stream (readAll max stream).1 rest ∧
      EndsWith max rest (readAll max stream).2 ∧
      ((readAll max stream).1.flatMap (sent max) ++ rest = stream) ∧
      ∀ bodies rest', Splits max stream bodies rest' →
        bodies = (readAll max stream).1 ∧ rest' = rest) ∧
    (∀ limit ≤ max, ∀ bodies : List Bytes,
      readAll max (bodies.flatMap (sent limit)) =
        (bodies.filter fun body => Allowed limit body, .closed)) ∧
    (∀ limit body, ¬ Allowed limit body →
      write? limit body = .error (.tooLarge body.length limit) ∧ sent limit body = []) ∧
    (∀ capacity moves, ∃ enough, ∀ n ≥ enough,
      let r := Run.last Reading.act (Reading.start max capacity)
        (moves ++ .close :: List.replicate n .read)
      let whole := (Reading.start max capacity).stream moves
      r.bodies = (readAll max whole).1 ∧ r.ending = some (readAll max whole).2) ∧
    ∀ capacity moves, .close ∉ moves → (moves.flatMap Reading.Move.piece).length ≤ capacity →
      (Reading.start max capacity).stream moves = moves.flatMap Reading.Move.piece := by
  refine ⟨fun stream => ?_, fun limit le bodies => ?_, fun limit body refused => ?_,
    fun capacity moves => Reading.collects capacity moves, fun capacity moves goes room => ?_⟩
  · obtain ⟨bodies, rest, splits⟩ := exists_splits max stream
    obtain ⟨same, ends⟩ := splits.readAll_eq
    have all : (bodies.filter fun body => Allowed max body) = bodies :=
      List.filter_eq_self.mpr fun body mem => by simpa using splits.allowed body mem
    refine ⟨rest, same.symm ▸ splits, ends, ?_, ?_⟩
    · rw [same, flatMap_sent, all, splits.whole]
    · rintro bodies' rest' splits'
      rw [same]
      exact splits'.unique splits
  · have allowed : ∀ body ∈ bodies.filter fun body => Allowed limit body, Allowed max body := by
      intro body mem
      have within : Allowed limit body := by simpa using (List.mem_filter.mp mem).2
      exact ⟨Nat.le_trans within.le_max le, within.fits⟩
    have nothing : readAll max [] = ([], .closed) := readAll_incomplete rfl
    have read := readAll_wire allowed []
    rwa [List.append_nil, nothing, List.append_nil, ← flatMap_sent] at read
  · exact ⟨write?_eq_error refused, by rw [sent_eq, if_neg refused]⟩
  · refine Reading.stream_eq_pieces rfl goes ?_
    change 0 + _ ≤ capacity
    omega

/-- Of three bodies the one above the limit of three bytes is refused, and the others are read
wherever the stream is cut. -/
theorem readAll_exact_three :
    readAll 4 ([[1, 2, 3], [], [1, 2, 3, 4]].flatMap (sent 3)) = ([[1, 2, 3], []], .closed) ∧
    write? 3 [1, 2, 3, 4] = .error (.tooLarge 4 3) ∧
    (Reading.start 4 16).stream [.arrive [0, 0], .read, .arrive [0, 3, 1, 2], .arrive [3]] =
      [0, 0, 0, 3, 1, 2, 3] := by
  have refused : ¬ Allowed 3 [1, 2, 3, 4] := by decide
  obtain ⟨-, written, refuses, -, cut⟩ := readAll_exact 4
  exact ⟨written 3 (by decide) [[1, 2, 3], [], [1, 2, 3, 4]], (refuses 3 _ refused).1,
    cut 16 _ (by simp) (by decide)⟩

end Frame

end AgentBroker
