import AgentBroker.Toml.Text

/-!
# Quoted texts are read back

A text is quoted in one of four ways. Whichever is chosen, what is written is read as the text it
was written for, however many quotation marks, backslashes, line ends and control characters there
are in it.
-/

namespace AgentBroker.Toml

variable {c : Char} {cs rest : List Char} {lines : Bool}

/-- How one character is spelled between double marks. In a text of several lines a line end stands
for itself. -/
inductive Spells (lines : Bool) (c : Char) : List Char → Prop
  | short {e : Char} (escape : escaped? e = some c) (noCode : e ≠ 'u' ∧ e ≠ 'U') :
      Spells lines c ['\\', e]
  | code (control : isPlain c = false) : Spells lines c (codeEscape c)
  | plain (plain : isPlain c = true) (noMark : c ≠ '"') (noEscape : c ≠ '\\') : Spells lines c [c]
  | lineEnd (several : lines = true) (same : c = '\n') : Spells lines c [c]

/-- A text between double marks is spelled character by character. Only a mark can be left as it
is, if there are few of them in a row. -/
theorem exists_spells (lines : Bool) (spare run : Nat) (c : Char) (cs : List Char)
    (escapes : c = '"' → spare ≤ run) :
    ∃ spelling, Spells lines c spelling ∧
      escapeWith lines spare run (c :: cs) = spelling ++ escapeWith lines spare 0 cs := by
  rw [escapeWith.eq_def lines spare run (c :: cs)]
  split
  next => contradiction
  next same =>
    cases same
    rw [if_neg (Nat.not_lt.mpr (escapes rfl))]
    exact ⟨['\\', '"'], .short rfl (by decide), rfl⟩
  next same => cases same; exact ⟨['\\', 'b'], .short rfl (by decide), rfl⟩
  next same => cases same; exact ⟨['\\', 't'], .short rfl (by decide), rfl⟩
  next same =>
    cases same
    split
    next several => exact ⟨['\n'], .lineEnd several rfl, rfl⟩
    next => exact ⟨['\\', 'n'], .short rfl (by decide), rfl⟩
  next same => cases same; exact ⟨['\\', 'f'], .short rfl (by decide), rfl⟩
  next same => cases same; exact ⟨['\\', 'r'], .short rfl (by decide), rfl⟩
  next same => cases same; exact ⟨['\\', '\\'], .short rfl (by decide), rfl⟩
  next noMark _ _ _ _ _ noEscape same =>
    cases same
    split
    next plain => exact ⟨[c], .plain plain noMark noEscape, rfl⟩
    next control => exact ⟨codeEscape c, .code (Bool.eq_false_iff.mpr control), rfl⟩

theorem coded?_code (control : isPlain c = false) :
    coded? ['0', '0', (Nat.digitChar (c.toNat / 16)).toUpper,
      (Nat.digitChar (c.toNat % 16)).toUpper] = some c := by
  have all : ∀ n < 128, coded? ['0', '0', (Nat.digitChar (n / 16)).toUpper,
      (Nat.digitChar (n % 16)).toUpper] = some (Char.ofNat n) := by decide +kernel
  have small : c.toNat < 128 := by
    simp [isPlain] at control
    omega
  rw [all c.toNat small, Char.ofNat_toNat]

theorem readBasic_plain (plain : isPlain c) (noMark : c ≠ '"') (noEscape : c ≠ '\\') :
    readBasic (c :: rest) = push? (some c) (readBasic rest) := by
  rw [readBasic, if_pos plain]
  · exact noMark
  · exact fun _ _ _ _ _ same => absurd same noEscape
  · exact fun _ _ _ _ _ _ _ _ _ same => absurd same noEscape
  · exact fun _ _ same => absurd same noEscape

theorem readBasic_spelling {spelling : List Char} (spells : Spells false c spelling) :
    readBasic (spelling ++ rest) = push? (some c) (readBasic rest) := by
  cases spells with
  | @short e escape noCode =>
    rw [← escape]
    refine readBasic.eq_5 e rest ?_ ?_
    · exact fun _ _ _ _ _ same => absurd same noCode.1
    · exact fun _ _ _ _ _ _ _ _ _ same => absurd same noCode.2
  | code control =>
    rw [← coded?_code control]
    rfl
  | plain plain noMark noEscape => exact readBasic_plain plain noMark noEscape
  | lineEnd several => cases several

theorem push?_some (c : Char) (text rest : List Char) :
    push? (some c) (some (text, rest)) = some (c :: text, rest) := rfl

theorem readBasic_escapeWith (run : Nat) (cs rest : List Char) :
    readBasic (escapeWith false 0 run cs ++ '"' :: rest) = some (cs, rest) := by
  induction cs generalizing run with
  | nil => rfl
  | cons c cs ih =>
    obtain ⟨spelling, spells, written⟩ := exists_spells false 0 run c cs fun _ => Nat.zero_le run
    rw [written, List.append_assoc, readBasic_spelling spells, ih, push?_some]

theorem readLiteral_append {cs : List Char} (plain : ∀ c ∈ cs, isPlain c) (noMark : '\'' ∉ cs)
    (rest : List Char) : readLiteral (cs ++ '\'' :: rest) = some (cs, rest) := by
  induction cs with
  | nil => rfl
  | cons c cs ih =>
    obtain ⟨first, others⟩ := List.forall_mem_cons.mp plain
    obtain ⟨differ, free⟩ := not_or.mp (mt List.mem_cons.mpr noMark)
    rw [List.cons_append, readLiteral, if_pos first, ih others free, push?_some]
    exact fun same => differ same.symm

theorem readBasicLines_plain (plain : isPlain c ∨ c = '\n') (noMark : c ≠ '"')
    (noEscape : c ≠ '\\') :
    readBasicLines false (c :: rest) = push? (some c) (readBasicLines false rest) := by
  rw [readBasicLines, if_neg (by simp), if_pos plain]
  · exact fun _ same => absurd same noMark
  · exact fun _ same => absurd same noMark
  · exact fun _ same => absurd same noMark
  · exact fun _ _ _ _ _ same => absurd same noEscape
  · exact fun _ _ _ _ _ _ _ _ _ same => absurd same noEscape
  · exact fun _ _ same => absurd same noEscape
  · rintro _ rfl
    exact absurd plain (by decide)

theorem endsLine_escape {e : Char} (escape : escaped? e = some c) :
    endsLine (e :: rest) = false := by
  unfold escaped? at escape
  split at escape
  case h_8 => cases escape
  all_goals rfl

theorem readBasicLines_spelling {spelling : List Char} (spells : Spells true c spelling) :
    readBasicLines false (spelling ++ rest) = push? (some c) (readBasicLines false rest) := by
  cases spells with
  | @short e escape noCode =>
    have more : endsLine (e :: rest) = false := endsLine_escape escape
    rw [← escape]
    change readBasicLines false ('\\' :: e :: rest) = _
    rw [readBasicLines, more]
    · rfl
    · exact fun _ _ _ _ _ same => absurd same noCode.1
    · exact fun _ _ _ _ _ _ _ _ _ same => absurd same noCode.2
  | code control =>
    rw [← coded?_code control]
    rfl
  | plain plain noMark noEscape => exact readBasicLines_plain (.inl plain) noMark noEscape
  | lineEnd _ same => exact readBasicLines_plain (.inr same) (by simp [same]) (by simp [same])

theorem Spells.head {spelling : List Char} (spells : Spells lines c spelling) :
    ∃ d ds, spelling = d :: ds ∧ d ≠ '"' := by
  cases spells with
  | short => exact ⟨_, _, rfl, by decide⟩
  | code => exact ⟨_, _, rfl, by decide⟩
  | plain _ noMark => exact ⟨c, [], rfl, noMark⟩
  | lineEnd _ same => exact ⟨c, [], rfl, by simp [same]⟩

theorem escapeWith_head (lines : Bool) (spare run : Nat) (c : Char) (cs : List Char)
    (escapes : c = '"' → spare ≤ run) :
    ∃ d ds, escapeWith lines spare run (c :: cs) = d :: ds ∧ d ≠ '"' := by
  obtain ⟨spelling, spells, written⟩ := exists_spells lines spare run c cs escapes
  obtain ⟨d, ds, rfl, noMark⟩ := spells.head
  exact ⟨d, _, written, noMark⟩

theorem readBasicLines_mark (few : ∀ more, rest ≠ '"' :: '"' :: more) :
    readBasicLines false ('"' :: rest) = push? (some '"') (readBasicLines false rest) := by
  rw [readBasicLines, if_neg (by simp), if_pos (.inl (by decide))]
  · exact fun _ _ => few _
  · exact fun _ _ => few _
  · exact fun _ _ => few _
  · exact fun _ _ _ _ _ same => absurd same (by decide)
  · exact fun _ _ _ _ _ _ _ _ _ same => absurd same (by decide)
  · exact fun _ _ same => absurd same (by decide)
  · exact fun _ same => absurd same (by decide)

theorem readBasicLines_mark_cons {d : Char} (noMark : d ≠ '"') :
    readBasicLines false ('"' :: d :: rest) =
      push? (some '"') (readBasicLines false (d :: rest)) := by
  apply readBasicLines_mark
  intro more same
  cases same
  exact noMark rfl

theorem readBasicLines_close (stop : rest.head? ≠ some '"') :
    readBasicLines false ('"' :: '"' :: '"' :: rest) = some ([], rest) ∧
      readBasicLines false ('"' :: '"' :: '"' :: '"' :: rest) = some (['"'], rest) := by
  cases rest with
  | nil => exact ⟨rfl, rfl⟩
  | cons d rest =>
    have noMark : d ≠ '"' := fun same => stop (congrArg some same)
    constructor
    · rw [readBasicLines]
      · exact fun _ same => noMark (List.cons.inj same).1
      · exact fun _ same => noMark (List.cons.inj same).1
    · rw [readBasicLines]
      exact fun _ same => noMark (List.cons.inj same).1

/-- At most two marks in a row stand for themselves, also right before the closing ones. -/
theorem readBasicLines_escapeWith (run : Nat) (cs : List Char) (stop : rest.head? ≠ some '"') :
    readBasicLines false (escapeWith true 2 run cs ++ '"' :: '"' :: '"' :: rest) =
      some (cs, rest) := by
  induction cs generalizing run with
  | nil => exact (readBasicLines_close stop).1
  | cons c cs ih =>
    by_cases mark : c = '"' ∧ run < 2
    case neg =>
      obtain ⟨spelling, spells, written⟩ := exists_spells true 2 run c cs fun same =>
        Nat.le_of_not_lt fun few => mark ⟨same, few⟩
      rw [written, List.append_assoc, readBasicLines_spelling spells, ih, push?_some]
    case pos =>
      obtain ⟨rfl, few⟩ := mark
      have written : escapeWith true 2 run ('"' :: cs) = '"' :: escapeWith true 2 (run + 1) cs := by
        rw [escapeWith, if_pos few]
      rw [written, List.cons_append]
      have later := ih (run + 1)
      cases cs with
      | nil => exact (readBasicLines_close stop).2
      | cons d ds =>
        by_cases second : d = '"' ∧ run + 1 < 2
        case neg =>
          obtain ⟨e, es, spelled, noMark⟩ := escapeWith_head true 2 (run + 1) d ds fun same =>
            Nat.le_of_not_lt fun few => second ⟨same, few⟩
          rw [spelled] at later ⊢
          rw [List.cons_append, readBasicLines_mark_cons noMark, ← List.cons_append, later,
            push?_some]
        case pos =>
          obtain ⟨rfl, few⟩ := second
          have written : escapeWith true 2 (run + 1) ('"' :: ds) =
              '"' :: escapeWith true 2 (run + 2) ds := by
            rw [escapeWith, if_pos few]
          rw [written] at later ⊢
          cases ds with
          | nil => rfl
          | cons e es =>
            -- A third mark is spelled, so the two marks do not close the text.
            obtain ⟨d, ds, spelled, noMark⟩ := escapeWith_head true 2 (run + 2) e es fun _ =>
              Nat.le_add_left 2 run
            rw [List.cons_append, readBasicLines_mark, ← List.cons_append, later, push?_some]
            rintro more same
            rw [spelled] at same
            cases same
            exact noMark rfl

theorem le_longestRun (c : Char) (run : Nat) (cs : List Char) : run ≤ longestRun c run cs := by
  induction cs generalizing run with
  | nil => exact Nat.le_refl run
  | cons d ds ih =>
    rw [longestRun]
    split
    · exact Nat.le_of_succ_le (ih (run + 1))
    · exact Nat.le_max_left run _

theorem longestRun_mono (c : Char) {run more : Nat} (le : run ≤ more) (cs : List Char) :
    longestRun c run cs ≤ longestRun c more cs := by
  induction cs generalizing run more with
  | nil => exact le
  | cons d ds ih =>
    rw [longestRun, longestRun]
    split
    · exact ih (Nat.succ_le_succ le)
    · omega

theorem longestRun_tail (c d : Char) (ds : List Char) :
    longestRun c 0 ds ≤ longestRun c 0 (d :: ds) := by
  rw [longestRun.eq_2]
  split
  · exact longestRun_mono c (Nat.zero_le 1) ds
  · exact Nat.le_max_right 0 _

theorem not_mem_of_longestRun (none : longestRun c 0 cs = 0) : c ∉ cs := by
  induction cs with
  | nil => simp
  | cons d ds ih =>
    have tail := longestRun_tail c d ds
    rw [none] at tail
    have later := ih (Nat.le_zero.mp tail)
    rw [List.mem_cons, not_or]
    refine ⟨?_, later⟩
    rintro rfl
    rw [longestRun, if_pos rfl] at none
    have first := le_longestRun c (0 + 1) ds
    omega

theorem readLiteralLines_plain (plain : isPlain c ∨ c = '\n') (noMark : c ≠ '\'') :
    readLiteralLines (c :: rest) = push? (some c) (readLiteralLines rest) := by
  rw [readLiteralLines, if_pos plain]
  · exact fun _ same => absurd same noMark
  · exact fun _ same => absurd same noMark
  · exact fun _ same => absurd same noMark
  · rintro _ rfl
    exact absurd plain (by decide)

theorem readLiteralLines_mark (few : ∀ more, rest ≠ '\'' :: '\'' :: more) :
    readLiteralLines ('\'' :: rest) = push? (some '\'') (readLiteralLines rest) := by
  rw [readLiteralLines, if_pos (.inl (by decide))]
  · exact fun _ _ => few _
  · exact fun _ _ => few _
  · exact fun _ _ => few _
  · exact fun _ same => absurd same (by decide)

theorem readLiteralLines_close (stop : rest.head? ≠ some '\'') :
    readLiteralLines ('\'' :: '\'' :: '\'' :: rest) = some ([], rest) ∧
      readLiteralLines ('\'' :: '\'' :: '\'' :: '\'' :: rest) = some (['\''], rest) := by
  cases rest with
  | nil => exact ⟨rfl, rfl⟩
  | cons d rest =>
    have noMark : d ≠ '\'' := fun same => stop (congrArg some same)
    constructor
    · rw [readLiteralLines]
      · exact fun _ same => noMark (List.cons.inj same).1
      · exact fun _ same => noMark (List.cons.inj same).1
    · rw [readLiteralLines]
      exact fun _ same => noMark (List.cons.inj same).1

theorem readLiteralLines_append {cs : List Char} (plain : ∀ c ∈ cs, isPlain c ∨ c = '\n')
    (few : longestRun '\'' 0 cs ≤ 2) (stop : rest.head? ≠ some '\'') :
    readLiteralLines (cs ++ '\'' :: '\'' :: '\'' :: rest) = some (cs, rest) := by
  induction cs with
  | nil => exact (readLiteralLines_close stop).1
  | cons c cs ih =>
    obtain ⟨first, others⟩ := List.forall_mem_cons.mp plain
    have later := ih others (Nat.le_trans (longestRun_tail '\'' c cs) few)
    rw [List.cons_append]
    by_cases mark : c = '\''
    case neg => rw [readLiteralLines_plain first mark, later, push?_some]
    case pos =>
      subst mark
      cases cs with
      | nil => exact (readLiteralLines_close stop).2
      | cons d ds =>
        by_cases second : d = '\''
        case neg =>
          rw [readLiteralLines_mark, later, push?_some]
          exact fun _ same => second (List.cons.inj same).1
        case pos =>
          subst second
          cases ds with
          | nil => rfl
          | cons e es =>
            rw [readLiteralLines_mark, later, push?_some]
            rintro more same
            obtain rfl : e = '\'' := (List.cons.inj (List.cons.inj same).2).1
            have three := le_longestRun '\'' 3 es
            simp only [longestRun, if_true, Nat.reduceAdd] at few
            omega

theorem plain_of_any (none : cs.any needsEscape = false) : ∀ c ∈ cs, isPlain c ∨ c = '\n' := by
  intro c mem
  have free := List.any_eq_false.mp none c mem
  by_cases plain : isPlain c
  · exact .inl plain
  · exact .inr (by simpa [needsEscape, plain] using free)

theorem of_quotingOf_literal (chosen : quotingOf cs = .literal) :
    (∀ c ∈ cs, isPlain c) ∧ '\'' ∉ cs := by
  unfold quotingOf at chosen
  dsimp only at chosen
  split at chosen
  · cases chosen
  split at chosen
  next free =>
    simp only [Bool.and_eq_true, Bool.not_eq_true', decide_eq_true_eq] at free
    obtain ⟨⟨codes, lines⟩, singles⟩ := free
    refine ⟨?_, not_mem_of_longestRun singles⟩
    intro c mem
    rcases plain_of_any codes c mem with plain | rfl
    · exact plain
    · simp [mem] at lines
  split at chosen
  · cases chosen
  split at chosen
  · cases chosen
  split at chosen <;> cases chosen

theorem of_quotingOf_literalLines (chosen : quotingOf cs = .literalLines) :
    (∀ c ∈ cs, isPlain c ∨ c = '\n') ∧ longestRun '\'' 0 cs ≤ 2 := by
  unfold quotingOf at chosen
  dsimp only at chosen
  split at chosen
  · cases chosen
  split at chosen
  · cases chosen
  split at chosen
  · cases chosen
  split at chosen
  next free =>
    simp only [Bool.and_eq_true, Bool.not_eq_true', decide_eq_true_eq] at free
    exact ⟨plain_of_any free.1, free.2⟩
  split at chosen <;> cases chosen

theorem readString_short (basic : ∀ more, cs ≠ '"' :: '"' :: '"' :: more)
    (literal : ∀ more, cs ≠ '\'' :: '\'' :: '\'' :: more) : readString cs = readShort cs := by
  rw [readString]
  · exact basic
  · exact literal

/-- The line end that is put in front of a text of several lines is taken away again, and no other
one is. -/
theorem skipLineEnd_lead {body : List Char}
    (head : '\n' ∉ cs → ∀ c ∈ body.head?, c ≠ '\n' ∧ c ≠ '\r') :
    skipLineEnd ((if cs.contains '\n' then ['\n'] else []) ++ body) = body := by
  split
  next => rfl
  next single =>
    have first := head (by simpa using single)
    cases body with
    | nil => rfl
    | cons c body =>
      obtain ⟨noEnd, noReturn⟩ := first c rfl
      rw [List.nil_append, skipLineEnd]
      · exact fun _ same => noEnd (List.cons.inj same).1
      · exact fun _ same => noReturn (List.cons.inj same).1

theorem escapeWith_head_line {more : List Char} (single : '\n' ∉ cs) :
    ∀ c ∈ (escapeWith true 2 0 cs ++ '"' :: more).head?, c ≠ '\n' ∧ c ≠ '\r' := by
  cases cs with
  | nil => simp [escapeWith]
  | cons c cs =>
    by_cases mark : c = '"'
    · simp [mark, escapeWith]
    · obtain ⟨spelling, spells, written⟩ := exists_spells true 2 0 c cs fun same => absurd same mark
      rw [written]
      cases spells with
      | short => simp
      | code => simp [codeEscape]
      | plain plain =>
        have noReturn : c ≠ '\r' := by
          rintro rfl
          exact absurd plain (by decide)
        have noEnd : c ≠ '\n' := by
          rintro rfl
          exact absurd plain (by decide)
        simp [noReturn, noEnd]
      | lineEnd _ same => simp [same] at single

theorem readString_basic (cs : List Char) (noMark : rest.head? ≠ some '"') :
    readString ('"' :: (escapeWith false 0 0 cs ++ '"' :: rest)) = some (cs, rest) := by
  rw [readString_short]
  · exact readBasic_escapeWith 0 cs rest
  · intro more same
    have behind := (List.cons.inj same).2
    cases cs with
    | nil =>
      apply noMark
      rw [(List.cons.inj behind).2]
      rfl
    | cons c cs =>
      obtain ⟨d, ds, written, differ⟩ := escapeWith_head false 0 0 c cs fun _ => Nat.le_refl 0
      rw [written] at behind
      exact differ (List.cons.inj behind).1
  · exact fun _ same => absurd (List.cons.inj same).1 (by decide)

theorem readString_literal (plain : ∀ c ∈ cs, isPlain c) (free : '\'' ∉ cs)
    (noMark : rest.head? ≠ some '\'') :
    readString ('\'' :: (cs ++ '\'' :: rest)) = some (cs, rest) := by
  rw [readString_short]
  · exact readLiteral_append plain free rest
  · exact fun _ same => absurd (List.cons.inj same).1 (by decide)
  · intro more same
    have behind := (List.cons.inj same).2
    cases cs with
    | nil =>
      apply noMark
      rw [(List.cons.inj behind).2]
      rfl
    | cons c cs =>
      obtain rfl : c = '\'' := (List.cons.inj behind).1
      exact free List.mem_cons_self

theorem head_plain {more : List Char} (plain : ∀ c ∈ cs, isPlain c ∨ c = '\n')
    (single : '\n' ∉ cs) :
    ∀ c ∈ (cs ++ '\'' :: more).head?, c ≠ '\n' ∧ c ≠ '\r' := by
  cases cs with
  | nil => simp
  | cons c cs =>
    rintro d same
    cases same
    have noEnd : c ≠ '\n' := fun same => single (same ▸ List.mem_cons_self)
    refine ⟨noEnd, ?_⟩
    rintro rfl
    exact absurd (plain _ List.mem_cons_self) (by decide)

theorem readString_quote (cs : List Char) (noMark : rest.head? ≠ some '"')
    (noLiteral : rest.head? ≠ some '\'') : readString (quote cs ++ rest) = some (cs, rest) := by
  unfold quote
  dsimp only
  split
  next =>
    rw [List.cons_append, List.cons_append, List.append_assoc]
    exact readString_basic cs noMark
  next chosen =>
    obtain ⟨plain, free⟩ := of_quotingOf_literal chosen
    rw [List.cons_append, List.cons_append, List.append_assoc]
    exact readString_literal plain free noLiteral
  next =>
    have body : skipLineEnd ((if cs.contains '\n' then ['\n'] else []) ++
        (escapeWith true 2 0 cs ++ '"' :: '"' :: '"' :: rest)) = _ :=
      skipLineEnd_lead escapeWith_head_line
    simp only [List.append_assoc, List.cons_append, List.nil_append] at body ⊢
    rw [readString, body]
    exact readBasicLines_escapeWith 0 cs noMark
  next chosen =>
    obtain ⟨plain, few⟩ := of_quotingOf_literalLines chosen
    have body : skipLineEnd ((if cs.contains '\n' then ['\n'] else []) ++
        (cs ++ '\'' :: '\'' :: '\'' :: rest)) = _ := skipLineEnd_lead (head_plain plain)
    simp only [List.append_assoc, List.cons_append, List.nil_append] at body ⊢
    rw [readString, body]
    exact readLiteralLines_append plain few noLiteral

theorem quote_head (cs : List Char) :
    (∃ more, quote cs = '"' :: more) ∨ ∃ more, quote cs = '\'' :: more := by
  unfold quote
  dsimp only
  split
  · exact .inl ⟨_, rfl⟩
  · exact .inr ⟨_, rfl⟩
  · exact .inl ⟨_, rfl⟩
  · exact .inr ⟨_, rfl⟩

end AgentBroker.Toml
