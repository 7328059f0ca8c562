import AgentBroker.Proofs.Text.Digit
import AgentBroker.Proofs.Toml.Text
import AgentBroker.Toml.Document

/-!
# Written values

How a string, a number and a truth value are written at the end of a line, and that they are read
back there. The digits of a number are no date and no time, since no hyphen and no colon follows
them.
-/

namespace AgentBroker.Toml

variable {c : Char} {ds rest : List Char}

/-- A text that is read as a value at the end of a line. -/
def Writes (text : List Char) (v : Toml) : Prop :=
  ∀ rest, value? maxDepth (skipSpaces (text ++ '\n' :: rest)) = some (v, '\n' :: rest)

def beginsLiteral (c : Char) : Bool := !(c ∈ [' ', '\t', '[', '{', '"', '\''])

theorem skipSpaces_cons (noBlank : c ≠ ' ') (noTab : c ≠ '\t') :
    skipSpaces (c :: rest) = c :: rest := by
  rw [skipSpaces]
  · exact fun _ same => noBlank (List.cons.inj same).1
  · exact fun _ same => noTab (List.cons.inj same).1

theorem value?_eq_scalar? (depth : Nat) (noArray : c ≠ '[') (noTable : c ≠ '{') :
    value? depth (c :: rest) = scalar? (c :: rest) := by
  cases depth with
  | zero => rfl
  | succ depth =>
    rw [value?]
    · exact fun _ same => noArray (List.cons.inj same).1
    · exact fun _ same => noTable (List.cons.inj same).1

theorem writes_quote (cs : List Char) : Writes (quote cs) (.string (String.ofList cs)) := by
  intro rest
  have read : readString (quote cs ++ '\n' :: rest) = some (cs, '\n' :: rest) :=
    readString_quote cs (by simp) (by simp)
  rcases quote_head cs with ⟨more, marked⟩ | ⟨more, marked⟩
  · rw [marked, List.cons_append] at read ⊢
    rw [skipSpaces_cons (by decide) (by decide), value?_eq_scalar? _ (by decide) (by decide),
      scalar?, read]
    rfl
  · rw [marked, List.cons_append] at read ⊢
    rw [skipSpaces_cons (by decide) (by decide), value?_eq_scalar? _ (by decide) (by decide),
      scalar?, read]
    rfl

theorem writes_literal {v : Toml} (begins : beginsLiteral c)
    (read : ∀ rest, literal? (c :: ds ++ '\n' :: rest) = some (v, '\n' :: rest)) :
    Writes (c :: ds) v := by
  intro rest
  simp only [beginsLiteral, List.mem_cons, List.not_mem_nil, or_false, Bool.not_eq_true',
    decide_eq_false_iff_not, not_or] at begins
  obtain ⟨noBlank, noTab, noArray, noTable, noMark, noLiteral⟩ := begins
  rw [List.cons_append, skipSpaces_cons noBlank noTab, value?_eq_scalar? _ noArray noTable, scalar?]
  · exact read rest
  · exact fun _ same => noMark (List.cons.inj same).1
  · exact fun _ same => noLiteral (List.cons.inj same).1

theorem writes_bool (b : Bool) : Writes (if b then "true" else "false").toList (.bool b) := by
  cases b with
  | true => exact writes_literal (by decide) fun _ => rfl
  | false => exact writes_literal (by decide) fun _ => rfl

def EndsInDigits (cs : List Char) : Prop :=
  ∃ ds rest, (∀ c ∈ ds, c.isDigit) ∧ cs = ds ++ '\n' :: rest

theorem EndsInDigits.drop {cs : List Char} (ends : EndsInDigits cs) {n k : Nat} {more : List Char}
    (read : fixedDigits? n cs = some (k, more)) : EndsInDigits more := by
  obtain ⟨ds, rest, digits, rfl⟩ := ends
  rw [fixedDigits?] at read
  split at read
  next all =>
    cases read
    have short : n ≤ ds.length := by
      rcases Nat.lt_or_ge ds.length n with long | short
      · have lineEnd : '\n' ∈ (ds ++ '\n' :: rest).take n := by
          rw [List.take_append]
          have more : n - ds.length = (n - ds.length - 1) + 1 := by omega
          rw [more]
          simp
        exact absurd (List.all_eq_true.mp all.2 _ lineEnd) (by decide)
      · exact short
    refine ⟨ds.drop n, rest, fun c mem => digits c (List.mem_of_mem_drop mem), ?_⟩
    exact List.drop_append_of_le_length short
  next => cases read

theorem EndsInDigits.expect? {cs : List Char} (ends : EndsInDigits cs) (noDigit : c.isDigit = false)
    (noEnd : c ≠ '\n') : expect? c cs = none := by
  obtain ⟨ds, rest, digits, rfl⟩ := ends
  cases ds with
  | nil => exact if_neg noEnd.symm
  | cons d ds =>
    refine if_neg ?_
    rintro rfl
    have digit := digits d List.mem_cons_self
    rw [noDigit] at digit
    cases digit

theorem EndsInDigits.moment? {cs : List Char} (ends : EndsInDigits cs) : moment? cs = none := by
  have date : date? cs = none := by
    rw [date?]
    cases read : fixedDigits? 4 cs with
    | none => rfl
    | some year =>
      have behind := ends.drop read
      have stop : Toml.expect? '-' year.2 = none := behind.expect? (by decide) (by decide)
      simp [stop]
  have time : time? cs = none := by
    rw [time?, twoDigits?]
    cases read : fixedDigits? 2 cs with
    | none => rfl
    | some hour =>
      have behind := ends.drop read
      have stop : Toml.expect? ':' hour.2 = none := behind.expect? (by decide) (by decide)
      simp [Option.filter, stop]
  rw [Toml.moment?, date, time]
  rfl

theorem moreDigits_append (digits : ∀ c ∈ ds, c.isDigit) (rest : List Char) :
    moreDigits Char.isDigit (ds ++ '\n' :: rest) = some (ds, '\n' :: rest) := by
  induction ds with
  | nil => rfl
  | cons c ds ih =>
    obtain ⟨first, others⟩ := List.forall_mem_cons.mp digits
    have noGroup : c ≠ '_' := by
      rintro rfl
      cases first
    rw [List.cons_append, moreDigits, if_pos first, ih others]
    · rfl
    · exact fun _ _ same => absurd same noGroup
    · exact fun same => absurd same noGroup

theorem wholeDigits_append (digits : ∀ d ∈ c :: ds, d.isDigit) (leading : c = '0' → ds = [])
    (rest : List Char) :
    wholeDigits (c :: ds ++ '\n' :: rest) = some (c :: ds, '\n' :: rest) := by
  by_cases zero : c = '0'
  · rw [zero, leading zero]
    rfl
  · obtain ⟨first, others⟩ := List.forall_mem_cons.mp digits
    rw [List.cons_append, wholeDigits, digitRow, if_pos first, moreDigits_append others]
    · rfl
    · exact fun _ same => zero (List.cons.inj same).1

theorem digitsValue_eq (digits : ∀ c ∈ ds, c.isDigit) :
    digitsValue 10 ds = Nat.ofDigitChars 10 ds 0 := by
  have folds (n : Nat) : ds.foldl (fun n c => n * 10 +
      (if c.isDigit then c.toNat - '0'.toNat else c.toLower.toNat - 'a'.toNat + 10)) n =
      Nat.ofDigitChars 10 ds n := by
    induction ds generalizing n with
    | nil => rfl
    | cons c ds ih =>
      obtain ⟨first, others⟩ := List.forall_mem_cons.mp digits
      rw [List.foldl_cons, ih others, Nat.ofDigitChars, Nat.ofDigitChars, List.foldl_cons,
        if_pos first, Nat.mul_comm]
  exact folds 0

theorem number?_digits (digits : ∀ d ∈ c :: ds, d.isDigit) (leading : c = '0' → ds = [])
    (rest : List Char) :
    number? (c :: ds ++ '\n' :: rest) =
      (boundedInteger? (digitsValue 10 (c :: ds))).map (·, '\n' :: rest) := by
  have first := digits c List.mem_cons_self
  have differ {d : Char} (noDigit : d.isDigit = false) : c ≠ d := by
    rintro rfl
    rw [noDigit] at first
    cases first
  have sign : splitSign (c :: ds ++ '\n' :: rest) = (false, c :: ds ++ '\n' :: rest) := by
    rw [splitSign]
    · exact fun _ same => differ (by decide) (List.cons.inj same).1
    · exact fun _ same => differ (by decide) (List.cons.inj same).1
  have special : special? (c :: ds ++ '\n' :: rest) = none := by
    rw [special?, sign]
    dsimp only
    split
    next same => exact absurd (List.cons.inj same).1 (differ (by decide))
    next same => exact absurd (List.cons.inj same).1 (differ (by decide))
    next => rfl
  have based : number? (c :: ds ++ '\n' :: rest) =
      (special? (c :: ds ++ '\n' :: rest)).or (decimal? (c :: ds ++ '\n' :: rest)) := by
    rw [number?]
    all_goals
      intro more same
      obtain ⟨zero, behind⟩ := List.cons.inj same
      rw [leading zero] at behind
      cases behind
  rw [based, special, decimal?, sign]
  have fraction : fraction? ('\n' :: rest) = some ([], '\n' :: rest) := rfl
  have exponent : exponent? ('\n' :: rest) = some (none, '\n' :: rest) := rfl
  simp only [wholeDigits_append digits leading, fraction, exponent, Option.none_or,
    Option.bind_eq_bind, Option.bind_some, and_self, if_true, Bool.false_eq_true, if_false]
  cases boundedInteger? (digitsValue 10 (c :: ds)) <;> rfl

theorem writes_nat {n : Nat} (fits : (n : Int) ≤ Int64.maxValue.toInt) :
    Writes (Nat.toDigits 10 n) (.integer n) := by
  have digits := isDigit_toDigits n
  have value : digitsValue 10 (Nat.toDigits 10 n) = n :=
    (digitsValue_eq digits).trans Nat.ofDigitChars_ten_toDigits
  have leading : (Nat.toDigits 10 n).head? = some '0' → Nat.toDigits 10 n = ['0'] := by
    intro zero
    rcases Nat.eq_zero_or_pos n with rfl | pos
    · rfl
    · exact absurd zero (head?_toDigits pos)
  obtain ⟨c, ds, same⟩ := List.exists_cons_of_ne_nil (@Nat.toDigits_ne_nil n 10)
  rw [same] at digits value leading ⊢
  have first := digits c List.mem_cons_self
  have begins : beginsLiteral c := by
    simp only [beginsLiteral, List.mem_cons, List.not_mem_nil, or_false, Bool.not_eq_true',
      decide_eq_false_iff_not]
    rintro (rfl | rfl | rfl | rfl | rfl | rfl) <;> cases first
  apply writes_literal begins
  intro rest
  have moment : moment? (c :: ds ++ '\n' :: rest) = none :=
    EndsInDigits.moment? ⟨c :: ds, rest, digits, rfl⟩
  have literal : literal? (c :: ds ++ '\n' :: rest) =
      (moment? (c :: ds ++ '\n' :: rest)).or (number? (c :: ds ++ '\n' :: rest)) := by
    rw [literal?]
    all_goals
      intro more same
      rw [(List.cons.inj same).1] at first
      cases first
  have lower : Int64.minValue.toInt ≤ (n : Int) := Int.le_trans (by decide) (Int.natCast_nonneg n)
  rw [literal, moment, Option.none_or, number?_digits digits, value, boundedInteger?,
    if_pos ⟨lower, fits⟩]
  · rfl
  · intro zero
    exact (List.cons.inj (leading (congrArg some zero))).2

end AgentBroker.Toml
