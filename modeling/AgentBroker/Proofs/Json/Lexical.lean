import AgentBroker.Json.Printer

/-!
# Written tokens

What the printer writes for a token is read back as this token, whatever stands behind it: behind a
number nothing may stand that would go on with it.
-/

namespace AgentBroker

theorem Glyph.scanFrom_encode (before : List UInt8) (cs : List Char) (seen : List Glyph) :
    Glyph.scanFrom (before ++ cs.flatMap String.utf8EncodeChar).toByteArray before.length seen =
      seen.reverse ++ cs.map some := by
  induction cs generalizing before seen with
  | nil =>
    rw [scanFrom, if_neg (by simp)]
    simp
  | cons c cs ih =>
    have bytes : before ++ (c :: cs).flatMap String.utf8EncodeChar =
        before ++ (String.utf8EncodeChar c ++ cs.flatMap String.utf8EncodeChar) := by
      rw [List.flatMap_cons]
    have size : (before ++ String.utf8EncodeChar c).length = before.length + c.utf8Size := by
      rw [List.length_append, String.length_utf8EncodeChar]
    have more : before.length <
        (before ++ (c :: cs).flatMap String.utf8EncodeChar).toByteArray.size := by
      have := c.utf8Size_pos
      rw [bytes, List.size_toByteArray, List.length_append, List.length_append,
        String.length_utf8EncodeChar]
      omega
    have first : (before ++ (c :: cs).flatMap String.utf8EncodeChar).toByteArray.utf8DecodeChar?
        before.length = some c := by
      rw [ByteArray.utf8DecodeChar?_eq_utf8DecodeChar?_extract, bytes, List.toByteArray_append,
        ByteArray.extract_append_eq_right List.size_toByteArray.symm
          (by rw [ByteArray.size_append]),
        List.toByteArray_append, ByteArray.utf8DecodeChar?_utf8EncodeChar_append]
    rw [scanFrom, if_pos more, first]
    dsimp only
    rw [bytes, ← List.append_assoc, ← size, ih, List.reverse_cons, List.append_assoc]
    rfl

theorem Glyph.scan_encode (cs : List Char) :
    Glyph.scan (cs.flatMap String.utf8EncodeChar).toByteArray = cs.map some :=
  Glyph.scanFrom_encode [] cs []

namespace Json

theorem hexValue?_hexDigit {n : Nat} (h : n < 16) :
    Token.hexValue? (some (hexDigit n)) = some n := by
  have all : ∀ n < 16, Token.hexValue? (some (hexDigit n)) = some n := by decide
  exact all n h

/-- A string literal of which these characters have been read. -/
def Token.Partial.read (seen : List Char) : Token.Partial := ⟨some seen, none, .plain⟩

open Token in
theorem readString_control {c : Char} (h : c < ' ') (seen : List Char) (rest : List Glyph) :
    readString (.read seen)
        (some '\\' :: some 'u' :: some '0' :: some '0' :: some (hexDigit (c.toNat / 16)) ::
          some (hexDigit (c.toNat % 16)) :: rest) =
      readString (.read (c :: seen)) rest := by
  have small : c.toNat < 32 := h
  have high : hexValue? (some (hexDigit (c.toNat / 16))) = some (c.toNat / 16) :=
    hexValue?_hexDigit (by omega)
  have low : hexValue? (some (hexDigit (c.toNat % 16))) = some (c.toNat % 16) :=
    hexValue?_hexDigit (by omega)
  have zero : hexValue? (some '0') = some 0 := rfl
  have value : ((0 * 16 + 0) * 16 + c.toNat / 16) * 16 + c.toNat % 16 = c.toNat := by omega
  have unit : (Partial.mk (some seen) none (.unit 0 ((0 * 16 + 0) * 16 + c.toNat / 16))).pushUnit
      (((0 * 16 + 0) * 16 + c.toNat / 16) * 16 + c.toNat % 16) = .read (c :: seen) := by
    have leading : isLeading c.toNat = false := by simp [isLeading]; omega
    have trailing : isTrailing c.toNat = false := by simp [isTrailing]; omega
    rw [value, Partial.pushUnit]
    simp [leading, trailing, Partial.push, Partial.read]
  rw [← unit]
  simp [readString, Partial.read, zero, high, low]

open Token in
theorem readString_escape (c : Char) (seen : List Char) (rest : List Glyph) :
    readString (.read seen) ((escape c).map some ++ rest) =
      readString (.read (c :: seen)) rest := by
  unfold escape
  split
  next same => subst same; rfl
  split
  next same => subst same; rfl
  split
  next same => subst same; rfl
  split
  next same => subst same; rfl
  split
  next same => subst same; rfl
  split
  next same => subst same; rfl
  split
  next same => subst same; rfl
  split
  next control => exact readString_control control seen rest
  next quote backslash _ _ _ _ _ plain =>
    simp only [List.map_cons, List.map_nil, List.cons_append, List.nil_append]
    rw [readString]
    simp [Partial.read, quote, backslash, plain, Partial.push]

open Token in
theorem readString_escapes (cs seen : List Char) (rest : List Glyph) :
    readString (.read seen) ((cs.flatMap escape).map some ++ some '"' :: rest) =
      some (some (String.ofList (seen.reverse ++ cs)), rest) := by
  induction cs generalizing seen with
  | nil => simp [readString, Partial.read, Partial.text]
  | cons c cs ih =>
    rw [List.flatMap_cons, List.map_append, List.append_assoc, readString_escape, ih,
      List.reverse_cons, List.append_assoc]
    rfl

theorem readString_quote (s : String) (rest : List Glyph) :
    Token.readString .start ((s.toList.flatMap escape).map some ++ some '"' :: rest) =
      some (some s, rest) := by
  have read := readString_escapes s.toList [] rest
  rwa [List.reverse_nil, List.nil_append, String.ofList_toList] at read

/-- A literal as it may stand in a text. -/
structure Number.WellFormed (n : Number) : Prop where
  whole : ∀ c ∈ n.whole, c.isDigit
  whole_ne_nil : n.whole ≠ []
  /-- No zero stands in front of other digits. -/
  leading : n.whole.head? = some '0' → n.whole.tail = []
  fraction : ∀ c ∈ n.fraction, c.isDigit
  exponent : ∀ negative ds, n.exponent = some (negative, ds) → ds ≠ [] ∧ ∀ c ∈ ds, c.isDigit

def continues (c : Char) : Bool := c.isDigit || c == '.' || c == 'e' || c == 'E'

/-- What stands here ends a number before it. -/
def Ends : List Glyph → Prop
  | some c :: _ => continues c = false
  | _ => True

def NoDigit : List Glyph → Prop
  | some c :: _ => c.isDigit = false
  | _ => True

theorem Ends.noDigit {rest : List Glyph} (h : Ends rest) : NoDigit rest := by
  match rest with
  | [] | none :: _ => trivial
  | some c :: _ =>
    rw [Ends, continues] at h
    simp only [Bool.or_eq_false_iff] at h
    exact h.1.1.1

namespace Token

theorem takeDigits_append {ds : List Char} (digits : ∀ c ∈ ds, c.isDigit) {rest : List Glyph}
    (stop : NoDigit rest) (seen : List Char) :
    takeDigits seen (ds.map some ++ rest) = (seen.reverse ++ ds, rest) := by
  induction ds generalizing seen with
  | nil =>
    rw [List.map_nil, List.nil_append, List.append_nil]
    match rest with
    | [] | none :: _ => rfl
    | some c :: _ =>
      rw [NoDigit] at stop
      rw [takeDigits, stop]
      rfl
  | cons c ds ih =>
    obtain ⟨first, others⟩ := List.forall_mem_cons.mp digits
    rw [List.map_cons, List.cons_append, takeDigits, if_pos first, ih others, List.reverse_cons,
      List.append_assoc]
    rfl

theorem readDigits_append {ds : List Char} (digits : ∀ c ∈ ds, c.isDigit) (some : ds ≠ [])
    {rest : List Glyph} (stop : NoDigit rest) :
    readDigits (ds.map Option.some ++ rest) = .some (ds, rest) := by
  rw [readDigits, takeDigits_append digits stop]
  exact if_neg some

def exponentText : Option (Bool × List Char) → List Char
  | none => []
  | some (negative, ds) => 'e' :: (if negative then '-' else '+') :: ds

theorem readExponent_append {e : Option (Bool × List Char)}
    (digits : ∀ negative ds, e = some (negative, ds) → ds ≠ [] ∧ ∀ c ∈ ds, c.isDigit)
    {rest : List Glyph} (ends : Ends rest) :
    readExponent ((exponentText e).map some ++ rest) = some (e, rest) := by
  match e with
  | none =>
    match rest with
    | [] | none :: _ => rfl
    | some c :: tail =>
      rw [exponentText, List.map_nil, List.nil_append, readExponent]
      · intro tail same
        cases same
        cases ends
      · intro tail same
        cases same
        cases ends
  | some (negative, ds) =>
    obtain ⟨nonempty, digits⟩ := digits negative ds rfl
    have sign : takeSign (some (if negative then '-' else '+') :: (ds.map some ++ rest)) =
        (negative, ds.map some ++ rest) := by
      cases negative <;> rfl
    rw [exponentText, List.map_cons, List.map_cons, List.cons_append, List.cons_append,
      readExponent, sign, readDigits_append digits nonempty ends.noDigit]
    rfl

def fractionText (ds : List Char) : List Char := if ds = [] then [] else '.' :: ds

theorem readFraction_append {ds : List Char} (digits : ∀ c ∈ ds, c.isDigit) {rest : List Glyph}
    (stop : NoDigit rest) (point : ∀ tail, rest ≠ some '.' :: tail) :
    readFraction ((fractionText ds).map some ++ rest) = some (ds, rest) := by
  rw [fractionText]
  split
  next none =>
    rw [none, List.map_nil, List.nil_append, readFraction]
    exact point
  next nonempty =>
    rw [List.map_cons, List.cons_append, readFraction, readDigits_append digits nonempty stop]

theorem readWhole_append {ds : List Char} (digits : ∀ c ∈ ds, c.isDigit) (some : ds ≠ [])
    (leading : ds.head? = Option.some '0' → ds.tail = []) {rest : List Glyph}
    (stop : NoDigit rest) :
    readWhole (ds.map Option.some ++ rest) = .some (ds, rest) := by
  have allowed : (ds.head? != Option.some '0' || ds.tail.isEmpty) = true := by
    by_cases zero : ds.head? = Option.some '0'
    · rw [leading zero]
      simp
    · simp [zero]
  rw [readWhole, readDigits_append digits some stop, Option.filter_some, if_pos allowed]

theorem noDigit_exponentText (e : Option (Bool × List Char)) {rest : List Glyph}
    (ends : Ends rest) :
    NoDigit ((exponentText e).map some ++ rest) := by
  match e with
  | none => exact ends.noDigit
  | some (_, _) => rfl

theorem readNumber_text {n : Number} (h : n.WellFormed) {rest : List Glyph} (ends : Ends rest) :
    readNumber (n.text.map some ++ rest) = some (n, rest) := by
  obtain ⟨c, ds, whole⟩ := List.exists_cons_of_ne_nil h.whole_ne_nil
  have digit : c.isDigit := h.whole c (by rw [whole]; exact List.mem_cons_self)
  have tail := noDigit_exponentText n.exponent ends
  have point : ∀ tail, (exponentText n.exponent).map some ++ rest ≠ some '.' :: tail := by
    intro tail same
    match e : n.exponent with
    | none =>
      rw [e] at same
      rw [show rest = _ from same] at ends
      cases ends
    | some (_, _) =>
      rw [e] at same
      cases same
  have stop : NoDigit ((fractionText n.fraction).map some ++
      ((exponentText n.exponent).map some ++ rest)) := by
    rw [fractionText]
    split
    · exact tail
    · rfl
  have text : n.text.map some ++ rest = (if n.negative then ['-'] else []).map some ++
      (n.whole.map some ++ ((fractionText n.fraction).map some ++
        ((exponentText n.exponent).map some ++ rest))) := by
    rw [Number.text, fractionText]
    cases n.exponent <;> simp [exponentText]
  have minus : takeMinus (n.text.map some ++ rest) = (n.negative, n.whole.map some ++
      ((fractionText n.fraction).map some ++ ((exponentText n.exponent).map some ++ rest))) := by
    rw [text]
    cases n.negative with
    | true => rfl
    | false =>
      rw [whole]
      change takeMinus (some c :: _) = _
      rw [takeMinus]
      · rfl
      · rintro tail same
        cases same
        cases digit
  rw [readNumber, minus]
  simp only [Option.bind_eq_bind, readWhole_append h.whole h.whole_ne_nil h.leading stop,
    readFraction_append h.fraction tail point, readExponent_append h.exponent ends,
    Option.bind_some]
  rfl

theorem text_head {n : Number} (h : n.WellFormed) :
    ∃ c rest, n.text = c :: rest ∧ (c.isDigit ∨ c = '-') := by
  obtain ⟨c, ds, whole⟩ := List.exists_cons_of_ne_nil h.whole_ne_nil
  rw [Number.text, whole]
  cases n.negative with
  | true => exact ⟨'-', _, rfl, .inr rfl⟩
  | false => exact ⟨c, _, rfl, .inl (h.whole c (by rw [whole]; exact List.mem_cons_self))⟩

def WellFormed : Token → Prop
  | number n => n.WellFormed
  | string s => s.isSome
  | _ => True

def isNumber : Token → Bool
  | number _ => true
  | _ => false

theorem next?_number {c : Char} (begins : c.isDigit ∨ c = '-') (rest : List Glyph) :
    next? (some c :: rest) =
      (readNumber (some c :: rest)).map fun (n, rest) => (some (number n), rest) := by
  have blank : isBlank c = false := by
    rcases begins with digit | rfl
    · refine Bool.eq_false_iff.mpr fun blank => ?_
      simp only [isBlank, Bool.or_eq_true, beq_iff_eq] at blank
      rcases blank with ((rfl | rfl) | rfl) | rfl <;> cases digit
    · rfl
  unfold next?
  split
  case h_11 =>
    rename_i same
    cases same
    rw [blank]
    rfl
  case h_12 =>
    rename_i other
    exact (other c rest rfl).elim
  all_goals
    rename_i same
    cases same
    rcases begins with digit | minus
    · cases digit
    · cases minus

theorem next?_text {t : Token} (h : t.WellFormed) {rest : List Glyph}
    (ends : t.isNumber → Ends rest) : next? (t.text.map some ++ rest) = some (some t, rest) := by
  match t with
  | openObject | closeObject | openArray | closeArray | comma | colon | null | bool true
  | bool false => rfl
  | string (some s) =>
    have read := readString_quote s rest
    simp only [text, Option.getD_some, quote, List.map_cons, List.map_append, List.map_nil,
      List.cons_append, List.append_assoc, List.nil_append, next?, read, Option.map_some]
  | number n =>
    have read := readNumber_text h (ends rfl)
    obtain ⟨c, tail, first, begins⟩ := text_head h
    rw [text, first, List.map_cons, List.cons_append, next?_number begins]
    rw [first, List.map_cons, List.cons_append] at read
    rw [read]
    rfl

end Token

end Json

end AgentBroker
