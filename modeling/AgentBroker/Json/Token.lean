import AgentBroker.Json.Number
import AgentBroker.Text.Glyph

/-!
# Tokens of JSON text

Text is cut into tokens without looking at how they nest. A string literal whose escapes or bytes
stand for no text is still a token: it may be skipped, but not read.
-/

namespace AgentBroker.Json

inductive Token where
  | openObject
  | closeObject
  | openArray
  | closeArray
  | comma
  | colon
  | null
  | bool (b : Bool)
  | number (n : Number)
  /-- A string literal, with its text if it stands for one. -/
  | string (text : Option String)
  deriving DecidableEq, Repr, Inhabited

namespace Token

def hexValue? (g : Glyph) : Option Nat :=
  match g with
  | none => none
  | some c =>
    if '0' ≤ c ∧ c ≤ '9' then some (c.toNat - '0'.toNat)
    else if 'a' ≤ c ∧ c ≤ 'f' then some (c.toNat - 'a'.toNat + 10)
    else if 'A' ≤ c ∧ c ≤ 'F' then some (c.toNat - 'A'.toNat + 10)
    else none

def isLeading (u : Nat) : Bool := 0xD800 ≤ u && u < 0xDC00
def isTrailing (u : Nat) : Bool := 0xDC00 ≤ u && u < 0xE000

def pairChar (u v : Nat) : Char := Char.ofNat (0x10000 + (u - 0xD800) * 0x400 + (v - 0xDC00))

def escaped? : Glyph → Option Char
  | some '"' => some '"'
  | some '\\' => some '\\'
  | some '/' => some '/'
  | some 'b' => some '\x08'
  | some 'f' => some '\x0c'
  | some 'n' => some '\n'
  | some 'r' => some '\r'
  | some 't' => some '\t'
  | _ => none

/-- Where the reading of a string literal stands: between characters, behind a backslash, or inside
the hexadecimal digits of an escape (how many are missing, and the value of the others). -/
inductive Place where
  | plain
  | escape
  | unit (missing value : Nat)
  deriving DecidableEq, Repr, Inhabited

/-- A string literal while it is read: its characters so far, latest first, unless they stand for no
text, and the leading surrogate that waits for its partner. -/
structure Partial where
  chars : Option (List Char)
  waiting : Option Nat
  place : Place
  deriving DecidableEq, Repr, Inhabited

namespace Partial

def start : Partial := ⟨some [], none, .plain⟩

def ruin (_ : Partial) : Partial := ⟨none, none, .plain⟩

/-- A character follows. A surrogate that waits stays alone. -/
def push (p : Partial) (c : Char) : Partial :=
  match p.waiting with
  | none => ⟨p.chars.map (c :: ·), none, .plain⟩
  | some _ => p.ruin

def pushUnit (p : Partial) (u : Nat) : Partial :=
  match p.waiting with
  | none =>
    if isLeading u then ⟨p.chars, some u, .plain⟩
    else if isTrailing u then p.ruin
    else p.push (Char.ofNat u)
  | some v => if isTrailing u then ⟨p.chars.map (pairChar v u :: ·), none, .plain⟩ else p.ruin

def text (p : Partial) : Option String :=
  match p.waiting with
  | none => p.chars.map fun cs => String.ofList cs.reverse
  | some _ => none

end Partial

def readString (p : Partial) : List Glyph → Option (Option String × List Glyph)
  | [] => none
  | g :: rest =>
    match p.place with
    | .plain =>
      match g with
      | none => readString p.ruin rest
      | some c =>
        if c = '"' then some (p.text, rest)
        else if c = '\\' then readString { p with place := .escape } rest
        else if c < ' ' then none
        else readString (p.push c) rest
    | .escape =>
      if g = some 'u' then readString { p with place := .unit 3 0 } rest
      else match escaped? g with
        | none => none
        | some c => readString (p.push c) rest
    | .unit missing value =>
      match hexValue? g, missing with
      | none, _ => none
      | some d, 0 => readString (p.pushUnit (value * 16 + d)) rest
      | some d, missing + 1 => readString { p with place := .unit missing (value * 16 + d) } rest

def takeDigits (ds : List Char) : List Glyph → List Char × List Glyph
  | some c :: rest => if c.isDigit then takeDigits (c :: ds) rest else (ds.reverse, some c :: rest)
  | rest => (ds.reverse, rest)

def readDigits (glyphs : List Glyph) : Option (List Char × List Glyph) :=
  let found := takeDigits [] glyphs
  if found.1 = [] then none else some found

/-- The digits before the point: no zero stands in front of other digits. -/
def readWhole (glyphs : List Glyph) : Option (List Char × List Glyph) :=
  (readDigits glyphs).filter fun (ds, _) => ds.head? != some '0' || ds.tail.isEmpty

def readFraction (glyphs : List Glyph) : Option (List Char × List Glyph) :=
  match glyphs with
  | some '.' :: rest => readDigits rest
  | _ => some ([], glyphs)

def takeSign (glyphs : List Glyph) : Bool × List Glyph :=
  match glyphs with
  | some '-' :: rest => (true, rest)
  | some '+' :: rest => (false, rest)
  | _ => (false, glyphs)

def readExponent (glyphs : List Glyph) : Option (Option (Bool × List Char) × List Glyph) :=
  match glyphs with
  | some 'e' :: rest | some 'E' :: rest =>
    (readDigits (takeSign rest).2).map fun (ds, rest') => (some ((takeSign rest).1, ds), rest')
  | _ => some (none, glyphs)

def takeMinus (glyphs : List Glyph) : Bool × List Glyph :=
  match glyphs with
  | some '-' :: rest => (true, rest)
  | _ => (false, glyphs)

def readNumber (glyphs : List Glyph) : Option (Number × List Glyph) := do
  let (whole, rest) ← readWhole (takeMinus glyphs).2
  let (fraction, rest) ← readFraction rest
  let (exponent, rest) ← readExponent rest
  return (⟨(takeMinus glyphs).1, whole, fraction, exponent⟩, rest)

def isBlank (c : Char) : Bool := c == ' ' || c == '\n' || c == '\t' || c == '\r'

/-- The first token, or `none` for blanks. Fails where no token begins. -/
def next? : List Glyph → Option (Option Token × List Glyph)
  | some '{' :: rest => some (some openObject, rest)
  | some '}' :: rest => some (some closeObject, rest)
  | some '[' :: rest => some (some openArray, rest)
  | some ']' :: rest => some (some closeArray, rest)
  | some ',' :: rest => some (some comma, rest)
  | some ':' :: rest => some (some colon, rest)
  | some '"' :: rest => (readString .start rest).map fun (text, rest) => (some (string text), rest)
  | some 'n' :: some 'u' :: some 'l' :: some 'l' :: rest => some (some null, rest)
  | some 't' :: some 'r' :: some 'u' :: some 'e' :: rest => some (some (bool true), rest)
  | some 'f' :: some 'a' :: some 'l' :: some 's' :: some 'e' :: rest =>
    some (some (bool false), rest)
  | some c :: rest =>
    if isBlank c then some (none, rest)
    else (readNumber (some c :: rest)).map fun (n, rest) => (some (number n), rest)
  | _ => none

theorem readString_length {p : Partial} {glyphs rest : List Glyph} {text : Option String}
    (h : readString p glyphs = some (text, rest)) : rest.length < glyphs.length := by
  fun_induction readString p glyphs <;> grind [List.length_cons]

theorem takeDigits_length (ds : List Char) (glyphs : List Glyph) :
    (takeDigits ds glyphs).1.length + (takeDigits ds glyphs).2.length =
      ds.length + glyphs.length := by
  fun_induction takeDigits ds glyphs <;> grind [List.length_cons, List.length_reverse]

theorem readDigits_length {glyphs rest : List Glyph} {ds : List Char}
    (h : readDigits glyphs = some (ds, rest)) : rest.length < glyphs.length := by
  have := takeDigits_length [] glyphs
  have : 0 < ds.length := by grind [readDigits, List.length_pos_iff]
  grind [readDigits]

theorem readWhole_length {glyphs rest : List Glyph} {ds : List Char}
    (h : readWhole glyphs = some (ds, rest)) : rest.length < glyphs.length :=
  readDigits_length (Option.filter_eq_some_iff.1 h).1

theorem readFraction_length {glyphs rest : List Glyph} {ds : List Char}
    (h : readFraction glyphs = some (ds, rest)) : rest.length ≤ glyphs.length := by
  unfold readFraction at h
  split at h
  · have := readDigits_length h
    grind
  · grind

theorem takeSign_length (glyphs : List Glyph) : (takeSign glyphs).2.length ≤ glyphs.length := by
  unfold takeSign
  split <;> simp

theorem readExponent_length {glyphs rest : List Glyph} {e : Option (Bool × List Char)}
    (h : readExponent glyphs = some (e, rest)) : rest.length ≤ glyphs.length := by
  unfold readExponent at h
  split at h
  · rename_i tail
    obtain ⟨⟨ds, rest'⟩, h, he⟩ := Option.map_eq_some_iff.1 h
    have := readDigits_length h
    have := takeSign_length tail
    grind
  · rename_i tail
    obtain ⟨⟨ds, rest'⟩, h, he⟩ := Option.map_eq_some_iff.1 h
    have := readDigits_length h
    have := takeSign_length tail
    grind
  · grind

theorem takeMinus_length (glyphs : List Glyph) : (takeMinus glyphs).2.length ≤ glyphs.length := by
  unfold takeMinus
  split <;> simp

theorem readNumber_length {glyphs rest : List Glyph} {n : Number}
    (h : readNumber glyphs = some (n, rest)) : rest.length < glyphs.length := by
  simp only [readNumber, Option.bind_eq_bind, Option.bind_eq_some_iff, Prod.exists] at h
  obtain ⟨ds, r₁, h₁, fs, r₂, h₂, e, r₃, h₃, h⟩ := h
  have := readWhole_length h₁
  have := readFraction_length h₂
  have := readExponent_length h₃
  have := takeMinus_length glyphs
  grind

theorem next?_length {glyphs rest : List Glyph} {token : Option Token}
    (h : next? glyphs = some (token, rest)) : rest.length < glyphs.length := by
  unfold next? at h
  split at h
  case h_7 tail =>
    obtain ⟨⟨text, rest'⟩, h', he⟩ := Option.map_eq_some_iff.1 h
    have := readString_length h'
    grind
  case h_11 c tail _ _ _ _ _ _ _ _ _ _ =>
    split at h
    · grind
    · obtain ⟨⟨n, rest'⟩, h', he⟩ := Option.map_eq_some_iff.1 h
      have := readNumber_length h'
      grind
  all_goals grind

def scanFrom (seen : List Token) (glyphs : List Glyph) : Option (List Token) :=
  match glyphs with
  | [] => some seen.reverse
  | g :: gs =>
    match _h : next? (g :: gs) with
    | none => none
    | some (token, rest) =>
      scanFrom (match token with | some t => t :: seen | none => seen) rest
termination_by glyphs.length
decreasing_by exact next?_length _h

def scan (glyphs : List Glyph) : Option (List Token) := scanFrom [] glyphs

end Token

end AgentBroker.Json
