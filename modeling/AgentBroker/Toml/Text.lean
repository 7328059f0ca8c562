/-!
# TOML strings

A string stands between single or double quotation marks, one or three of each. Between double ones
a backslash starts an escape; three of them let the text run over several lines.
-/

namespace AgentBroker.Toml

/-- A character that may stand for itself: a tab, or one that is no control character. -/
def isPlain (c : Char) : Bool := c = '\t' || (32 ≤ c.toNat && c.toNat ≠ 127)

def hexValue? (c : Char) : Option Nat :=
  if '0' ≤ c ∧ c ≤ '9' then some (c.toNat - '0'.toNat)
  else if 'a' ≤ c ∧ c ≤ 'f' then some (c.toNat - 'a'.toNat + 10)
  else if 'A' ≤ c ∧ c ≤ 'F' then some (c.toNat - 'A'.toNat + 10)
  else none

def coded? (ds : List Char) : Option Char := do
  let ns ← ds.mapM hexValue?
  let n := ns.foldl (fun n d => n * 16 + d) 0
  if n.isValidChar then some (Char.ofNat n) else none

def escaped? : Char → Option Char
  | 'b' => some '\x08'
  | 't' => some '\t'
  | 'n' => some '\n'
  | 'f' => some '\x0c'
  | 'r' => some '\r'
  | '"' => some '"'
  | '\\' => some '\\'
  | _ => none

def push? (c : Option Char) (more : Option (List Char × List Char)) :
    Option (List Char × List Char) := do
  let (text, rest) ← more
  return ((← c) :: text, rest)

def readBasic : List Char → Option (List Char × List Char)
  | [] => none
  | '"' :: rest => some ([], rest)
  | '\\' :: 'u' :: a :: b :: c :: d :: rest => push? (coded? [a, b, c, d]) (readBasic rest)
  | '\\' :: 'U' :: a :: b :: c :: d :: e :: f :: g :: h :: rest =>
    push? (coded? [a, b, c, d, e, f, g, h]) (readBasic rest)
  | '\\' :: c :: rest => push? (escaped? c) (readBasic rest)
  | c :: rest => if isPlain c then push? (some c) (readBasic rest) else none

def readLiteral : List Char → Option (List Char × List Char)
  | [] => none
  | '\'' :: rest => some ([], rest)
  | c :: rest => if isPlain c then push? (some c) (readLiteral rest) else none

def endsLine : List Char → Bool
  | ' ' :: cs | '\t' :: cs => endsLine cs
  | '\n' :: _ | '\r' :: '\n' :: _ => true
  | _ => false

/-- A text of several lines up to its three closing quotation marks, of which the last three of up
to five close it. A backslash at the end of a line leaves out all blanks and line ends behind it;
`skipping` says that it does so. -/
def readBasicLines (skipping : Bool) : List Char → Option (List Char × List Char)
  | [] => none
  | '"' :: '"' :: '"' :: '"' :: '"' :: rest => some (['"', '"'], rest)
  | '"' :: '"' :: '"' :: '"' :: rest => some (['"'], rest)
  | '"' :: '"' :: '"' :: rest => some ([], rest)
  | '\\' :: 'u' :: a :: b :: c :: d :: rest =>
    push? (coded? [a, b, c, d]) (readBasicLines false rest)
  | '\\' :: 'U' :: a :: b :: c :: d :: e :: f :: g :: h :: rest =>
    push? (coded? [a, b, c, d, e, f, g, h]) (readBasicLines false rest)
  | '\\' :: c :: rest =>
    if endsLine (c :: rest) then readBasicLines true (c :: rest)
    else push? (escaped? c) (readBasicLines false rest)
  | '\r' :: '\n' :: rest =>
    if skipping then readBasicLines true rest else push? (some '\n') (readBasicLines false rest)
  | c :: rest =>
    if skipping ∧ (c = ' ' ∨ c = '\t' ∨ c = '\n') then readBasicLines true rest
    else if isPlain c ∨ c = '\n' then push? (some c) (readBasicLines false rest)
    else none

def readLiteralLines : List Char → Option (List Char × List Char)
  | [] => none
  | '\'' :: '\'' :: '\'' :: '\'' :: '\'' :: rest => some (['\'', '\''], rest)
  | '\'' :: '\'' :: '\'' :: '\'' :: rest => some (['\''], rest)
  | '\'' :: '\'' :: '\'' :: rest => some ([], rest)
  | '\r' :: '\n' :: rest => push? (some '\n') (readLiteralLines rest)
  | c :: rest =>
    if isPlain c ∨ c = '\n' then push? (some c) (readLiteralLines rest) else none

/-- A line end right behind the opening marks does not count. -/
def skipLineEnd : List Char → List Char
  | '\n' :: cs | '\r' :: '\n' :: cs => cs
  | cs => cs

def readShort : List Char → Option (List Char × List Char)
  | '"' :: cs => readBasic cs
  | '\'' :: cs => readLiteral cs
  | _ => none

def readString : List Char → Option (List Char × List Char)
  | '"' :: '"' :: '"' :: cs => readBasicLines false (skipLineEnd cs)
  | '\'' :: '\'' :: '\'' :: cs => readLiteralLines (skipLineEnd cs)
  | cs => readShort cs

inductive Quoting where
  | basic
  | literal
  | basicLines
  | literalLines
  deriving DecidableEq, Repr

/-- The length of the longest run of a character, with `run` of them right before. -/
def longestRun (c : Char) (run : Nat) : List Char → Nat
  | [] => run
  | d :: ds => if d = c then longestRun c (run + 1) ds else max run (longestRun c 0 ds)

def needsEscape (c : Char) : Bool := !isPlain c && c ≠ '\n'

/-- The plainest way to quote a text: on one line and without escapes, if that can be. -/
def quotingOf (cs : List Char) : Quoting :=
  let codes := cs.any needsEscape
  let backslash := cs.contains '\\'
  let lines := cs.contains '\n'
  let singles := longestRun '\'' 0 cs
  let doubles := longestRun '"' 0 cs
  if !codes && !backslash && !lines && doubles = 0 then .basic
  else if !codes && !lines && singles = 0 then .literal
  else if !codes && !backslash && doubles ≤ 2 then .basicLines
  else if !codes && singles ≤ 2 then .literalLines
  else if lines then .basicLines
  else .basic

def codeEscape (c : Char) : List Char :=
  ['\\', 'u', '0', '0', (Nat.digitChar (c.toNat / 16)).toUpper,
    (Nat.digitChar (c.toNat % 16)).toUpper]

/-- A text between double marks. `spare` double marks in a row stand for themselves, and `run` of
them stand right before. -/
def escapeWith (lines : Bool) (spare run : Nat) : List Char → List Char
  | [] => []
  | '"' :: cs =>
    if run < spare then '"' :: escapeWith lines spare (run + 1) cs
    else '\\' :: '"' :: escapeWith lines spare 0 cs
  | '\x08' :: cs => '\\' :: 'b' :: escapeWith lines spare 0 cs
  | '\t' :: cs => '\\' :: 't' :: escapeWith lines spare 0 cs
  | '\n' :: cs =>
    if lines then '\n' :: escapeWith lines spare 0 cs
    else '\\' :: 'n' :: escapeWith lines spare 0 cs
  | '\x0c' :: cs => '\\' :: 'f' :: escapeWith lines spare 0 cs
  | '\r' :: cs => '\\' :: 'r' :: escapeWith lines spare 0 cs
  | '\\' :: cs => '\\' :: '\\' :: escapeWith lines spare 0 cs
  | c :: cs =>
    if isPlain c then c :: escapeWith lines spare 0 cs
    else codeEscape c ++ escapeWith lines spare 0 cs

/-- A quoted string. A text of several lines starts on a line of its own. -/
def quote (cs : List Char) : List Char :=
  let lead := if cs.contains '\n' then ['\n'] else []
  match quotingOf cs with
  | .basic => '"' :: escapeWith false 0 0 cs ++ ['"']
  | .literal => '\'' :: cs ++ ['\'']
  | .basicLines => ['"', '"', '"'] ++ lead ++ escapeWith true 2 0 cs ++ ['"', '"', '"']
  | .literalLines => ['\'', '\'', '\''] ++ lead ++ cs ++ ['\'', '\'', '\'']

end AgentBroker.Toml
