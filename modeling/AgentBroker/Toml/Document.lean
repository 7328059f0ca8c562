import AgentBroker.Toml.Literal
import AgentBroker.Toml.Text

/-!
# TOML documents

A document is read line by line: comments, headers that open a table, and members of the table that
was opened last. Arrays may run over several lines, tables in braces may not. Values nest at most
`maxDepth` deep.
-/

namespace AgentBroker.Toml

def maxDepth : Nat := 79

def skipSpaces : List Char → List Char
  | ' ' :: cs | '\t' :: cs => skipSpaces cs
  | cs => cs

def lineEnd? : List Char → Option (List Char)
  | [] => some []
  | '\n' :: cs | '\r' :: '\n' :: cs => some cs
  | _ => none

/-- What follows a line that holds nothing more but blanks and a comment. -/
def restOfLine? (cs : List Char) : Option (List Char) :=
  match skipSpaces cs with
  | '#' :: cs => lineEnd? (cs.dropWhile isPlain)
  | cs => lineEnd? cs

def skipLines (inComment : Bool) : List Char → Option (List Char)
  | [] => some []
  | '\n' :: cs | '\r' :: '\n' :: cs => skipLines false cs
  | c :: cs =>
    if inComment then (if isPlain c then skipLines true cs else none)
    else if c = ' ' ∨ c = '\t' then skipLines false cs
    else if c = '#' then skipLines true cs
    else some (c :: cs)

def isKeyChar (c : Char) : Bool := c.isAlphanum || c == '_' || c == '-'

def simpleKey? (cs : List Char) : Option (String × List Char) :=
  match readShort cs with
  | some (name, rest) => some (String.ofList name, rest)
  | none =>
    let name := cs.takeWhile isKeyChar
    if name = [] then none else some (String.ofList name, cs.drop name.length)

def keyPath? : Nat → List Char → Option (List String × List Char)
  | 0, _ => none
  | n + 1, cs => do
    let (k, cs) ← simpleKey? (skipSpaces cs)
    match skipSpaces cs with
    | '.' :: cs => (keyPath? n cs).map fun (ks, rest) => (k :: ks, rest)
    | cs => some ([k], cs)

def maxKeys : Nat := maxDepth

abbrev ValueReader := List Char → Option (Toml × List Char)

def items? (value? : ValueReader) : Nat → List Char → Option (List Toml × List Char)
  | 0, _ => none
  | n + 1, cs => do
    match ← skipLines false cs with
    | ']' :: rest => return ([], rest)
    | cs =>
      let (v, cs) ← value? cs
      match ← skipLines false cs with
      | ',' :: cs => (items? value? n cs).map fun (vs, rest) => (v :: vs, rest)
      | ']' :: rest => return ([v], rest)
      | _ => none

/-- A member: the keys in front of the last one, the last key, and the value. -/
def member? (value? : ValueReader) (cs : List Char) :
    Option ((List String × String × Toml) × List Char) := do
  let (path, cs) ← keyPath? maxKeys cs
  match cs with
  | '=' :: cs =>
    let (v, rest) ← value? (skipSpaces cs)
    return ((path.dropLast, path.getLastD "", v), rest)
  | _ => none

def members? (value? : ValueReader) : Nat → Members → List Char → Option (Members × List Char)
  | 0, _, _ => none
  | n + 1, ms, cs => do
    let ((path, key, v), cs) ← member? value? cs
    let ms ← insert path key v .inline ms
    match skipSpaces cs with
    | ',' :: cs => members? value? n ms cs
    | '}' :: rest => return (ms, rest)
    | _ => none

def scalar? : ValueReader
  | '"' :: cs => (readString ('"' :: cs)).map fun (s, rest) => (.string (String.ofList s), rest)
  | '\'' :: cs => (readString ('\'' :: cs)).map fun (s, rest) => (.string (String.ofList s), rest)
  | cs => literal? cs

def value? : Nat → ValueReader
  | 0, cs => scalar? cs
  | depth + 1, cs =>
    match cs with
    | '[' :: cs =>
      (items? (value? depth) (cs.length + 1) cs).map fun (vs, rest) => (.array vs, rest)
    | '{' :: cs =>
      match skipSpaces cs with
      | '}' :: rest => some (.table .inline [], rest)
      | cs =>
        (members? (value? depth) (cs.length + 1) [] cs).map fun (ms, rest) =>
          (.table .inline ms, rest)
    | cs => scalar? cs

/-- The document so far, and the path of the table that was opened last. -/
structure Reading where
  root : Members
  path : List String

namespace Reading

def start : Reading := ⟨[], []⟩

def openAt (r : Reading) (path : List String) (opens : String → Members → Option Members) :
    Option Reading :=
  (enter false path.dropLast (fun _ ms => opens (path.getLastD "") ms) .header r.root).map
    fun root => ⟨root, path⟩

def add (r : Reading) (path : List String) (key : String) (v : Toml) : Option Reading :=
  (enter false r.path (insert path key v) .header r.root).map fun root => { r with root }

def line? (r : Reading) (cs : List Char) : Option (Reading × List Char) :=
  match cs with
  | '[' :: '[' :: cs => do
    let (path, cs) ← keyPath? maxKeys cs
    match cs with
    | ']' :: ']' :: cs => return (← r.openAt path openNextTable, ← restOfLine? cs)
    | _ => none
  | '[' :: cs => do
    let (path, cs) ← keyPath? maxKeys cs
    match cs with
    | ']' :: cs => return (← r.openAt path openTable, ← restOfLine? cs)
    | _ => none
  | cs => do
    let ((path, key, v), cs) ← member? (value? maxDepth) cs
    return (← r.add path key v, ← restOfLine? cs)

/-- All lines. Each takes at least one character, so `n` above their number is enough. -/
def lines? : Nat → Reading → List Char → Option Reading
  | 0, _, _ => none
  | n + 1, r, cs =>
    match skipSpaces cs with
    | [] => some r
    | '\n' :: cs | '\r' :: '\n' :: cs => lines? n r cs
    | '#' :: cs => (restOfLine? ('#' :: cs)).bind fun cs => lines? n r cs
    | cs => (r.line? cs).bind fun (r, cs) => lines? n r cs

end Reading

/-- The members of a document. A byte order mark may stand in front. -/
def ofChars? (cs : List Char) : Option Members :=
  let cs :=
    match cs with
    | c :: rest => if c.toNat = 0xFEFF then rest else c :: rest
    | [] => []
  (Reading.lines? (cs.length + 1) .start cs).map (·.root)

def parse? (s : String) : Option Toml := (ofChars? s.toList).map (.table .header)

end AgentBroker.Toml
