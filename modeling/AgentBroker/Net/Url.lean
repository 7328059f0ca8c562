import AgentBroker.Net.Ipv6
import AgentBroker.Text.Blank

/-!
# URLs

Scheme, host and port of an absolute URL, read as browsers read them. The schemes of the web are
special: their hosts are internet names or addresses. The host of any other scheme is taken as it
is, with all but ASCII percent-encoded.
-/

namespace AgentBroker

inductive UrlError where
  | relativeWithoutBase
  | emptyHost
  | invalidPort
  | invalidIpv4
  | invalidIpv6
  | invalidDomainCharacter
  | invalidInternationalName
  deriving DecidableEq, Repr

namespace UrlError

def message : UrlError → String
  | relativeWithoutBase => "relative URL without a base"
  | emptyHost => "empty host"
  | invalidPort => "invalid port number"
  | invalidIpv4 => "invalid IPv4 address"
  | invalidIpv6 => "invalid IPv6 address"
  | invalidDomainCharacter => "invalid domain character"
  | invalidInternationalName => "invalid international domain name"

end UrlError

structure Url where
  scheme : String
  /-- The host, if the URL names one. -/
  host : Option String
  /-- The port, unless it is the default of the scheme. -/
  port : Option UInt16
  deriving DecidableEq, Repr

namespace Url

inductive SchemeKind where
  | file
  /-- A scheme of the web, with its default port. -/
  | web (port : UInt16)
  | other
  deriving DecidableEq, Repr

def SchemeKind.ofScheme (s : String) : SchemeKind :=
  match s with
  | "file" => .file
  | "http" | "ws" => .web 80
  | "https" | "wss" => .web 443
  | "ftp" => .web 21
  | _ => .other

def SchemeKind.isSpecial : SchemeKind → Bool
  | .other => false
  | _ => true

def isControlOrSpace (c : Char) : Bool := c.toNat ≤ 32

/-- The text that counts: no control characters or blanks at the ends, and no tabs or line ends
anywhere. -/
def strip (cs : List Char) : List Char :=
  let cs := cs.dropWhile isControlOrSpace
  let cs := (cs.reverse.dropWhile isControlOrSpace).reverse
  cs.filter fun c => c != '\t' && c != '\n' && c != '\r'

def endsAuthority (kind : SchemeKind) (c : Char) : Bool :=
  c == '/' || c == '?' || c == '#' || (c == '\\' && kind.isSpecial)

def isForbiddenInHost (c : Char) : Bool :=
  c.toNat == 0 ||
    c ∈ ['\t', '\n', '\r', ' ', '#', '/', ':', '<', '>', '?', '@', '[', '\\', ']', '^', '|']

def hexDigit (n : Nat) : Char := (Nat.digitChar n).toUpper

/-- Percent-encodes control characters and all that is not ASCII. -/
def encodeControls (cs : List Char) : String :=
  String.ofList (cs.flatMap fun c =>
    if 32 ≤ c.toNat ∧ c.toNat < 127 then [c]
    else (String.singleton c).toUTF8.toList.flatMap fun b =>
      ['%', hexDigit (b.toNat / 16), hexDigit (b.toNat % 16)])

def decodePercent : List Char → List UInt8
  | '%' :: a :: b :: cs =>
    match digitInBase? 16 a, digitInBase? 16 b with
    | some x, some y => UInt8.ofNat (x * 16 + y) :: decodePercent cs
    | _, _ => 37 :: decodePercent (a :: b :: cs)
  | c :: cs => (String.singleton c).toUTF8.toList ++ decodePercent cs
  | [] => []
  termination_by cs => cs.length

def bracketed? (cs : List Char) : Except UrlError String :=
  match cs.getLast?, Ipv6.ofChars? cs.tail.dropLast with
  | some ']', some i => .ok ("[" ++ i.hexText ++ "]")
  | _, _ => .error .invalidIpv6

def opaqueHost (cs : List Char) : Except UrlError String :=
  if cs.head? = some '[' then bracketed? cs
  else if cs.any isForbiddenInHost then .error .invalidDomainCharacter
  else .ok (encodeControls cs)

/-- A part of a numeric host: decimal, octal behind `0`, hexadecimal behind `0x`. -/
def hostNumber? (cs : List Char) : Option Nat :=
  let (base, ds) :=
    match cs with
    | '0' :: 'x' :: ds | '0' :: 'X' :: ds => (16, ds)
    | '0' :: d :: ds => (8, d :: ds)
    | ds => (10, ds)
  if cs = [] then none else (ds.mapM (digitInBase? base)).map (ofDigits base)

def hostParts (name : String) : List (List Char) :=
  let parts := name.splitOn "."
  let parts := if 1 < parts.length ∧ parts.getLast? = some "" then parts.dropLast else parts
  parts.map (·.toList)

def endsInNumber (name : String) : Bool :=
  match (hostParts name).getLast? with
  | some part => (part ≠ [] && part.all (·.isDigit)) || (hostNumber? part).isSome
  | none => false

/-- The IPv4 address that a numeric host names: its last part fills all bytes that are left. -/
def numericHost (name : String) : Except UrlError String :=
  match (hostParts name).mapM hostNumber? with
  | none => .error .invalidIpv4
  | some ns =>
    let front := ns.dropLast
    let last := ns.getLastD 0
    if 4 < ns.length ∨ front.any (255 < ·) ∨ Nat.pow 256 (4 - front.length) ≤ last then
      .error .invalidIpv4
    else
      let n := front.zipIdx.foldl (fun n (x, k) => n + x * Nat.pow 256 (3 - k)) last
      let octet (k : Nat) : UInt8 := UInt8.ofNat (n / Nat.pow 256 k)
      .ok (Ipv4.text ⟨octet 3, octet 2, octet 1, octet 0⟩)

/-- Characters beyond ASCII that no internet name holds: blanks, controls, private and unassigned
ones. -/
def isForbiddenInName (c : Char) : Bool :=
  let n := c.toNat
  n < 32 || n == 127 || c == '%' || isForbiddenInHost c || isBlank c ||
    (0x80 ≤ n && n ≤ 0x9F) || n == 0x200E || n == 0x200F || (0x202A ≤ n && n ≤ 0x202E) ||
    (0xE000 ≤ n && n ≤ 0xF8FF) || (0xFFF9 ≤ n && n ≤ 0xFFFF) || 0xF0000 ≤ n

def foldWide (c : Char) : Char :=
  let n := c.toNat
  if 0xFF01 ≤ n ∧ n ≤ 0xFF5E then Char.ofNat (n - 0xFEE0) else if n = 0x3002 then '.' else c

def webHost (cs : List Char) : Except UrlError String :=
  if cs.head? = some '[' then bracketed? cs
  else
    match String.fromUTF8? (decodePercent cs).toByteArray with
    | none => .error .invalidInternationalName
    | some name =>
      let name := (name.map foldWide).map Char.toLower
      if name.toList.any isForbiddenInName then .error .invalidInternationalName
      else if name = "" then .error .emptyHost
      else if endsInNumber name then numericHost name
      else .ok name

/-- The user part of an authority, if an at sign ends one, and what stands behind it. -/
def splitUser (authority : List Char) : Option (List Char) × List Char :=
  if '@' ∈ authority then
    let behind := (authority.reverse.takeWhile (· != '@')).reverse
    (some (authority.take (authority.length - behind.length - 1)), behind)
  else (none, authority)

def splitHost (inBrackets : Bool) : List Char → List Char × List Char
  | [] => ([], [])
  | c :: cs =>
    if c = ':' ∧ !inBrackets then ([], c :: cs)
    else
      let (host, rest) := splitHost (c == '[' || (inBrackets && c != ']')) cs
      (c :: host, rest)

/-- The port behind a colon. A backslash ends it in any scheme. -/
def port? (kind : SchemeKind) (cs : List Char) : Except UrlError (Option UInt16) :=
  let (ds, rest) := takeDigits 10 cs
  let n := ofDigits 10 ds
  if UInt16.size ≤ n then .error .invalidPort
  else if rest ≠ [] ∧ rest.head? ≠ some '\\' then .error .invalidPort
  else if ds = [] ∨ kind = .web (UInt16.ofNat n) then .ok none
  else .ok (some (UInt16.ofNat n))

def readAuthority (scheme : String) (kind : SchemeKind) (cs : List Char) : Except UrlError Url := do
  let authority := cs.takeWhile (!endsAuthority kind ·)
  let (user, behind) := splitUser authority
  if user = some [] ∧ behind = [] ∧ authority.length < cs.length then .error .emptyHost
  let (name, rest) := splitHost false behind
  if name = [] ∧ kind.isSpecial then .error .emptyHost
  let host ← if kind.isSpecial then webHost name else opaqueHost name
  if host = "" ∧ rest ≠ [] then .error .emptyHost
  let port ← match rest with
    | ':' :: cs => port? kind cs
    | _ => .ok none
  if host = "" then
    if user.isNone ∨ user = some [] ∨ user = some [':'] then return ⟨scheme, none, port⟩
    else .error .emptyHost
  else return ⟨scheme, some host, port⟩

def isDriveLetter : List Char → Bool
  | [c, d] => c.isAlpha && (d == ':' || d == '|')
  | _ => false

def readFile (cs : List Char) : Except UrlError Url :=
  match cs with
  | a :: b :: rest =>
    if (a = '/' ∨ a = '\\') ∧ (b = '/' ∨ b = '\\') then
      let name := rest.takeWhile (!endsAuthority .file ·)
      if name = [] ∨ isDriveLetter name then .ok ⟨"file", none, none⟩
      else (webHost name).map fun host =>
        ⟨"file", if host = "localhost" then none else some host, none⟩
    else .ok ⟨"file", none, none⟩
  | _ => .ok ⟨"file", none, none⟩

def isSchemeChar (c : Char) : Bool := c.isAlphanum || c == '+' || c == '-' || c == '.'

def splitScheme? (cs : List Char) : Option (String × List Char) :=
  let name := cs.takeWhile isSchemeChar
  match (name.head?.map (·.isAlpha)), cs.drop name.length with
  | some true, ':' :: rest => some ((String.ofList name).map Char.toLower, rest)
  | _, _ => none

def parse (s : String) : Except UrlError Url :=
  match splitScheme? (strip s.toList) with
  | none => .error .relativeWithoutBase
  | some (scheme, rest) =>
    match SchemeKind.ofScheme scheme with
    | .file => readFile rest
    | .web port =>
      readAuthority scheme (.web port) (rest.dropWhile fun c => c == '/' || c == '\\')
    | .other =>
      match rest with
      | '/' :: '/' :: rest => readAuthority scheme .other rest
      | _ => .ok ⟨scheme, none, none⟩

end Url

end AgentBroker
