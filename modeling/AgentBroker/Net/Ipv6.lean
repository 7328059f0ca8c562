import AgentBroker.Net.Ipv4

/-!
# IPv6 addresses

Eight groups of sixteen bits in hexadecimal, with colons between them. One run of zero groups may
be left out, and the last two groups may be written as an IPv4 address.
-/

namespace AgentBroker

structure Ipv6 where
  groups : Vector UInt16 8
  deriving DecidableEq, Repr

namespace Ipv6

def group? (cs : List Char) : Option (UInt16 × List Char) :=
  let (ds, rest) := takeDigits 16 cs
  if ds.length = 0 ∨ 4 < ds.length then none else some (UInt16.ofNat (ofDigits 16 ds), rest)

def ofIpv4 (i : Ipv4) : List UInt16 :=
  [UInt16.ofNat (i.a.toNat * 256 + i.b.toNat), UInt16.ofNat (i.c.toNat * 256 + i.d.toNat)]

def afterColon? (first : Bool) (cs : List Char) : Option (List Char) :=
  if first then some cs
  else
    match cs with
    | ':' :: rest => some rest
    | _ => none

/-- A row of at most so many groups, whether it ends in an IPv4 address, and what follows it. -/
def readGroups (first : Bool) : Nat → List Char → List UInt16 × Bool × List Char
  | 0, cs => ([], false, cs)
  | limit + 1, cs =>
    match afterColon? first cs with
    | none => ([], false, cs)
    | some body =>
      match if 1 ≤ limit then Ipv4.read? body else none with
      | some (i, rest) => (ofIpv4 i, true, rest)
      | none =>
        match group? body with
        | none => ([], false, cs)
        | some (g, rest) =>
          let (gs, ending, rest) := readGroups false limit rest
          (g :: gs, ending, rest)

def ofEnds (front back : List UInt16) : Ipv6 :=
  ⟨Vector.ofFn fun k =>
    if k < front.length then front.getD k 0
    else if 8 ≤ k + back.length then back.getD (k + back.length - 8) 0
    else 0⟩

/-- The address at the start of a text, and what follows it. Two colons stand for at least one
group, and no IPv4 address stands before them. -/
def read? (cs : List Char) : Option (Ipv6 × List Char) :=
  match readGroups true 8 cs with
  | (front, ending, rest) =>
    if front.length = 8 then some (ofEnds front [], rest)
    else if ending then none
    else
      match rest with
      | ':' :: ':' :: rest =>
        let (back, _, rest) := readGroups true (7 - front.length) rest
        some (ofEnds front back, rest)
      | _ => none

def ofChars? (cs : List Char) : Option Ipv6 :=
  match read? cs with
  | some (i, []) => some i
  | _ => none

def leadingZeros (gs : List UInt16) : Nat := (gs.takeWhile (· == 0)).length

/-- Where the longest run of zero groups starts, the first of equal ones, and its length. -/
def longestZeros (gs : List UInt16) : Nat × Nat :=
  (List.range gs.length).foldl
    (fun best k => let n := leadingZeros (gs.drop k); if best.2 < n then (k, n) else best) (0, 0)

def groupsText (gs : List UInt16) : String :=
  ":".intercalate (gs.map fun g => String.ofList (Nat.toDigits 16 g.toNat))

/-- The groups in hexadecimal, without the longest run of two or more zeros. -/
def hexText (i : Ipv6) : String :=
  let gs := i.groups.toList
  let (start, length) := longestZeros gs
  if length < 2 then groupsText gs
  else groupsText (gs.take start) ++ "::" ++ groupsText (gs.drop (start + length))

/-- The IPv4 address that stands in the last two groups behind `::ffff:`. -/
def mapped? (i : Ipv6) : Option Ipv4 :=
  match i.groups.toList with
  | [0, 0, 0, 0, 0, 0xFFFF, x, y] =>
    some ⟨UInt8.ofNat (x.toNat / 256), UInt8.ofNat x.toNat, UInt8.ofNat (y.toNat / 256),
      UInt8.ofNat y.toNat⟩
  | _ => none

def text (i : Ipv6) : String :=
  match i.mapped? with
  | some v4 => "::ffff:" ++ v4.text
  | none => i.hexText

end Ipv6

end AgentBroker
