import AgentBroker.Text.Digit

/-!
# Conversation identifiers

128-bit identifiers with their canonical text: 32 lower-case hexadecimal digits in groups of eight,
four, four, four and twelve. Other spellings of the same identifier are read as well: digits of
either case, all digits without hyphens, the canonical form in braces or behind `urn:uuid:`.
-/

namespace AgentBroker

abbrev Uuid := BitVec 128

namespace Uuid

def ofDigits? (cs : List Char) : Option Uuid :=
  if cs.length = 32 then
    (cs.mapM (digitInBase? 16)).map fun ds => BitVec.ofNat 128 (AgentBroker.ofDigits 16 ds)
  else none

def ofGroups? (cs : List Char) : Option Uuid :=
  if cs.length = 36 then
    let hyphens := [8, 13, 18, 23]
    if hyphens.all fun k => cs[k]? == some '-' then
      ofDigits? ((cs.zipIdx.filter fun (_, k) => !hyphens.contains k).map (·.1))
    else none
  else none

def urnScheme : List Char := "urn:uuid:".toList

def ofChars? (cs : List Char) : Option Uuid :=
  if cs.length = 32 then ofDigits? cs
  else if cs.length = 36 then ofGroups? cs
  else if cs.length = 38 then
    if cs.head? = some '{' ∧ cs.getLast? = some '}' then ofGroups? cs.tail.dropLast else none
  else if cs.length = 45 then
    if cs.take 9 = urnScheme then ofGroups? (cs.drop 9) else none
  else none

def parse? (s : String) : Option Uuid := ofChars? s.toList

def digits (u : Uuid) : List Char :=
  (List.range 32).map fun k => Nat.digitChar (u.toNat / Nat.pow 16 (31 - k) % 16)

def text (u : Uuid) : String :=
  let ds := u.digits
  String.ofList (ds.take 8 ++ '-' :: (ds.drop 8).take 4 ++ '-' :: (ds.drop 12).take 4 ++
    '-' :: (ds.drop 16).take 4 ++ '-' :: ds.drop 20)

def version (u : Uuid) : Nat := (u >>> 76).toNat % 16

/-- The random identifier (version 4) made from 128 random bits. -/
def ofRandom (bits : Nat) : Uuid :=
  let free := BitVec.ofNat 128 bits &&& ~~~(15#128 <<< 76) &&& ~~~(3#128 <<< 62)
  free ||| (4#128 <<< 76) ||| (2#128 <<< 62)

end Uuid

end AgentBroker
