/-!
# Glyphs

A byte sequence read as UTF-8, one glyph at a time. A byte that begins no well-formed sequence is
kept as a glyph without a character, so a reader may skip over it without being able to read it.
-/

namespace AgentBroker

/-- A character of a byte sequence, or `none` where the bytes are not UTF-8. -/
abbrev Glyph := Option Char

namespace Glyph

/-- The glyphs from byte `i` on, behind the ones already seen (latest first). -/
def scanFrom (bytes : ByteArray) (i : Nat) (seen : List Glyph) : List Glyph :=
  if i < bytes.size then
    match bytes.utf8DecodeChar? i with
    | some c => scanFrom bytes (i + c.utf8Size) (some c :: seen)
    | none => scanFrom bytes (i + 1) (none :: seen)
  else seen.reverse
termination_by bytes.size - i
decreasing_by
  · have := c.utf8Size_pos; omega
  · omega

def scan (bytes : ByteArray) : List Glyph := scanFrom bytes 0 []

def isDigit : Glyph → Bool
  | some c => c.isDigit
  | none => false

end Glyph

end AgentBroker
