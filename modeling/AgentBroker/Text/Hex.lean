import AgentBroker.Frame
import AgentBroker.Text.Digit

/-!
# Hexadecimal text

A byte is written as two digits in lower case. Either case is read, and blanks between digits count
for nothing.
-/

namespace AgentBroker

def hexPairs? : List Char → Option Bytes
  | [] => some []
  | a :: b :: rest => do
    return UInt8.ofNat ((← digitInBase? 16 a) * 16 + (← digitInBase? 16 b)) :: (← hexPairs? rest)
  | _ => none

def hexBytes? (s : String) : Option Bytes := hexPairs? (s.toList.filter (· != ' '))

def hexDigits (b : UInt8) : List Char :=
  [Nat.digitChar (b.toNat / 16), Nat.digitChar (b.toNat % 16)]

def hexText (bytes : Bytes) : String := String.ofList (bytes.flatMap hexDigits)

end AgentBroker
