import AgentBroker.Handshake.Message
import AgentBroker.Wire.Class

/-!
# The wire form of handshake messages
-/

namespace AgentBroker

open Json

instance : Wire Introduction where
  toJson m := record [("public_key", toJson m.publicKey)]
  ofJson? j := do
    let [publicKey] ← j.record? ["public_key"] | none
    return ⟨← field? publicKey⟩

instance : Wire Challenge where
  toJson
    | .phrase s => variant "phrase" (toJson s)
    | .failure => Json.ofString "failure"
  ofJson? j := do
    match ← j.variant? with
    | ("phrase", some body) => (ofJson? body).map .phrase
    | ("failure", body) => if isBare body then some .failure else none
    | _ => none

instance : Wire Answer where
  toJson m := record [("answer", toJson m.answer)]
  ofJson? j := do
    let [answer] ← j.record? ["answer"] | none
    return ⟨← field? answer⟩

instance : Wire Verdict where
  toJson m := record [("status", toJson m.status)]
  ofJson? j := do
    let [status] ← j.record? ["status"] | none
    return ⟨← field? status⟩

end AgentBroker
