import AgentBroker.Config.Problem
import AgentBroker.Wire.Message
import Mathlib

/-!
# Sizes of messages

How many bytes the wire form of a message has. A message that the broker passes on is a little
shorter than the envelope that it came in, but it names its origin instead of its destination.
-/

namespace AgentBroker

namespace Json

def size (v : Json) : Nat := v.encode.length

def Token.size (t : Token) : Nat := (t.text.flatMap String.utf8EncodeChar).length

theorem size_eq (v : Json) : v.size = (v.tokens.map Token.size).sum := by
  rw [size, encode, text, List.flatMap_assoc, List.length_flatMap]
  rfl

theorem size_ofString (s : String) : (ofString s).size = Token.size (.string (some s)) := by
  rw [size_eq, ofString, tokens, List.map_singleton, List.sum_singleton]

/-- What a member adds to an object: its key, its value, a colon, and what stands behind it. -/
def memberSize (m : String × Json) : Nat := (ofString m.1).size + m.2.size + 2

theorem size_memberTokens (ms : List (String × Json)) :
    ((memberTokens (ms.map fun (k, v) => (some k, v))).map Token.size).sum =
      (ms.map memberSize).sum + 1 := by
  induction ms with
  | nil => rfl
  | cons m ms ih =>
    have comma : Token.comma.size = 1 := rfl
    have colon : Token.colon.size = 1 := rfl
    simp only [List.map_cons, memberTokens, List.map_append, List.sum_cons, List.sum_append_nat, ih,
      comma, colon, memberSize, size_ofString, size_eq m.2]
    omega

theorem size_record (m : String × Json) (ms : List (String × Json)) :
    (record (m :: ms)).size = ((m :: ms).map memberSize).sum + 1 := by
  have brace : Token.openObject.size = 1 := rfl
  have colon : Token.colon.size = 1 := rfl
  rw [size_eq, record]
  simp only [List.map_cons, tokens, List.map_append, List.sum_cons, List.sum_append_nat,
    size_memberTokens, brace, colon, memberSize, size_ofString, size_eq m.2]
  omega

theorem size_variant (name : String) (body : Json) :
    (variant name body).size = memberSize (name, body) + 1 := size_record (name, body) []

end Json

namespace Wire

open Json

variable {α : Type} [Wire α]

def size (a : α) : Nat := (toJson a).size

theorem length_encode (a : α) : (encode a).length = size a := rfl

theorem size_delivery (origin conversationId : String) (body : Body) :
    size (Notice.delivery origin conversationId body) =
      size origin + size conversationId + size body + 76 := by
  change (record [("answer_id", toJson (0 : UInt32)), ("payload", variant "content"
    (record [("origin", toJson origin), ("conversation_id", toJson conversationId),
      ("body", toJson body)]))]).size = (toJson origin).size + _ + _ + _
  simp only [size_record, size_variant, memberSize, List.map_cons, List.map_nil, List.sum_cons,
    List.sum_nil]
  have names : (ofString "answer_id").size = 11 ∧ (ofString "payload").size = 9 ∧
      (ofString "content").size = 9 ∧ (ofString "origin").size = 8 ∧
      (ofString "conversation_id").size = 17 ∧ (ofString "body").size = 6 := by decide
  have unanswered : (toJson (0 : UInt32)).size = 1 := by decide
  simp only [names, unanswered, size]
  omega

theorem size_letter (msgId : UInt32) (letter : Letter) :
    size (Envelope.mk msgId (some (.sendMessage letter))) =
      size msgId + size letter.destination + size letter.conversationId + size letter.body +
        82 := by
  change (record [("msg_id", toJson msgId), ("payload", variant "send_message"
    (record [("conversation_id", toJson letter.conversationId),
      ("destination", toJson letter.destination), ("body", toJson letter.body)]))]).size = _
  simp only [size_record, size_variant, memberSize, List.map_cons, List.map_nil, List.sum_cons,
    List.sum_nil]
  have names : (ofString "msg_id").size = 8 ∧ (ofString "payload").size = 9 ∧
      (ofString "send_message").size = 14 ∧ (ofString "destination").size = 13 ∧
      (ofString "conversation_id").size = 17 ∧ (ofString "body").size = 6 := by decide
  simp only [names, size]
  omega

/-- A letter gets its origin instead of its destination and of the number of its envelope. -/
theorem size_passedOn (sender : String) (msgId : UInt32) (letter : Letter) :
    size (Notice.delivery sender letter.conversationId letter.body) +
        (size letter.destination + size msgId + 6) =
      size (Envelope.mk msgId (some (.sendMessage letter))) + size sender := by
  rw [size_delivery, size_letter]
  omega

theorem plain_bounds {c : Char} (plain : isAgentIdChar c) :
    43 ≤ c.toNat ∧ c.toNat ≤ 122 ∧ c ≠ '\\' := by
  rw [isAgentIdChar, Bool.or_eq_true, decide_eq_true_iff] at plain
  rcases plain with alphanum | mark
  · have bar : c ≠ '\\' := by
      rintro rfl
      exact absurd alphanum (by decide)
    simp only [Char.isAlphanum, Char.isAlpha, Char.isUpper, Char.isLower, Char.isDigit,
      Bool.or_eq_true, decide_eq_true_iff, UInt32.le_iff_toNat_le] at alphanum
    refine ⟨?_, ?_, bar⟩
    all_goals
      simp at alphanum
      omega
  · simp only [List.mem_cons, List.not_mem_nil, or_false] at mark
    rcases mark with rfl | rfl | rfl | rfl | rfl | rfl | rfl
    all_goals decide

theorem size_escape {c : Char} (plain : isAgentIdChar c) :
    ((escape c).flatMap String.utf8EncodeChar).length = 1 := by
  obtain ⟨low, high, bar⟩ := plain_bounds plain
  have ne {d : Char} (far : d.toNat < 43) : c ≠ d := by
    rintro rfl
    omega
  have visible : ¬ c < ' ' := fun below => by
    have less : c.toNat < 32 := below
    omega
  have ascii : c.utf8Size = 1 := by
    rw [Char.utf8Size_eq_one_iff, UInt32.le_iff_toNat_le]
    change c.toNat ≤ 127
    omega
  rw [escape, if_neg (ne (by decide)), if_neg bar, if_neg (ne (by decide)),
    if_neg (ne (by decide)), if_neg (ne (by decide)), if_neg (ne (by decide)),
    if_neg (ne (by decide)), if_neg visible, List.flatMap_singleton, String.length_utf8EncodeChar,
    ascii]

theorem size_agentId {id : String} (isId : isAgentId id) : size id = id.length + 2 := by
  rw [isAgentId, decide_eq_true_iff] at isId
  have plain := List.all_eq_true.mp isId.2.2
  have inner : ((id.toList.flatMap escape).flatMap String.utf8EncodeChar).length = id.length := by
    have ones : id.toList.map (fun c => ((escape c).flatMap String.utf8EncodeChar).length) =
        id.toList.map fun _ => 1 := List.map_congr_left fun c mem => size_escape (plain c mem)
    rw [List.flatMap_assoc, List.length_flatMap, ones, List.map_const', List.sum_replicate_nat,
      Nat.mul_one, String.length_toList]
  have quotes : String.utf8EncodeChar '"' = [34] := rfl
  rw [size, show toJson id = ofString id from rfl, size_ofString, Token.size, Token.text,
    Option.getD_some, quote, List.flatMap_cons, List.flatMap_append, List.flatMap_singleton, quotes,
    List.length_append, List.length_append, inner]
  exact Nat.add_comm 1 _

theorem size_number (n : UInt32) : 0 < size n := by
  have text : (Number.ofNat n.toNat).text = Nat.toDigits 10 n.toNat := by
    simp [Number.text, Number.ofNat]
  rw [size, show toJson n = ofNat n.toNat from rfl, size_eq, ofNat, tokens, List.map_singleton,
    List.sum_singleton, Token.size, Token.text, text]
  obtain ⟨c, cs, digits⟩ := List.exists_cons_of_ne_nil (@Nat.toDigits_ne_nil n.toNat 10)
  rw [digits, List.flatMap_cons, List.length_append, String.length_utf8EncodeChar]
  exact Nat.add_pos_left c.utf8Size_pos _

end Wire

end AgentBroker
