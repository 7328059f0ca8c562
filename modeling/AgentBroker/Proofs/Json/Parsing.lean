import AgentBroker.Proofs.Json.Lexical

/-!
# Written values

A value whose strings and numbers have texts is read back from its own text.
-/

namespace AgentBroker.Json

mutual

/-- All literals of the value have texts that stand for them. -/
def Printable : Json → Prop
  | null => True
  | bool _ => True
  | number n => n.WellFormed
  | string s => s.isSome
  | array items => PrintableItems items
  | object members => PrintableMembers members

def PrintableItems : List Json → Prop
  | [] => True
  | v :: vs => Printable v ∧ PrintableItems vs

def PrintableMembers : List (Option String × Json) → Prop
  | [] => True
  | (k, v) :: ms => k.isSome ∧ Printable v ∧ PrintableMembers ms

end

theorem printable_array {items : List Json} :
    (array items).Printable ↔ ∀ v ∈ items, v.Printable := by
  rw [Printable]
  induction items with
  | nil => simp [PrintableItems]
  | cons v vs ih => rw [PrintableItems, ih, List.forall_mem_cons]

theorem printable_object {members : List (Option String × Json)} :
    (object members).Printable ↔ ∀ m ∈ members, m.1.isSome ∧ m.2.Printable := by
  rw [Printable]
  induction members with
  | nil => simp [PrintableMembers]
  | cons m ms ih =>
    obtain ⟨k, v⟩ := m
    rw [PrintableMembers, ih, List.forall_mem_cons, and_assoc]

def glyphs (ts : List Token) : List Glyph := (ts.flatMap Token.text).map some

@[simp] theorem glyphs_cons (t : Token) (ts : List Token) :
    glyphs (t :: ts) = t.text.map some ++ glyphs ts := by
  rw [glyphs, List.flatMap_cons, List.map_append]
  rfl

@[simp] theorem glyphs_append (xs ys : List Token) :
    glyphs (xs ++ ys) = glyphs xs ++ glyphs ys := by
  rw [glyphs, List.flatMap_append, List.map_append]
  rfl

@[simp] theorem glyphs_nil : glyphs [] = [] := rfl

open Token in
theorem scanFrom_token {t : Token} (h : t.WellFormed) {rest : List Glyph}
    (ends : t.isNumber → Ends rest) (seen : List Token) :
    scanFrom seen (t.text.map some ++ rest) = scanFrom (t :: seen) rest := by
  have read := next?_text h ends
  generalize t.text.map some ++ rest = whole at read ⊢
  match whole with
  | [] => cases read
  | g :: gs =>
    rw [scanFrom]
    split
    next found => rw [read] at found; cases found
    next found =>
      rw [read] at found
      cases found
      rfl

theorem scanFrom_mark (t : Token) (h : t.WellFormed) (mark : t.isNumber = false)
    (rest : List Glyph) (seen : List Token) :
    Token.scanFrom seen (t.text.map some ++ rest) = Token.scanFrom (t :: seen) rest :=
  scanFrom_token h (fun number => by rw [mark] at number; cases number) seen

theorem ends_itemTokens (vs : List Json) (rest : List Glyph) :
    Ends (glyphs (itemTokens vs) ++ rest) := by
  cases vs <;> rfl

theorem ends_memberTokens (ms : List (Option String × Json)) (rest : List Glyph) :
    Ends (glyphs (memberTokens ms) ++ rest) := by
  cases ms <;> rfl

mutual

theorem scanFrom_tokens (v : Json) (h : v.Printable) {rest : List Glyph} (ends : Ends rest)
    (seen : List Token) :
    Token.scanFrom seen (glyphs v.tokens ++ rest) =
      Token.scanFrom (v.tokens.reverse ++ seen) rest := by
  match v with
  | null =>
    simp only [tokens, glyphs_cons, glyphs_nil, List.append_nil]
    exact scanFrom_mark .null trivial rfl rest seen
  | bool b =>
    simp only [tokens, glyphs_cons, glyphs_nil, List.append_nil]
    exact scanFrom_mark (.bool b) trivial rfl rest seen
  | number n =>
    rw [Printable] at h
    simp only [tokens, glyphs_cons, glyphs_nil, List.append_nil]
    exact @scanFrom_token (.number n) h rest (fun _ => ends) seen
  | string s =>
    rw [Printable] at h
    simp only [tokens, glyphs_cons, glyphs_nil, List.append_nil]
    exact scanFrom_mark (.string s) h rfl rest seen
  | array [] =>
    simp only [tokens, glyphs_cons, glyphs_nil, List.append_nil, List.append_assoc]
    rw [scanFrom_mark .openArray trivial rfl, scanFrom_mark .closeArray trivial rfl]
    rfl
  | object [] =>
    simp only [tokens, glyphs_cons, glyphs_nil, List.append_nil, List.append_assoc]
    rw [scanFrom_mark .openObject trivial rfl, scanFrom_mark .closeObject trivial rfl]
    rfl
  | array (v :: vs) =>
    obtain ⟨first, others⟩ := h
    simp only [tokens, glyphs_cons, glyphs_append, List.append_assoc]
    rw [scanFrom_mark .openArray trivial rfl, scanFrom_tokens v first (ends_itemTokens vs rest),
      scanFrom_itemTokens vs others]
    simp
  | object ((k, v) :: ms) =>
    obtain ⟨key, first, others⟩ := h
    simp only [tokens, glyphs_cons, glyphs_append, List.append_assoc]
    rw [scanFrom_mark .openObject trivial rfl, scanFrom_mark (.string k) key rfl,
      scanFrom_mark .colon trivial rfl, scanFrom_tokens v first (ends_memberTokens ms rest),
      scanFrom_memberTokens ms others]
    simp

theorem scanFrom_itemTokens (vs : List Json) (h : PrintableItems vs) {rest : List Glyph}
    (seen : List Token) :
    Token.scanFrom seen (glyphs (itemTokens vs) ++ rest) =
      Token.scanFrom ((itemTokens vs).reverse ++ seen) rest := by
  match vs with
  | [] =>
    simp only [itemTokens, glyphs_cons, glyphs_nil, List.append_nil]
    exact scanFrom_mark .closeArray trivial rfl rest seen
  | v :: vs =>
    obtain ⟨first, others⟩ := h
    simp only [itemTokens, glyphs_cons, glyphs_append, List.append_assoc]
    rw [scanFrom_mark .comma trivial rfl, scanFrom_tokens v first (ends_itemTokens vs rest),
      scanFrom_itemTokens vs others]
    simp

theorem scanFrom_memberTokens (ms : List (Option String × Json)) (h : PrintableMembers ms)
    {rest : List Glyph} (seen : List Token) :
    Token.scanFrom seen (glyphs (memberTokens ms) ++ rest) =
      Token.scanFrom ((memberTokens ms).reverse ++ seen) rest := by
  match ms with
  | [] =>
    simp only [memberTokens, glyphs_cons, glyphs_nil, List.append_nil]
    exact scanFrom_mark .closeObject trivial rfl rest seen
  | (k, v) :: ms =>
    obtain ⟨key, first, others⟩ := h
    simp only [memberTokens, glyphs_cons, glyphs_append, List.append_assoc]
    rw [scanFrom_mark .comma trivial rfl, scanFrom_mark (.string k) key rfl,
      scanFrom_mark .colon trivial rfl, scanFrom_tokens v first (ends_memberTokens ms rest),
      scanFrom_memberTokens ms others]
    simp

end

namespace Awaiting

theorem run_firstItem (v : Json) (stack : List Frame) (ts : List Token) :
    run (.firstItem stack) (v.tokens ++ ts) =
      run (.value (.array [] :: stack)) (v.tokens ++ ts) := by
  match v with
  | null | bool _ | number _ | string _ | array [] | array (_ :: _) | object []
  | object (_ :: _) => rfl

mutual

theorem run_tokens (v : Json) (stack : List Frame) (ts : List Token) :
    run (.value stack) (v.tokens ++ ts) = run (.next v stack) ts := by
  match v with
  | null | bool _ | number _ | string _ | array [] | object [] => rfl
  | array (v :: vs) =>
    rw [tokens, List.cons_append, List.append_assoc]
    change run (.firstItem stack) _ = _
    rw [run_firstItem, run_tokens v, run_itemTokens vs]
    rfl
  | object ((k, v) :: ms) =>
    rw [tokens, List.cons_append, List.cons_append, List.cons_append, List.append_assoc]
    change run (.value (.object [] k :: stack)) _ = _
    rw [run_tokens v, run_memberTokens ms]
    rfl

theorem run_itemTokens (vs : List Json) (v : Json) (items : List Json) (stack : List Frame)
    (ts : List Token) :
    run (.next v (.array items :: stack)) (itemTokens vs ++ ts) =
      run (.next (.array ((v :: items).reverse ++ vs)) stack) ts := by
  match vs with
  | [] =>
    rw [List.append_nil]
    rfl
  | w :: vs =>
    rw [itemTokens, List.cons_append, List.append_assoc]
    change run (.value (.array (v :: items) :: stack)) _ = _
    rw [run_tokens w, run_itemTokens vs, List.reverse_cons, List.append_assoc]
    rfl

theorem run_memberTokens (ms : List (Option String × Json)) (k : Option String) (v : Json)
    (members : List (Option String × Json)) (stack : List Frame) (ts : List Token) :
    run (.next v (.object members k :: stack)) (memberTokens ms ++ ts) =
      run (.next (.object (((k, v) :: members).reverse ++ ms)) stack) ts := by
  match ms with
  | [] =>
    rw [List.append_nil]
    rfl
  | (k', w) :: ms =>
    rw [memberTokens, List.cons_append, List.cons_append, List.cons_append, List.append_assoc]
    change run (.value (.object ((k, v) :: members) k' :: stack)) _ = _
    rw [run_tokens w, run_memberTokens ms, List.reverse_cons, List.append_assoc]
    rfl

end

end Awaiting

theorem ofTokens?_tokens (v : Json) : ofTokens? v.tokens = some v := by
  have run := Awaiting.run_tokens v [] []
  rw [List.append_nil] at run
  exact run

theorem scan_tokens {v : Json} (h : v.Printable) :
    Token.scan (glyphs v.tokens) = some v.tokens := by
  have scanned := @scanFrom_tokens v h [] trivial []
  rw [List.append_nil, List.append_nil] at scanned
  rw [Token.scan, scanned, Token.scanFrom, List.reverse_reverse]

/-- A written value is read back. -/
theorem parse?_encode {v : Json} (h : v.Printable) : parse? v.encode = some v := by
  rw [parse?, encode, Glyph.scan_encode, ofGlyphs?]
  change (Token.scan (glyphs v.tokens)).bind ofTokens? = some v
  rw [scan_tokens h, Option.bind_some, ofTokens?_tokens]

end AgentBroker.Json
