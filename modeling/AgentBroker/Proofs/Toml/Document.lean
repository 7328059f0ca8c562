import AgentBroker.Proofs.Toml.Literal

/-!
# Documents of sections

A document may be written as sections with a blank line between them: a header with the name of the
section, then a line for each of its members. Such a document is read as the table of its sections,
each of them the table of its members in the order in which they are written.
-/

namespace AgentBroker.Toml

variable {key cs rest : List Char} {c : Char}

structure Entry where
  key : String
  text : List Char
  value : Toml

structure Section where
  name : String
  entries : List Entry

def IsBare (name : String) : Prop := name.toList ≠ [] ∧ name.toList.all isKeyChar

instance : DecidablePred IsBare := fun name =>
  inferInstanceAs (Decidable (name.toList ≠ [] ∧ name.toList.all isKeyChar))

theorem IsBare.keyChar {name : String} (bare : IsBare name) :
    ∀ c ∈ name.toList, isKeyChar c :=
  List.all_eq_true.mp bare.2

def Entry.line (e : Entry) : List Char := e.key.toList ++ ' ' :: '=' :: ' ' :: e.text ++ ['\n']

namespace Section

def header (s : Section) : List Char := '[' :: s.name.toList ++ [']', '\n']

def text (s : Section) : List Char := s.header ++ s.entries.flatMap Entry.line

def members (s : Section) : Members := s.entries.map fun e => (e.key, e.value)

/-- All names need no quotation marks, no two members have the same, and each value is read from its
text. -/
structure Lawful (s : Section) : Prop where
  name : IsBare s.name
  keys : ∀ e ∈ s.entries, IsBare e.key
  nodup : (s.entries.map Entry.key).Nodup
  values : ∀ e ∈ s.entries, Writes e.text e.value

end Section

theorem isKeyChar_ne {d : Char} (keyChar : isKeyChar c) (other : isKeyChar d = false) : c ≠ d := by
  rintro rfl
  rw [other] at keyChar
  cases keyChar

theorem IsBare.ne_cons {name : String} (bare : IsBare name) (other : isKeyChar c = false)
    (more : List Char) : name.toList ++ rest ≠ c :: more := by
  intro same
  obtain ⟨d, ds, first⟩ := List.exists_cons_of_ne_nil bare.1
  have keyChar := bare.keyChar d (first ▸ List.mem_cons_self)
  rw [first] at same
  exact isKeyChar_ne keyChar other (List.cons.inj same).1

theorem simpleKey?_bare {name : String} (bare : IsBare name)
    (stop : ∀ c ∈ rest.head?, isKeyChar c = false) :
    simpleKey? (name.toList ++ rest) = some (name, rest) := by
  have taken : (name.toList ++ rest).takeWhile isKeyChar = name.toList := by
    rw [List.takeWhile_append_of_pos bare.keyChar]
    cases rest with
    | nil => simp
    | cons c rest => simp [stop c rfl]
  have short : readShort (name.toList ++ rest) = none := by
    rw [readShort]
    · exact bare.ne_cons (by decide)
    · exact bare.ne_cons (by decide)
  rw [simpleKey?, short]
  simp only [taken, if_neg bare.1, List.drop_left, String.ofList_toList]

theorem skipSpaces_bare {name : String} (bare : IsBare name) :
    skipSpaces (name.toList ++ rest) = name.toList ++ rest := by
  rw [skipSpaces]
  · exact bare.ne_cons (by decide)
  · exact bare.ne_cons (by decide)

theorem keyPath?_bare {name : String} (bare : IsBare name) (n : Nat) {more : List Char}
    (stop : ∀ c ∈ rest.head?, isKeyChar c = false) (behind : skipSpaces rest = c :: more)
    (last : c ≠ '.') : keyPath? (n + 1) (name.toList ++ rest) = some ([name], c :: more) := by
  rw [keyPath?, skipSpaces_bare bare, simpleKey?_bare bare stop]
  simp only [Option.bind_eq_bind, Option.bind_some, behind]
  split
  next same => exact absurd (List.cons.inj same).1 last
  next => rfl

section

variable {front ms : Members} {k : String} {v old : Toml}

theorem lookup_concat {other : String} (free : ms.lookup other = none) (differ : other ≠ k)
    (v : Toml) : (ms ++ [(k, v)]).lookup other = none := by
  rw [List.lookup_append, free, Option.none_or, List.lookup_cons, beq_false_of_ne differ]
  rfl

theorem lookup_members {s : Section} (nodup : (s.entries.map Entry.key).Nodup) {e : Entry}
    (mem : e ∈ s.entries) : s.members.lookup e.key = some e.value := by
  obtain ⟨before, after, same⟩ := List.append_of_mem mem
  have absent : List.lookup e.key (before.map fun e => (e.key, e.value)) = none := by
    rw [List.lookup_eq_none_iff]
    intro m there
    obtain ⟨e', earlier, rfl⟩ := List.mem_map.mp there
    rw [same, List.map_append, List.map_cons] at nodup
    have differ := (List.nodup_append.mp nodup).2.2 e'.key (List.mem_map_of_mem earlier) e.key
      List.mem_cons_self
    exact bne_iff_ne.mpr differ.symm
  rw [Section.members, same, List.map_append, List.lookup_append, absent, List.map_cons,
    List.lookup_cons_self, Option.none_or]

theorem put_new (free : ms.lookup k = none) : put k v ms = ms ++ [(k, v)] := by
  rw [put, free]
  rfl

theorem replace_of_lookup (free : ms.lookup k = none) : replace k v ms = ms := by
  induction ms with
  | nil => rfl
  | cons m ms ih =>
    rw [List.lookup_cons] at free
    split at free
    · cases free
    next differ =>
      have other : m.1 ≠ k := fun same => by simp [same] at differ
      have kept : (m.1, if m.1 = k then v else m.2) = m := by rw [if_neg other]
      have later : ms.map (fun m => (m.1, if m.1 = k then v else m.2)) = ms := ih free
      change ((m.1, if m.1 = k then v else m.2) :: ms.map _) = m :: ms
      rw [kept, later]

theorem put_last (free : front.lookup k = none) :
    put k v (front ++ [(k, old)]) = front ++ [(k, v)] := by
  have found : ((front ++ [(k, old)]).lookup k).isSome := by
    simp [List.lookup_append, free]
  have same : replace k v front = front := replace_of_lookup free
  rw [put, if_pos found, replace, List.map_append, ← replace, same]
  simp

end

namespace Reading

variable {r r' r'' : Reading} {name : String}

theorem line?_header (r : Reading) (bare : IsBare name) (rest : List Char) :
    r.line? ('[' :: (name.toList ++ ']' :: '\n' :: rest)) =
      (r.openAt [name] openTable).map (·, rest) := by
  have path : keyPath? maxKeys (name.toList ++ ']' :: '\n' :: rest) =
      some ([name], ']' :: '\n' :: rest) :=
    keyPath?_bare bare 78 (by simp; decide) (skipSpaces_cons (by decide) (by decide)) (by decide)
  rw [line?]
  · simp only [path, Option.bind_eq_bind, Option.bind_some]
    cases r.openAt [name] openTable <;> rfl
  · exact bare.ne_cons (by decide)

theorem member?_bare {text : List Char} {v : Toml} (bare : IsBare name) (writes : Writes text v)
    (rest : List Char) :
    member? (value? maxDepth) (name.toList ++ ' ' :: '=' :: ' ' :: (text ++ '\n' :: rest)) =
      some (([], name, v), '\n' :: rest) := by
  have path : keyPath? maxKeys (name.toList ++ ' ' :: '=' :: ' ' :: (text ++ '\n' :: rest)) =
      some ([name], '=' :: ' ' :: (text ++ '\n' :: rest)) :=
    keyPath?_bare bare 78 (by simp; decide) rfl (by decide)
  have read : value? maxDepth (skipSpaces (' ' :: (text ++ '\n' :: rest))) =
      some (v, '\n' :: rest) := writes rest
  rw [member?, path]
  simp only [Option.bind_eq_bind, Option.bind_some, read]
  rfl

theorem line?_member (r : Reading) {text : List Char} {v : Toml} (bare : IsBare name)
    (writes : Writes text v) (rest : List Char) :
    r.line? (name.toList ++ ' ' :: '=' :: ' ' :: (text ++ '\n' :: rest)) =
      (r.add [] name v).map (·, rest) := by
  rw [line?]
  · simp only [member?_bare bare writes rest, Option.bind_eq_bind, Option.bind_some]
    cases r.add [] name v <;> rfl
  · exact fun more => bare.ne_cons (by decide) ('[' :: more)
  · exact bare.ne_cons (by decide)

/-- Reading goes on from `r` to `r'` over a text, whatever follows it. The fuel is more than what
is still to be read. -/
def Reads (r : Reading) (text : List Char) (r' : Reading) : Prop :=
  ∀ rest n, text.length + rest.length < n →
    ∃ m, rest.length < m ∧ lines? n r (text ++ rest) = lines? m r' rest

theorem Reads.refl (r : Reading) : Reads r [] r :=
  fun rest n enough => ⟨n, by simpa using enough, rfl⟩

theorem Reads.append {text text' : List Char} (first : Reads r text r')
    (second : Reads r' text' r'') : Reads r (text ++ text') r'' := by
  intro rest n enough
  rw [List.length_append, Nat.add_assoc] at enough
  obtain ⟨m, more, read⟩ := first (text' ++ rest) n (by rwa [List.length_append])
  obtain ⟨k, left, read'⟩ := second rest m (by rwa [List.length_append] at more)
  exact ⟨k, left, by rw [List.append_assoc, read, read']⟩

theorem reads_blank (r : Reading) : Reads r ['\n'] r := by
  intro rest n enough
  cases n with
  | zero => omega
  | succ n =>
    refine ⟨n, ?_, rfl⟩
    rw [List.length_singleton] at enough
    omega

theorem reads_line {line : List Char} (begins : line ≠ [])
    (noBlank : ∀ c ∈ [' ', '\t', '\n', '\r', '#'], line.head? ≠ some c)
    (read : ∀ rest, r.line? (line ++ rest) = some (r', rest)) : Reads r line r' := by
  intro rest n enough
  obtain ⟨c, cs, rfl⟩ := List.exists_cons_of_ne_nil begins
  cases n with
  | zero => omega
  | succ n =>
    refine ⟨n, ?_, ?_⟩
    · rw [List.length_cons] at enough
      omega
    · have differ (d : Char) (mem : d ∈ [' ', '\t', '\n', '\r', '#']) : c ≠ d :=
        fun same => noBlank d mem (congrArg some same)
      have start : skipSpaces (c :: cs ++ rest) = c :: cs ++ rest :=
        skipSpaces_cons (differ ' ' (by simp)) (differ '\t' (by simp))
      rw [lines?, start]
      split
      next same => cases same
      next same => exact absurd (List.cons.inj same).1 (differ '\n' (by simp))
      next same => exact absurd (List.cons.inj same).1 (differ '\r' (by simp))
      next same => exact absurd (List.cons.inj same).1 (differ '#' (by simp))
      next =>
        rw [read]
        rfl

theorem openAt_new {root : Members} (path : List String) (free : root.lookup name = none) :
    openAt ⟨root, path⟩ [name] openTable = some ⟨root ++ [(name, .table .header [])], [name]⟩ := by
  simp [openAt, enter, openTable, free, put_new]

theorem add_new {front ms : Members} {key : String} {v : Toml} (first : front.lookup name = none)
    (free : ms.lookup key = none) :
    add ⟨front ++ [(name, .table .header ms)], [name]⟩ [] key v =
      some ⟨front ++ [(name, .table .header (ms ++ [(key, v)]))], [name]⟩ := by
  have found : (front ++ [(name, Toml.table .header ms)]).lookup name =
      some (.table .header ms) := by
    simp [List.lookup_append, first]
  simp [add, enter, insert, found, free, put_new, put_last first]

theorem reads_header {front : Members} (path : List String) (bare : IsBare name)
    (first : front.lookup name = none) :
    Reads ⟨front, path⟩ ('[' :: name.toList ++ [']', '\n'])
      ⟨front ++ [(name, .table .header [])], [name]⟩ := by
  apply reads_line (by simp) (by simp)
  intro rest
  rw [List.cons_append, List.cons_append, List.append_assoc]
  exact (line?_header _ bare rest).trans (by rw [openAt_new path first]; rfl)

theorem reads_entry {front ms : Members} {e : Entry} (bare : IsBare e.key)
    (writes : Writes e.text e.value) (first : front.lookup name = none)
    (free : ms.lookup e.key = none) :
    Reads ⟨front ++ [(name, .table .header ms)], [name]⟩ e.line
      ⟨front ++ [(name, .table .header (ms ++ [(e.key, e.value)]))], [name]⟩ := by
  have begins (c : Char) (mem : c ∈ [' ', '\t', '\n', '\r', '#']) : e.line.head? ≠ some c := by
    intro head
    obtain ⟨more, line⟩ := List.head?_eq_some_iff.mp head
    have other : [' ', '\t', '\n', '\r', '#'].all (!isKeyChar ·) := by decide
    have noKey : isKeyChar c = false := by simpa using List.all_eq_true.mp other c mem
    rw [Entry.line, List.append_assoc] at line
    exact bare.ne_cons noKey more line
  apply reads_line (by simp [Entry.line]) begins
  intro rest
  have written : e.line ++ rest =
      e.key.toList ++ ' ' :: '=' :: ' ' :: (e.text ++ '\n' :: rest) := by
    simp [Entry.line]
  rw [written, line?_member _ bare writes rest, add_new first free]
  rfl

theorem reads_entries {front ms : Members} {entries : List Entry}
    (bare : ∀ e ∈ entries, IsBare e.key) (writes : ∀ e ∈ entries, Writes e.text e.value)
    (nodup : (entries.map Entry.key).Nodup) (first : front.lookup name = none)
    (free : ∀ e ∈ entries, ms.lookup e.key = none) :
    Reads ⟨front ++ [(name, .table .header ms)], [name]⟩ (entries.flatMap Entry.line)
      ⟨front ++ [(name, .table .header (ms ++ entries.map fun e => (e.key, e.value)))],
        [name]⟩ := by
  induction entries generalizing ms with
  | nil =>
    rw [List.map_nil, List.append_nil]
    exact .refl _
  | cons e entries ih =>
    obtain ⟨fresh, others⟩ := List.nodup_cons.mp nodup
    have free' : ∀ e' ∈ entries, (ms ++ [(e.key, e.value)]).lookup e'.key = none := by
      intro e' mem
      have differ : e'.key ≠ e.key := fun same => fresh (same ▸ List.mem_map_of_mem mem)
      exact lookup_concat (free e' (List.mem_cons_of_mem e mem)) differ _
    have here := reads_entry (bare e List.mem_cons_self) (writes e List.mem_cons_self) first
      (free e List.mem_cons_self)
    have later := ih (fun e' mem => bare e' (List.mem_cons_of_mem e mem))
      (fun e' mem => writes e' (List.mem_cons_of_mem e mem)) others free'
    have whole := here.append later
    rwa [List.append_assoc] at whole

theorem reads_section {front : Members} {s : Section} (path : List String) (lawful : s.Lawful)
    (first : front.lookup s.name = none) :
    Reads ⟨front, path⟩ s.text ⟨front ++ [(s.name, .table .header s.members)], [s.name]⟩ := by
  have opens := reads_header path lawful.name first
  have fills : Reads ⟨front ++ [(s.name, .table .header [])], [s.name]⟩
      (s.entries.flatMap Entry.line) ⟨front ++ [(s.name, .table .header s.members)], [s.name]⟩ :=
    reads_entries lawful.keys lawful.values lawful.nodup first fun _ _ => rfl
  exact opens.append fills

end Reading

def documentText (sections : List Section) : List Char :=
  ['\n'].intercalate (sections.map Section.text)

def document (sections : List Section) : Members :=
  sections.map fun s => (s.name, .table .header s.members)

theorem Reading.reads_document {front : Members} {sections : List Section} (path : List String)
    (lawful : ∀ s ∈ sections, s.Lawful) (nodup : (sections.map Section.name).Nodup)
    (free : ∀ s ∈ sections, front.lookup s.name = none) :
    ∃ path', Reads ⟨front, path⟩ (documentText sections) ⟨front ++ document sections, path'⟩ := by
  induction sections generalizing front path with
  | nil => exact ⟨path, by simpa [documentText, document] using Reads.refl _⟩
  | cons s sections ih =>
    obtain ⟨fresh, others⟩ := List.nodup_cons.mp nodup
    have here := reads_section path (lawful s List.mem_cons_self) (free s List.mem_cons_self)
    have free' : ∀ s' ∈ sections,
        (front ++ [(s.name, Toml.table .header s.members)]).lookup s'.name = none := by
      intro s' mem
      have differ : s'.name ≠ s.name := fun same => fresh (same ▸ List.mem_map_of_mem mem)
      exact lookup_concat (free s' (List.mem_cons_of_mem s mem)) differ _
    obtain ⟨path', later⟩ := ih [s.name] (fun s' mem => lawful s' (List.mem_cons_of_mem s mem))
      others free'
    rw [List.append_assoc] at later
    cases sections with
    | nil => exact ⟨[s.name], by simpa [documentText, document] using here⟩
    | cons s' sections =>
      refine ⟨path', ?_⟩
      have whole := here.append ((reads_blank _).append later)
      simpa [documentText, document, List.intercalate] using whole

theorem documentText_head (s : Section) (sections : List Section) :
    ∃ more, documentText (s :: sections) = '[' :: more := by
  cases sections with
  | nil => exact ⟨_, by simp [documentText, Section.text, Section.header]; rfl⟩
  | cons s' sections =>
    exact ⟨_, by simp [documentText, List.intercalate, Section.text, Section.header]; rfl⟩

/-- The text of a document is read as the document. -/
theorem parse?_documentText {sections : List Section} (lawful : ∀ s ∈ sections, s.Lawful)
    (nodup : (sections.map Section.name).Nodup) :
    parse? (String.ofList (documentText sections)) = some (.table .header (document sections)) := by
  have whole : ∃ path, Reading.start.Reads (documentText sections) ⟨document sections, path⟩ :=
    Reading.reads_document [] lawful nodup fun _ _ => rfl
  obtain ⟨path, reads⟩ := whole
  obtain ⟨m, more, read⟩ := reads [] ((documentText sections).length + 1) (by simp)
  have last : Reading.lines? m ⟨document sections, path⟩ [] = some ⟨document sections, path⟩ := by
    cases m with
    | zero => cases more
    | succ m => rfl
  rw [List.append_nil, last] at read
  have chars : ofChars? (documentText sections) = some (document sections) := by
    cases sections with
    | nil => rfl
    | cons s sections =>
      obtain ⟨more, head⟩ := documentText_head s sections
      rw [head] at read ⊢
      rw [ofChars?]
      have noMark : ('['.toNat = 0xFEFF) = False := by decide
      simp only [noMark, if_false]
      rw [read]
      rfl
  rw [parse?, String.toList_ofList, chars, Option.map_some]

end AgentBroker.Toml
