import AgentBroker.Proofs.Negotiation.Bookkeeping
import AgentBroker.Proofs.Negotiation.History
import AgentBroker.Proofs.Negotiation.Spelling

/-!
# Dialogues by the identifiers of their conversations

A book keeps its dialogues by identifier, and an identifier has many spellings. Two conversation ids
share a dialogue exactly when they spell the same identifier; the others never get in each other's
way.
-/

namespace AgentBroker.DialogueBook

/-- What an agent does with its book. -/
inductive Act where
  /-- Opens a dialogue under an identifier of its own choice. -/
  | initiate (id : Uuid) (peer : String)
  /-- Looks up a conversation of the wire, or starts its dialogue. -/
  | join (conversationId peer : String)
  | send (id : Uuid)
  | receive (id : Uuid) (msgId : UInt32)
  | finish (id : Uuid)

def Act.subject? : Act → Option Uuid
  | initiate id _ | send id | receive id _ | finish id => some id
  | join conversationId _ => Uuid.parse? conversationId

def amend (book : DialogueBook) (id : Uuid) (change : Dialogue → Dialogue) : DialogueBook :=
  match book.get? id with
  | some d => book.put (change d)
  | none => book

def act (book : DialogueBook) : Act → DialogueBook
  | .initiate id peer => (book.track id peer).2
  | .join conversationId peer =>
    match book.join? conversationId peer with
    | some (_, next) => next
    | none => book
  | .send id => book.amend id Dialogue.send
  | .receive id msgId => book.amend id (·.receive msgId)
  | .finish id => book.finish id

def replay (acts : List Act) : DialogueBook := Run.last act .empty acts

/-- The dialogue that joining a conversation gives. -/
def joined? (book : DialogueBook) (conversationId peer : String) : Option Dialogue :=
  (book.join? conversationId peer).map (·.1)

def Act.edit (id : Uuid) (entry : Option Dialogue) : Act → Option Dialogue
  | initiate _ peer | join _ peer => some (entry.getD (.start id peer))
  | send _ => entry.map Dialogue.send
  | receive _ msgId => entry.map (·.receive msgId)
  | finish _ => none

variable {book : DialogueBook} {id : Uuid}

theorem get?_track_eq (peer : String) (id other : Uuid) :
    (book.track other peer).2.get? id =
      if other = id then some ((book.get? id).getD (.start id peer)) else book.get? id := by
  rw [get?_track, track_fst]
  by_cases same : other = id
  · subst same
    simp
  · simp [same, Ne.symm same]

theorem get?_amend (keyed : book.Keyed) {change : Dialogue → Dialogue}
    (same : ∀ d, (change d).id = d.id) (id other : Uuid) :
    (book.amend other change).get? id =
      if other = id then (book.get? id).map change else book.get? id := by
  rw [amend]
  cases found : book.get? other with
  | none =>
    dsimp only
    split
    next own => rw [← own, found, Option.map_none]
    next => rfl
  | some d =>
    dsimp only
    rw [get?_put, same, keyed other d found]
    by_cases own : other = id
    · rw [if_pos own.symm, if_pos own, ← own, found, Option.map_some]
    · rw [if_neg (Ne.symm own), if_neg own]

theorem get?_finish (id other : Uuid) :
    (book.finish other).get? id = if other = id then none else book.get? id := by
  simp [get?, finish, Std.ExtTreeMap.getElem?_erase]

theorem get?_act (keyed : book.Keyed) (a : Act) (id : Uuid) :
    (book.act a).get? id =
      if a.subject? = some id then a.edit id (book.get? id) else book.get? id := by
  cases a with
  | initiate other peer => simp only [act, Act.subject?, Option.some.injEq, get?_track_eq, Act.edit]
  | join conversationId peer =>
    rw [act, join?, Act.subject?]
    cases Uuid.parse? conversationId with
    | none => rfl
    | some other => simp only [Option.map_some, Option.some.injEq, get?_track_eq, Act.edit]
  | send other =>
    simp only [act, Act.subject?, Option.some.injEq, get?_amend keyed Dialogue.send_id, Act.edit]
  | receive other msgId =>
    simp only [act, Act.subject?, Option.some.injEq, get?_amend keyed (Dialogue.receive_id msgId),
      Act.edit]
  | finish other => simp only [act, Act.subject?, Option.some.injEq, get?_finish, Act.edit]

theorem id_of_edit {entry : Option Dialogue} (own : ∀ d, entry = some d → d.id = id) (a : Act) :
    ∀ d, a.edit id entry = some d → d.id = id := by
  intro d edited
  have kept (change : Dialogue → Dialogue) (same : ∀ d, (change d).id = d.id)
      (changed : entry.map change = some d) : d.id = id := by
    obtain ⟨prior, found, rfl⟩ := Option.map_eq_some_iff.mp changed
    exact (same prior).trans (own prior found)
  have opened (peer : String) (there : some (entry.getD (.start id peer)) = some d) :
      d.id = id := by
    cases there
    cases entry with
    | none => rfl
    | some prior => exact own prior rfl
  cases a with
  | initiate _ peer | join _ peer => exact opened peer edited
  | send _ => exact kept _ Dialogue.send_id edited
  | receive _ msgId => exact kept _ (Dialogue.receive_id msgId) edited
  | finish _ => cases edited

theorem keyed_act (keyed : book.Keyed) (a : Act) : (book.act a).Keyed := by
  intro id d found
  rw [get?_act keyed] at found
  split at found
  next => exact id_of_edit (fun d => keyed id d) a d found
  next => exact keyed id d found

theorem keyed_replay (acts : List Act) : (replay acts).Keyed :=
  Run.last_induction (P := Keyed) (fun _ a keyed => keyed_act keyed a) _ keyed_empty acts

def about (id : Uuid) (acts : List Act) : List Act := acts.filter (·.subject? = some id)

/-- Behind a run, a dialogue is what the acts about it have made of it. -/
theorem get?_last (keyed : book.Keyed) (acts : List Act) (id : Uuid) :
    (Run.last act book acts).get? id = (about id acts).foldl (Act.edit id) (book.get? id) := by
  induction acts generalizing book with
  | nil => rfl
  | cons a rest ih =>
    rw [Run.last_cons, ih (keyed_act keyed a), get?_act keyed, about, about, List.filter_cons]
    by_cases own : a.subject? = some id
    · rw [if_pos own, if_pos (decide_eq_true own), List.foldl_cons]
    · rw [if_neg own, if_neg (by simpa using own)]

theorem get?_replay (acts : List Act) (id : Uuid) :
    (replay acts).get? id = (about id acts).foldl (Act.edit id) none := by
  rw [replay, get?_last keyed_empty, get?_empty]

theorem about_filter {u v : Uuid} (apart : u ≠ v) (acts : List Act) :
    about v (acts.filter (·.subject? ≠ some u)) = about v acts := by
  rw [about, about, List.filter_filter]
  refine List.filter_congr fun a _ => ?_
  by_cases own : a.subject? = some v
  · simp [own, Ne.symm apart]
  · simp [own]

variable {s t : String} {u v : Uuid}

theorem join?_isSome_iff (book : DialogueBook) (s peer : String) :
    (book.join? s peer).isSome ↔ ∃ u, Uuid.Spells s u := by
  rw [join?, Option.isSome_map, Option.isSome_iff_exists]
  exact exists_congr fun u => Uuid.parse?_eq_some_iff

theorem joined?_eq (spells : Uuid.Spells s u) (book : DialogueBook) (peer : String) :
    book.joined? s peer = some ((book.get? u).getD (.start u peer)) := by
  rw [joined?, join?, Uuid.parse?_eq_some_iff.mpr spells, Option.map_some, Option.map_some,
    track_fst]

theorem id_of_joined? (spells : Uuid.Spells s u) (keyed : book.Keyed) {peer : String}
    {d : Dialogue} (joined : book.joined? s peer = some d) : d.id = u := by
  rw [joined?_eq spells] at joined
  cases joined
  cases found : book.get? u with
  | none => rfl
  | some d => exact keyed u d found

theorem get?_replay_joined (spells : Uuid.Spells s u) {before later : List Act} {peer : String}
    {d : Dialogue} (joined : (replay before).joined? s peer = some d)
    (nothing : about u later = []) :
    (replay (before ++ .join s peer :: later)).get? u = some d := by
  have own : Act.subject? (.join s peer) = some u := Uuid.parse?_eq_some_iff.mpr spells
  rw [joined?_eq spells] at joined
  have whole : replay (before ++ .join s peer :: later) =
      Run.last act ((replay before).act (.join s peer)) later := Run.last_append _ _ _
  rw [whole, get?_last (keyed_act (keyed_replay before) _), nothing, List.foldl_nil,
    get?_act (keyed_replay before), if_pos own]
  exact joined

/-- What joining a conversation gives does not depend on what is done about `u`. -/
def Unaffected (u : Uuid) (t : String) : Prop :=
  ∀ (acts : List Act) (peer : String), (replay acts).joined? t peer =
    (replay (acts.filter (·.subject? ≠ some u))).joined? t peer

theorem unaffected_of_ne (spells : Uuid.Spells t v) (different : u ≠ v) : Unaffected u t := by
  intro acts peer
  rw [joined?_eq spells, joined?_eq spells, get?_replay, get?_replay, about_filter different]

theorem not_unaffected (spells : Uuid.Spells t u) : ¬ Unaffected u t := by
  intro unaffected
  have same := unaffected [.initiate u "a"] "b"
  have own : (replay [.initiate u "a"]).get? u = some (.start u "a") := by
    rw [get?_replay]
    simp [about, Act.subject?, Act.edit]
  have nothing : [Act.initiate u "a"].filter (·.subject? ≠ some u) = [] := by
    simp [Act.subject?]
  rw [joined?_eq spells, joined?_eq spells, own, nothing] at same
  have peers : "a" = "b" := congrArg Dialogue.peer (Option.some.inj same)
  exact absurd peers (by decide)

/-- Joining accepts the conversation ids that spell an identifier. Of two such ids, whatever else
has happened, the one gives the dialogue joined under the other exactly if both spell the same
identifier. Then they do the same in every book; otherwise nothing that is done in the dialogue of
the one changes the numbers, the peer or the target that the other gives. Canonical texts spell the
same identifier only if they are equal. -/
theorem joined_exact :
    (∀ (book : DialogueBook) (s peer : String),
      (book.join? s peer).isSome ↔ ∃ u, Uuid.Spells s u) ∧
    ∀ (s t : String) (u v : Uuid), Uuid.Spells s u → Uuid.Spells t v →
      (∀ (before later : List Act) (peer peer' : String), ∃ d d',
        (replay before).joined? s peer = some d ∧ d.id = u ∧
        (replay (before ++ .join s peer :: later)).joined? t peer' = some d' ∧ d'.id = v ∧
        (about u later = [] → (d' = d ↔ u = v))) ∧
      ((∀ (book : DialogueBook) (peer : String), book.join? t peer = book.join? s peer) ↔ u = v) ∧
      (Unaffected u t ↔ u ≠ v) ∧
      (s = u.text → t = v.text → (s = t ↔ u = v)) := by
  refine ⟨join?_isSome_iff, fun s t u v first second => ⟨?_, ?_, ?_, ?_⟩⟩
  · intro before later peer peer'
    have joined := joined?_eq first (replay before) peer
    have joined' := joined?_eq second (replay (before ++ .join s peer :: later)) peer'
    have id_eq := id_of_joined? first (keyed_replay _) joined
    have id_eq' := id_of_joined? second (keyed_replay _) joined'
    refine ⟨_, _, joined, id_eq, joined', id_eq', fun nothing => ⟨fun same => ?_, ?_⟩⟩
    · rw [← id_eq, ← id_eq', same]
    · rintro rfl
      rw [get?_replay_joined first joined nothing]
      rfl
  · constructor
    · intro same
      have joined := joined?_eq first .empty ""
      have joined' := joined?_eq second .empty ""
      rw [joined?, ← same, ← joined?, joined'] at joined
      rw [← id_of_joined? second keyed_empty joined', Option.some.inj joined]
      rfl
    · rintro rfl
      intro book peer
      rw [join?, join?, Uuid.parse?_eq_some_iff.mpr first, Uuid.parse?_eq_some_iff.mpr second]
  · constructor
    · rintro unaffected rfl
      exact not_unaffected second unaffected
    · exact unaffected_of_ne second
  · rintro rfl rfl
    exact ⟨fun same => Uuid.text_injective same, congrArg Uuid.text⟩

/-- Two identifiers that differ in the last digit, one of them in capitals. -/
theorem joined_exact_neighbours :
    let s := "6a1f8c1e-2b1d-4c53-9a77-3f0e2d1c9b10"
    let t := "\x7b6A1F8C1E-2B1D-4C53-9A77-3F0E2D1C9B11\x7d"
    let u : Uuid := 0x6a1f8c1e2b1d4c539a773f0e2d1c9b10
    let v : Uuid := 0x6a1f8c1e2b1d4c539a773f0e2d1c9b11
    Uuid.Spells s u ∧ Uuid.Spells t v ∧ Unaffected u t ∧
      ¬ ∀ (book : DialogueBook) (peer : String), book.join? t peer = book.join? s peer := by
  intro s t u v
  have first : Uuid.Spells s u := Uuid.parse?_eq_some_iff.mp (by decide +kernel)
  have second : Uuid.Spells t v := Uuid.parse?_eq_some_iff.mp (by decide +kernel)
  have different : u ≠ v := by decide
  obtain ⟨-, same, unaffected, -⟩ := joined_exact.2 s t u v first second
  exact ⟨first, second, unaffected.mpr different, fun all => different (same.mp all)⟩

/-- A conversation with a buyer, and another with a rival, whose id spells the same identifier in
capitals: the broker keeps two negotiations, and the book one dialogue, with the buyer's numbers. -/
theorem capitals_share_dialogue :
    let s := "6a1f8c1e-2b1d-4c53-9a77-3f0e2d1c9b10"
    let t := "6A1F8C1E-2B1D-4C53-9A77-3F0E2D1C9B10"
    let id : Uuid := 0x6a1f8c1e2b1d4c539a773f0e2d1c9b10
    let call : NegotiationMessage := ⟨5, 0, .call .nothing⟩
    let ledger := Ledger.replay
      [.observe 0 "buyer" "seller" s call, .observe 0 "rival" "seller" t call]
    let book := replay [.join s "buyer", .receive id 5, .send id]
    s ≠ t ∧ (ledger.get? s).map (·.initiator) = some "buyer" ∧
      (ledger.get? t).map (·.initiator) = some "rival" ∧
      book.joined? s "buyer" = some ⟨id, "buyer", 1, 5⟩ ∧
      book.joined? t "rival" = book.joined? s "buyer" := by
  decide +kernel

end AgentBroker.DialogueBook
