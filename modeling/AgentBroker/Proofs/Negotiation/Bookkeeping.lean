import AgentBroker.Agent.Handler
import AgentBroker.Proofs.Negotiation.Ledger

/-!
# Keeping a book of dialogues

An agent looks up the dialogue of an identifier, or starts it, to number what it sends and to take
down what it receives. The other dialogues of its book stay as they are. So the numbers of a
dialogue can be read off what the agent has said and heard in it.
-/

namespace AgentBroker

theorem Dialogue.send_id (d : Dialogue) : d.send.id = d.id := rfl

theorem Dialogue.receive_id (msgId : UInt32) (d : Dialogue) : (d.receive msgId).id = d.id := rfl

namespace DialogueBook

variable {book : DialogueBook} {id other : Uuid} {peer : String}

def Keyed (book : DialogueBook) : Prop := ∀ id d, book.get? id = some d → d.id = id

def lastSent (book : DialogueBook) (id : Uuid) : UInt32 :=
  ((book.get? id).map Dialogue.lastSent).getD 0

def lastReceived (book : DialogueBook) (id : Uuid) : UInt32 :=
  ((book.get? id).map Dialogue.lastReceived).getD 0

/-- Looks up a dialogue, or starts it, and files it with a change. -/
def revise (book : DialogueBook) (id : Uuid) (peer : String) (change : Dialogue → Dialogue) :
    DialogueBook :=
  (book.track id peer).2.put (change (book.track id peer).1)

def compose (book : DialogueBook) (id : Uuid) (peer : String) (step : Step) :
    NegotiationMessage × DialogueBook :=
  let d := (book.track id peer).1
  (⟨d.nextMsgId, d.replyTarget, step⟩, book.revise id peer Dialogue.send)

def receive (book : DialogueBook) (d : Delivery) : DialogueBook :=
  match d.body with
  | .text _ => book
  | .negotiation m =>
    match Uuid.parse? d.conversationId with
    | some id => book.revise id d.origin (·.receive m.msgId)
    | none => book

@[simp] theorem get?_empty : DialogueBook.empty.get? id = none := by
  simp [get?, empty]

theorem keyed_empty : empty.Keyed := by
  intro id d h
  simp at h

theorem get?_put (d : Dialogue) :
    (book.put d).get? id = if id = d.id then some d else book.get? id := by
  by_cases h : id = d.id
  · simp [get?, put, h]
  · simp [get?, put, Std.ExtTreeMap.getElem?_insert, h, Ne.symm h]

theorem track_fst (book : DialogueBook) (id : Uuid) (peer : String) :
    (book.track id peer).1 = (book.get? id).getD (.start id peer) := by
  rw [track]
  cases book.get? id <;> rfl

theorem get?_track : (book.track id peer).2.get? other =
    if other = id then some (book.track id peer).1 else book.get? other := by
  rw [track]
  cases found : book.get? id with
  | some d =>
    dsimp only
    split
    next same => rw [same, found]
    · rfl
  | none => exact get?_put _

variable {change : Dialogue → Dialogue}

theorem get?_revise (keyed : book.Keyed) (same : ∀ d, (change d).id = d.id) :
    (book.revise id peer change).get? other =
      if other = id then some (change (book.track id peer).1) else book.get? other := by
  have own : (change (book.track id peer).1).id = id := by
    rw [same, track_fst]
    cases found : book.get? id with
    | some d => exact keyed id d found
    | none => rfl
  rw [revise, get?_put, own, get?_track]
  split <;> rfl

theorem keyed_revise (keyed : book.Keyed) (same : ∀ d, (change d).id = d.id) :
    (book.revise id peer change).Keyed := by
  intro other d found
  rw [get?_revise keyed same] at found
  split at found
  next own =>
    cases found
    rw [same, track_fst, own]
    cases known : book.get? id with
    | some d => exact keyed id d known
    | none => rfl
  · exact keyed other d found

theorem lastSent_revise (keyed : book.Keyed) (same : ∀ d, (change d).id = d.id) :
    (book.revise id peer change).lastSent other =
      if other = id then (change (book.track id peer).1).lastSent else book.lastSent other := by
  rw [lastSent, get?_revise keyed same]
  split <;> rfl

theorem lastReceived_revise (keyed : book.Keyed) (same : ∀ d, (change d).id = d.id) :
    (book.revise id peer change).lastReceived other =
      if other = id then (change (book.track id peer).1).lastReceived
      else book.lastReceived other := by
  rw [lastReceived, get?_revise keyed same]
  split <;> rfl

theorem lastSent_track : (book.track id peer).1.lastSent = book.lastSent id := by
  rw [track_fst, lastSent]
  cases book.get? id <;> rfl

theorem lastReceived_track : (book.track id peer).1.lastReceived = book.lastReceived id := by
  rw [track_fst, lastReceived]
  cases book.get? id <;> rfl

theorem compose_fst (book : DialogueBook) (id : Uuid) (peer : String) (step : Step) :
    (book.compose id peer step).1 = ⟨book.lastSent id + 1, book.lastReceived id, step⟩ := by
  rw [← @lastSent_track book id peer, ← @lastReceived_track book id peer]
  rfl

theorem keyed_compose (keyed : book.Keyed) (step : Step) : (book.compose id peer step).2.Keyed :=
  keyed_revise keyed Dialogue.send_id

theorem lastSent_compose (keyed : book.Keyed) (step : Step) :
    (book.compose id peer step).2.lastSent other =
      if other = id then book.lastSent id + 1 else book.lastSent other := by
  rw [← @lastSent_track book id peer]
  exact lastSent_revise keyed Dialogue.send_id

theorem lastReceived_compose (keyed : book.Keyed) (step : Step) :
    (book.compose id peer step).2.lastReceived other = book.lastReceived other := by
  refine (lastReceived_revise keyed Dialogue.send_id).trans ?_
  split
  next same => rw [same, ← @lastReceived_track book id peer]; rfl
  · rfl

theorem keyed_receive (keyed : book.Keyed) (d : Delivery) : (book.receive d).Keyed := by
  rw [receive]
  split
  · exact keyed
  next m _ =>
    split
    · exact keyed_revise keyed (Dialogue.receive_id m.msgId)
    · exact keyed

theorem lastSent_receive (keyed : book.Keyed) (d : Delivery) :
    (book.receive d).lastSent other = book.lastSent other := by
  rw [receive]
  split
  · rfl
  next m _ =>
    split
    next id _ =>
      rw [lastSent_revise keyed (Dialogue.receive_id m.msgId)]
      split
      next same => rw [same, ← @lastSent_track book id d.origin]; rfl
      · rfl
    · rfl

theorem lastReceived_receive (keyed : book.Keyed) {d : Delivery} {m : NegotiationMessage}
    (body : d.body = .negotiation m) (spelled : Uuid.parse? d.conversationId = some id) :
    (book.receive d).lastReceived other =
      if other = id then m.msgId else book.lastReceived other := by
  simp only [receive, body, spelled]
  exact lastReceived_revise keyed (Dialogue.receive_id m.msgId)

theorem put_put (d d' : Dialogue) (same : d'.id = d.id) : (book.put d).put d' = book.put d' := by
  rw [put, put, put, same]
  congr 1
  refine Std.ExtTreeMap.ext_getElem? fun k => ?_
  rw [Std.ExtTreeMap.getElem?_insert, Std.ExtTreeMap.getElem?_insert,
    Std.ExtTreeMap.getElem?_insert]
  split <;> rfl

theorem propose_eq_compose (s : Seller) (keyed : s.book.Keyed) {d : Delivery}
    {m : NegotiationMessage} (body : d.body = .negotiation m)
    (spelled : Uuid.parse? d.conversationId = some id) :
    s.propose d.origin d.conversationId m.msgId =
      let (reply, book) := (s.book.receive d).compose id d.origin (.propose (.offers s.offers))
      ({ s with book },
        some (.negotiation d.conversationId d.origin reply.msgId reply.target reply.step)) := by
  have received : s.book.receive d = s.book.revise id d.origin (·.receive m.msgId) := by
    simp only [receive, body, spelled]
  have known : ((s.book.receive d).track id d.origin).1 =
      ((s.book.track id d.origin).1.receive m.msgId) := by
    rw [received, track_fst, get?_revise keyed (Dialogue.receive_id m.msgId), if_pos rfl]
    rfl
  have filed : ((s.book.receive d).track id d.origin).2 = s.book.receive d := by
    rw [received, track, get?_revise keyed (Dialogue.receive_id m.msgId), if_pos rfl]
  rw [Seller.propose, join?, spelled, Option.map_some]
  dsimp only
  rw [compose, revise, known, filed, received, revise]
  dsimp only
  rw [put_put _ _ (Dialogue.send_id _)]

inductive Entry where
  | said (p : Ledger.Posting)
  | heard (p : Ledger.Posting)

def Entry.said? : Entry → Option Ledger.Posting
  | .said p => some p
  | .heard _ => none

def Entry.heard? : Entry → Option Ledger.Posting
  | .said _ => none
  | .heard p => some p

def said (diary : List Entry) : List Ledger.Posting := diary.filterMap Entry.said?

def heard (diary : List Entry) : List Ledger.Posting := diary.filterMap Entry.heard?

def lastHeard (diary : List Entry) : UInt32 :=
  ((heard diary).getLast?.map (·.message.msgId)).getD 0

variable {diary : List Entry} {p : Ledger.Posting}

theorem mem_said : p ∈ said diary ↔ .said p ∈ diary := by
  rw [said, List.mem_filterMap]
  constructor
  · rintro ⟨e, mem, same⟩
    cases e with
    | said q => cases same; exact mem
    | heard q => cases same
  · intro mem
    exact ⟨.said p, mem, rfl⟩

theorem mem_heard : p ∈ heard diary ↔ .heard p ∈ diary := by
  rw [heard, List.mem_filterMap]
  constructor
  · rintro ⟨e, mem, same⟩
    cases e with
    | said q => cases same
    | heard q => cases same; exact mem
  · intro mem
    exact ⟨.heard p, mem, rfl⟩

theorem said_append (xs ys : List Entry) : said (xs ++ ys) = said xs ++ said ys :=
  List.filterMap_append

theorem heard_append (xs ys : List Entry) : heard (xs ++ ys) = heard xs ++ heard ys :=
  List.filterMap_append

/-- A diary in which messages are numbered from 1 on, and refer to what has been heard last. -/
structure Numbered (diary : List Entry) : Prop where
  numbers : ∀ k p, (said diary)[k]? = some p → p.message.msgId = UInt32.ofNat (k + 1)
  targets : ∀ front p back, diary = front ++ .said p :: back → p.message.target = lastHeard front

/-- The message has the numbers that are due behind the diary. -/
structure Next (diary : List Entry) (m : NegotiationMessage) : Prop where
  number : m.msgId = UInt32.ofNat ((said diary).length + 1)
  target : m.target = lastHeard diary

/-- The book holds the numbers that the diary of a dialogue asks for. -/
structure Keeps (book : DialogueBook) (id : Uuid) (diary : List Entry) : Prop where
  keyed : book.Keyed
  sent : book.lastSent id = UInt32.ofNat (said diary).length
  received : book.lastReceived id = lastHeard diary
  numbered : Numbered diary

theorem numbered_nil : Numbered [] where
  numbers k p h := by simp [said] at h
  targets front p back h := by simp at h

theorem keeps_empty (id : Uuid) : empty.Keeps id [] where
  keyed := keyed_empty
  sent := by simp [lastSent, said]
  received := by simp [lastReceived, lastHeard, heard]
  numbered := numbered_nil

theorem split_concat {α : Type} {xs front back : List α} {x y : α}
    (split : xs ++ [x] = front ++ y :: back) :
    xs = front ∧ x = y ∨ ∃ back', xs = front ++ y :: back' := by
  rcases List.eq_nil_or_concat back with rfl | ⟨back', z, rfl⟩
  · obtain ⟨rfl, last⟩ := List.append_inj' split rfl
    exact .inl ⟨rfl, List.singleton_inj.mp last⟩
  · have split : xs ++ [x] = (front ++ y :: back') ++ [z] := by
      rw [split, List.concat_eq_append, List.append_assoc, List.cons_append]
    exact .inr ⟨back', (List.append_inj' split rfl).1⟩

theorem Numbered.concat_said (numbered : Numbered diary) (next : Next diary p.message) :
    Numbered (diary ++ [.said p]) where
  numbers k q found := by
    have whole : said (diary ++ [.said p]) = said diary ++ [p] := said_append _ _
    rw [whole] at found
    by_cases inside : k < (said diary).length
    · rw [List.getElem?_append_left inside] at found
      exact numbered.numbers k q found
    · have last : k = (said diary).length := by
        have bound := (List.getElem?_eq_some_iff.mp found).1
        rw [List.length_append, List.length_singleton] at bound
        omega
      rw [last, List.getElem?_concat_length] at found
      cases found
      rw [last, next.number]
  targets front q back split := by
    rcases split_concat split with ⟨rfl, same⟩ | ⟨back', split⟩
    · cases same
      exact next.target
    · exact numbered.targets front q back' split

theorem Numbered.concat_heard (numbered : Numbered diary) (p : Ledger.Posting) :
    Numbered (diary ++ [.heard p]) where
  numbers k q found := by
    have whole : said (diary ++ [.heard p]) = said diary :=
      (said_append _ _).trans (List.append_nil _)
    rw [whole] at found
    exact numbered.numbers k q found
  targets front q back split := by
    rcases split_concat split with ⟨-, same⟩ | ⟨back', split⟩
    · cases same
    · exact numbered.targets front q back' split

theorem Keeps.number (keeps : book.Keeps id diary) :
    book.lastSent id + 1 = UInt32.ofNat ((said diary).length + 1) := by
  rw [keeps.sent, UInt32.ofNat_add]
  rfl

theorem Keeps.next (keeps : book.Keeps id diary) (peer : String) (step : Step) :
    Next diary (book.compose id peer step).1 where
  number := by rw [compose_fst, keeps.number]
  target := by rw [compose_fst, keeps.received]

theorem Keeps.compose (keeps : book.Keeps id diary) (agent peer : String) (step : Step) :
    (book.compose id peer step).2.Keeps id
      (diary ++ [.said ⟨agent, peer, (book.compose id peer step).1⟩]) where
  keyed := keyed_compose keeps.keyed step
  sent := by
    rw [lastSent_compose keeps.keyed, if_pos rfl, keeps.number, said_append, List.length_append]
    rfl
  received := by
    rw [lastReceived_compose keeps.keyed, keeps.received, lastHeard, lastHeard, heard_append]
    simp [heard, Entry.heard?]
  numbered := keeps.numbered.concat_said (keeps.next peer step)

theorem Keeps.compose_other {other : Uuid} (keeps : book.Keeps id diary) (apart : other ≠ id)
    (peer : String) (step : Step) : (book.compose other peer step).2.Keeps id diary where
  keyed := keyed_compose keeps.keyed step
  sent := by rw [lastSent_compose keeps.keyed, if_neg apart.symm, keeps.sent]
  received := by rw [lastReceived_compose keeps.keyed, keeps.received]
  numbered := keeps.numbered

/-- The message of a dialogue that a delivery brings. -/
def reading? (id : Uuid) (agent : String) (d : Delivery) : Option Ledger.Posting :=
  match d.body with
  | .text _ => none
  | .negotiation m =>
    if Uuid.parse? d.conversationId = some id then some ⟨d.origin, agent, m⟩ else none

theorem Keeps.receive (keeps : book.Keeps id diary) (agent : String) (d : Delivery) :
    (book.receive d).Keeps id (diary ++ (reading? id agent d).toList.map .heard) := by
  have silent (same : (book.receive d).lastReceived id = book.lastReceived id)
      (nothing : reading? id agent d = none) :
      (book.receive d).Keeps id (diary ++ (reading? id agent d).toList.map .heard) := by
    rw [nothing, Option.toList_none, List.map_nil, List.append_nil]
    exact ⟨keyed_receive keeps.keyed d, (lastSent_receive keeps.keyed d).trans keeps.sent,
      same.trans keeps.received, keeps.numbered⟩
  cases body : d.body with
  | text t =>
    exact silent (by simp only [DialogueBook.receive, body]) (by simp only [reading?, body])
  | negotiation m =>
    cases spelled : Uuid.parse? d.conversationId with
    | none =>
      refine silent (by simp only [DialogueBook.receive, body, spelled]) ?_
      simp only [reading?, body, spelled, reduceCtorEq, if_false]
    | some other =>
      have received := @lastReceived_receive book other id keeps.keyed d m body spelled
      by_cases same : other = id
      · have found : reading? id agent d = some ⟨d.origin, agent, m⟩ := by
          simp only [reading?, body, spelled, same, if_true]
        rw [found]
        refine ⟨keyed_receive keeps.keyed d, ?_, ?_, keeps.numbered.concat_heard _⟩
        · have whole : said (diary ++ [.heard ⟨d.origin, agent, m⟩]) = said diary :=
            (said_append _ _).trans (List.append_nil _)
          rw [lastSent_receive keeps.keyed, keeps.sent, Option.toList_some, List.map_singleton,
            whole]
        · rw [received, if_pos same.symm, Option.toList_some, List.map_singleton, lastHeard,
            heard_append]
          simp [heard, Entry.heard?]
      · refine silent (by rw [received, if_neg (Ne.symm same)]) ?_
        simp [reading?, body, spelled, same]

end DialogueBook

end AgentBroker
