import AgentBroker.Agent.Gathering
import AgentBroker.Proofs.Broker.Arrivals

/-!
# What handlers hear

Every notice with news makes one callback, and the news can be read off it again. So the handler of
an agent to which a letter is relayed hears of it once, by the callback for what the letter says.
-/

namespace AgentBroker

namespace Callback

def news : Callback → News
  | error _ report => .error report
  | undeliverable _ conversationId destination => .undeliverable conversationId destination
  | searchResult searchId agents => .searchResult searchId agents
  | message origin conversationId content => .delivery ⟨origin, conversationId, .text content⟩
  | called origin conversationId msgId target content =>
    .delivery ⟨origin, conversationId, .negotiation ⟨msgId, target, .call content⟩⟩
  | proposed origin conversationId msgId target proposal =>
    .delivery ⟨origin, conversationId, .negotiation ⟨msgId, target, .propose proposal⟩⟩
  | accepted origin conversationId msgId target =>
    .delivery ⟨origin, conversationId, .negotiation ⟨msgId, target, .accept⟩⟩
  | declined origin conversationId msgId target =>
    .delivery ⟨origin, conversationId, .negotiation ⟨msgId, target, .decline⟩⟩

/-- The callback tells what a letter of `origin` says. -/
inductive Tells (origin : String) (letter : Letter) : Callback → Prop
  | message {content : String} (body : letter.body = .text content) :
      Tells origin letter (.message origin letter.conversationId content)
  | called {m : NegotiationMessage} {content : CallContent} (body : letter.body = .negotiation m)
      (step : m.step = .call content) :
      Tells origin letter (.called origin letter.conversationId m.msgId m.target content)
  | proposed {m : NegotiationMessage} {proposal : Proposal} (body : letter.body = .negotiation m)
      (step : m.step = .propose proposal) :
      Tells origin letter (.proposed origin letter.conversationId m.msgId m.target proposal)
  | accepted {m : NegotiationMessage} (body : letter.body = .negotiation m)
      (step : m.step = .accept) :
      Tells origin letter (.accepted origin letter.conversationId m.msgId m.target)
  | declined {m : NegotiationMessage} (body : letter.body = .negotiation m)
      (step : m.step = .decline) :
      Tells origin letter (.declined origin letter.conversationId m.msgId m.target)

theorem news_ofDelivery (d : Delivery) : (ofDelivery d).news = .delivery d := by
  obtain ⟨origin, conversationId, body⟩ := d
  cases body with
  | text s => rfl
  | negotiation m =>
    obtain ⟨msgId, target, step⟩ := m
    cases step <;> rfl

theorem tells_ofDelivery (origin : String) (letter : Letter) :
    Tells origin letter (ofDelivery ⟨origin, letter.conversationId, letter.body⟩) := by
  rw [ofDelivery]
  cases body : letter.body with
  | text s => exact .message body
  | negotiation m =>
    dsimp only
    cases step : m.step with
    | call content => exact .called body step
    | propose proposal => exact .proposed body step
    | accept => exact .accepted body step
    | decline => exact .declined body step

def ofNotices (notices : List Notice) : List Callback := notices.filterMap ofNotice?

theorem ofNotice?_eq_none {n : Notice} (silent : n.news = none) : ofNotice? n = none := by
  rw [ofNotice?, silent, Option.map_none]

theorem exists_ofNotice? {n : Notice} {news : News} (tells : n.news = some news) :
    ∃ c, ofNotice? n = some c ∧ c.news = news := by
  rw [ofNotice?, tells, Option.map_some]
  refine ⟨_, rfl, ?_⟩
  cases news with
  | delivery d => exact news_ofDelivery d
  | _ => rfl

end Callback

namespace Handler

def hearAll (h : Handler) (callbacks : List Callback) : Handler :=
  callbacks.foldl (fun h c => (h.hear c).1) h

theorem hearAll_recorder (r : Record) (callbacks : List Callback) :
    (recorder r).hearAll callbacks = recorder (r ++ callbacks) := by
  induction callbacks generalizing r with
  | nil => rw [List.append_nil]; rfl
  | cons c rest ih =>
    refine (ih (r ++ [c])).trans ?_
    rw [List.append_assoc]
    rfl

theorem hearAll_hearNotice (h : Handler) (n : Notice) (callbacks : List Callback) :
    (h.hearNotice n).1.hearAll callbacks =
      h.hearAll ((Callback.ofNotice? n).toList ++ callbacks) := by
  rw [hearNotice]
  cases Callback.ofNotice? n <;> rfl

end Handler

namespace Gathering

variable {g : Gathering} {name : String} {m : Member}

def handler? (g : Gathering) (name : String) : Option Handler := (g.member? name).map (·.handler)

theorem member?_put (g : Gathering) (name : String) (m : Member) :
    (g.put name m).member? name = (g.member? name).map fun _ => m := by
  rw [member?, member?, put]
  dsimp only
  induction g.members with
  | nil => rfl
  | cons first rest ih =>
    obtain ⟨other, old⟩ := first
    rw [List.map_cons, List.lookup_cons, List.lookup_cons]
    by_cases same : name = other
    · subst same
      simp
    · rw [beq_false_of_ne same]
      exact ih

theorem handler?_send (g : Gathering) (name : String) (m : Member) (e : Envelope) :
    (g.send name m e).2.handler? name = (g.member? name).map fun _ => m.handler := by
  rw [send, handler?]
  cases m.access with
  | inProcess a =>
    dsimp only
    rw [member?_put, Option.map_map]
    rfl
  | remote a =>
    dsimp only
    rw [member?_put, Option.map_map]
    rfl

theorem handler?_hear (g : Gathering) (name : String) (n : Notice) :
    (g.hear name n).handler? name = (g.handler? name).map fun h => (h.hearNotice n).1 := by
  rw [hear]
  cases found : g.member? name with
  | none => rw [handler?, found]; rfl
  | some m =>
    have before : g.handler? name = some m.handler := by rw [handler?, found]; rfl
    rw [before, Option.map_some]
    dsimp only
    rcases m.handler.hearNotice n with ⟨handler, _ | e⟩
    · dsimp only
      rw [handler?, member?_put, found]
      rfl
    · dsimp only
      rw [handler?_send, found]
      rfl

theorem handler?_foldl_hear (g : Gathering) (name : String) (notices : List Notice) :
    (notices.foldl (hear · name) g).handler? name =
      (g.handler? name).map (·.hearAll (Callback.ofNotices notices)) := by
  induction notices generalizing g with
  | nil =>
    exact Option.map_id.symm ▸ rfl
  | cons n rest ih =>
    rw [List.foldl_cons, ih, handler?_hear, Option.map_map]
    congr 1
    funext h
    rw [Function.comp_apply, Handler.hearAll_hearNotice, Callback.ofNotices, Callback.ofNotices,
      List.filterMap_cons]
    cases Callback.ofNotice? n <;> rfl

theorem handler?_deliver (g : Gathering) (name : String) {m : Member} {channel : Channel}
    (reads : m.reading? = some channel) :
    (g.deliver name m).handler? name = (g.handler? name).map
      (·.hearAll (Callback.ofNotices (g.timeline.broker.mailboxes.contents channel))) := by
  rw [deliver, reads]
  exact handler?_foldl_hear _ _ _

end Gathering

namespace Broker

variable {b : Broker} {now elapsed : Nanos} {awaited : Bool} {agent : String} {e : Envelope}
  {letter : Letter}

theorem posted_letter (connected : b.isConnected agent)
    (asks : e.request = some (.sendMessage letter))
    (relayed : (b.dispatch now elapsed agent e).1 = .ok ()) :
    ∃ channel, b.session? letter.destination = some channel ∧
      b.posted (.command now elapsed awaited (.envelope agent e)) =
        [(channel, .delivery agent letter.conversationId letter.body)] := by
  have sending := sendLetter_spec b now agent letter
  rw [posted, after, apply, if_pos connected]
  rw [dispatch, asks] at relayed ⊢
  simp only [run] at relayed ⊢
  rcases ran : b.sendLetter now agent letter with ⟨outcome, b'⟩
  rw [ran] at sending relayed
  cases sending with
  | absent | refused | lost => cases relayed
  | @arrives channel accepted reached =>
    exact ⟨channel, (reach?_eq_some.mp reached).1, List.drop_left⟩

/-- A letter that is relayed puts one notice into the mailbox of its destination, and nothing else
into any mailbox. The notice makes one callback, which tells who wrote the letter and what it says:
whoever reads the mailbox is told it once, behind the callbacks for what has waited there before. In
general, a notice makes no callback without news, and otherwise one, off which all of the news can
be read; a member of a gathering is told just these callbacks for the notices that wait for it, in
their order; and a recorder keeps all that it is told. -/
theorem relayed_heard (connected : b.isConnected agent)
    (asks : e.request = some (.sendMessage letter))
    (relayed : (b.dispatch now elapsed agent e).1 = .ok ()) :
    let mailboxes := (b.after (.command now elapsed awaited (.envelope agent e))).mailboxes
    (∃ channel n c, b.session? letter.destination = some channel ∧
      (∀ other, mailboxes.contents other =
        b.mailboxes.contents other ++ if other = channel then [n] else []) ∧
      Callback.ofNotice? n = some c ∧ c.Tells agent letter ∧
      ∀ (g : Gathering) (name : String) (m : Member),
        g.timeline.broker.mailboxes = mailboxes → m.reading? = some channel →
        (g.deliver name m).handler? name = (g.handler? name).map
          (·.hearAll (Callback.ofNotices (b.mailboxes.contents channel) ++ [c]))) ∧
    (∀ n : Notice, (n.news = none → Callback.ofNotice? n = none) ∧
      ∀ news, n.news = some news → ∃ c, Callback.ofNotice? n = some c ∧ c.news = news) ∧
    (∀ (g : Gathering) (name : String) (m : Member) (channel : Channel),
      m.reading? = some channel →
      (g.deliver name m).handler? name = (g.handler? name).map
        (·.hearAll (Callback.ofNotices (g.timeline.broker.mailboxes.contents channel)))) ∧
    ∀ (r : Record) (callbacks : List Callback),
      (Handler.recorder r).hearAll callbacks = .recorder (r ++ callbacks) := by
  intro mailboxes
  refine ⟨?_, fun n => ⟨Callback.ofNotice?_eq_none, fun news => Callback.exists_ofNotice?⟩,
    fun g name m channel => Gathering.handler?_deliver g name, Handler.hearAll_recorder⟩
  obtain ⟨channel, session, posted⟩ := posted_letter connected asks relayed
  let n := Notice.delivery agent letter.conversationId letter.body
  have contents (other : Channel) : mailboxes.contents other =
      b.mailboxes.contents other ++ if other = channel then [n] else [] := by
    rw [contents_after rfl, arrivals, posted]
    by_cases same : other = channel
    · simp [same, n]
    · simp [same, Ne.symm same]
  refine ⟨channel, n, _, session, contents, rfl, Callback.tells_ofDelivery agent letter, ?_⟩
  intro g name m after reads
  rw [Gathering.handler?_deliver g name reads, after, contents, if_pos rfl, Callback.ofNotices,
    List.filterMap_append]
  rfl

/-- A seller calls on a buyer. -/
theorem relayed_heard_call :
    let b := replay default
      [.command 0 0 true (.connect "buyer" 0 0), .command 0 0 true (.connect "seller" 1 1)]
    let e := Envelope.negotiation "sale" "buyer" 3 0 (.call (.text "?"))
    let b' := b.after (.command 0 0 false (.envelope "seller" e))
    b.isConnected "seller" ∧ (b.dispatch 0 0 "seller" e).1 = .ok () ∧
      ∃ channel n c, b.session? "buyer" = some channel ∧
        (∀ other, b'.mailboxes.contents other =
          b.mailboxes.contents other ++ if other = channel then [n] else []) ∧
        Callback.ofNotice? n = some c ∧
        c.Tells "seller" ⟨"sale", "buyer", .negotiation ⟨3, 0, .call (.text "?")⟩⟩ := by
  intro b e b'
  have connected : b.isConnected "seller" := by decide +kernel
  have relayed : (b.dispatch 0 0 "seller" e).1 = .ok () := by rfl
  obtain ⟨channel, n, c, session, contents, made, tells, -⟩ :=
    (relayed_heard connected rfl relayed).1
  exact ⟨connected, relayed, channel, n, c, session, contents, made, tells⟩

end Broker

end AgentBroker
