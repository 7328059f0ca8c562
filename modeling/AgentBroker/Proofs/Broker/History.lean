import AgentBroker.Broker.Command
import AgentBroker.Proofs.Broker.Dispatch
import AgentBroker.Proofs.Run

/-!
# What happens to a broker

The worker carries out commands. Between two of them, and also in the middle of an envelope, those
who read the mailboxes may take notices out or close them, and others may get hold of the right to
write.
-/

namespace AgentBroker

def Command.bringsNotice : Command → Bool
  | .send .. | .relay .. => true
  | _ => false

def Command.request? (agent : String) : Command → Option Request
  | .envelope sender e => if sender = agent then e.request else none
  | _ => none

namespace Broker

/-- Something that happens to a broker. -/
inductive Event where
  | command (now elapsed : Nanos) (awaited : Bool) (c : Command)
  | close (c : Channel)
  | hold (c : Channel)
  | release (c : Channel)
  | take (c : Channel)
  | takeFirst (c : Channel)

variable {b b' : Broker} {now elapsed : Nanos} {agent : String}

def mapMailboxes (b : Broker) (f : Mailboxes → Mailboxes) : Broker :=
  { b with mailboxes := f b.mailboxes }

def after (b : Broker) : Event → Broker
  | .command now elapsed awaited c => (b.apply now elapsed awaited c).2
  | .close c => b.mapMailboxes (·.close c)
  | .hold c => b.mapMailboxes (·.hold c)
  | .release c => b.mapMailboxes (·.release c)
  | .take c => b.mapMailboxes fun m => (m.take c).2
  | .takeFirst c => b.mapMailboxes fun m => ((m.takeFirst? c).map (·.2)).getD m

def replay (notifications : NotificationSettings) (events : List Event) : Broker :=
  Run.last after (.start notifications) events

theorem replay_append (notifications : NotificationSettings) (events more : List Event) :
    replay notifications (events ++ more) = Run.last after (replay notifications events) more :=
  Run.last_append _ _ _

def withSession (b : Broker) (agent : String) (channel : Channel) : Broker :=
  { b with sessions := b.sessions.insert agent channel }.count .sessionAdmitted

/-- All that carrying out a command can do. -/
inductive Effect (b : Broker) (now : Nanos) : Command → Broker → Prop
  | admits {agent : String} {channel : Channel} {ticket : Ticket}
      (fresh : ¬ b.isConnected agent) :
      Effect b now (.connect agent channel ticket) (b.withSession agent channel)
  | serves {agent : String} {e : Envelope} {request : Request} {b' : Broker}
      (connected : b.isConnected agent) (asks : e.request = some request)
      (answered : Answered (b.edit now agent request) (b.deliveries now agent request) b') :
      Effect b now (.envelope agent e) b'
  | keeps {c : Command} {posts : List (Channel × Notice)} {b' : Broker}
      (rest : Aftermath b posts b') (silent : c.bringsNotice = false → posts = [])
      (idle : ∀ agent request, c.request? agent = some request → ¬ b.isConnected agent) :
      Effect b now c b'

theorem Effect.of_aftermath {c : Command} (h : Aftermath b [] b')
    (idle : ∀ agent, c.request? agent = none) : Effect b now c b' := by
  refine .keeps h (fun _ => rfl) ?_
  intro agent request asks
  rw [idle agent] at asks
  cases asks

theorem connect_eq {channel : Channel} (fresh : ¬ b.isConnected agent) :
    b.connect agent channel = (true, b.withSession agent channel) := by
  rw [connect, if_neg fresh]
  rfl

theorem session?_withSession (channel : Channel) (other : String) :
    (b.withSession agent channel).session? other =
      if other = agent then some channel else b.session? other := by
  unfold session? withSession count
  rw [Std.ExtTreeMap.getElem?_insert]
  by_cases h : other = agent
  · simp [h]
  · simp [h, Ne.symm h]

/-- An admission that is undone at once brings no session, and may cost what the agent had without
one. -/
theorem aftermath_drop_withSession (fresh : ¬ b.isConnected agent) (channel : Channel) :
    Aftermath b [] ((b.withSession agent channel).drop agent) := by
  have dropped := Aftermath.drop (b.withSession agent channel) agent
  have same (a : String) :
      ((b.withSession agent channel).drop agent).session? a = b.session? a := by
    rw [session?_drop, session?_withSession]
    by_cases h : a = agent
    · rw [if_pos h, h, session?_eq_none_iff.mpr (Bool.eq_false_iff.mpr fresh)]
    · rw [if_neg h, if_neg h]
  refine ⟨?_, ?_, dropped.mail, nofun, dropped.notifications⟩
  · intro a
    by_cases h : a = agent
    · rw [same, h, session?_eq_none_iff.mpr (Bool.eq_false_iff.mpr fresh)]
      exact .inr ⟨rfl, b.directory.removeAgent_lacks agent⟩
    · exact .inl ⟨same a, b.directory.removeAgent_sameFor h⟩
  · intro id n h
    exact ⟨(dropped.negotiations id n h).1, same n.initiator, same n.responder⟩

theorem connect_effect (b : Broker) (now elapsed : Nanos) (awaited : Bool) (agent : String)
    (channel : Channel) (ticket : Ticket) :
    Effect b now (.connect agent channel ticket)
      (b.apply now elapsed awaited (.connect agent channel ticket)).2 := by
  by_cases connected : b.isConnected agent
  · rw [apply, connect, if_pos connected]
    exact .of_aftermath ((Aftermath.refl b).count _) fun _ => rfl
  · have admitted : (b.withSession agent channel).isConnected agent :=
      isConnected_iff.mpr ⟨channel, by rw [session?_withSession, if_pos rfl]⟩
    rw [apply, connect_eq connected]
    cases awaited with
    | true => exact .admits connected
    | false =>
      have undone := aftermath_drop_withSession connected channel
      simp only [disconnect, if_pos admitted]
      exact .of_aftermath undone fun _ => rfl

theorem envelope_effect (b : Broker) (now elapsed : Nanos) (awaited : Bool) (agent : String)
    (e : Envelope) :
    Effect b now (.envelope agent e) (b.apply now elapsed awaited (.envelope agent e)).2 := by
  rw [apply]
  by_cases connected : b.isConnected agent
  · rw [if_pos connected]
    cases asks : e.request with
    | none =>
      rw [dispatch, asks]
      refine .of_aftermath ((Aftermath.refl b).count _) ?_
      intro other
      simp [Command.request?, asks]
    | some request => exact .serves connected asks (dispatch_answered b now elapsed agent e asks)
  · rw [if_neg connected]
    refine .keeps (.refl b) (fun _ => rfl) ?_
    intro other request asks
    rw [Command.request?] at asks
    split at asks
    next same => exact same ▸ connected
    · cases asks

theorem apply_effect (b : Broker) (now elapsed : Nanos) (awaited : Bool) (c : Command) :
    Effect b now c (b.apply now elapsed awaited c).2 := by
  cases c with
  | connect agent channel ticket => exact connect_effect b now elapsed awaited agent channel ticket
  | disconnect agent => exact .of_aftermath (.disconnect b agent) fun _ => rfl
  | disconnectSession agent channel =>
    rw [apply]
    split
    · exact .of_aftermath (.disconnectSession b agent channel) fun _ => rfl
    · exact .of_aftermath (.refl b) fun _ => rfl
  | envelope agent e => exact envelope_effect b now elapsed awaited agent e
  | send agent n => exact .keeps (.send b agent n) (fun quiet => Bool.noConfusion quiet) nofun
  | relay receiver n ticket =>
    exact .keeps (.relay b receiver n) (fun quiet => Bool.noConfusion quiet) nofun
  | searchAgents q ticket => exact .of_aftermath (.search b _ q) fun _ => rfl
  | searchServices q ticket => exact .of_aftermath (.search b _ q) fun _ => rfl
  | expireIdle maxIdle => exact .of_aftermath (.expireIdle b now maxIdle) fun _ => rfl
  | stats | sessions | stop => exact .of_aftermath (.refl b) fun _ => rfl

end Broker

end AgentBroker
