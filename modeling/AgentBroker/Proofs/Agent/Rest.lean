import AgentBroker.Proofs.Agent.Hearing

/-!
# A gathering comes to rest

Handlers answer calls for proposals only, and never with a call. So the answers that members give in
one round are answered by nobody in the next: behind two rounds the queue is empty and nothing waits
for a member that listens.
-/

namespace AgentBroker

def Body.isCall : Body → Bool
  | .text _ => false
  | .negotiation m => m.step.move == .call

def Notice.isCall (n : Notice) : Bool :=
  match n.news with
  | some (.delivery d) => d.body.isCall
  | _ => false

/-- The command may put a call for proposals into a mailbox. -/
def Command.mayCall : Command → Bool
  | .send .. | .relay .. => true
  | .envelope _ e =>
    match e.request with
    | some (.sendMessage letter) => letter.body.isCall
    | _ => false
  | _ => false

theorem Notice.isCall_eq_false {n : Notice} (silent : n.isDelivery = false) : n.isCall = false := by
  rw [isDelivery] at silent
  rw [isCall]
  split
  next d news =>
    rw [news] at silent
    cases silent
  · rfl

theorem Command.bringsNotice_eq_false {c : Command} (quiet : c.mayCall = false) :
    c.bringsNotice = false := by
  cases c with
  | send | relay => cases quiet
  | _ => rfl

namespace Broker

variable {b : Broker} {channel : Channel}

theorem isCall_of_mem_deliveries {now : Nanos} {agent : String} {e : Envelope} {request : Request}
    (asks : e.request = some request) (quiet : (Command.envelope agent e).mayCall = false)
    {p : Channel × Notice} (mem : p ∈ b.deliveries now agent request) : p.2.isCall = false := by
  cases request with
  | sendMessage letter =>
    rw [Command.mayCall, asks] at quiet
    rw [deliveries] at mem
    split at mem
    · obtain ⟨c, -, rfl⟩ := List.mem_map.mp mem
      exact quiet
    · cases mem
  | _ => cases mem

theorem isCall_of_mem_posted {e : Event} (quiet : ∀ c, e.command? = some c → c.mayCall = false)
    {p : Channel × Notice} (mem : p ∈ b.posted e) : p.2.isCall = false := by
  cases e with
  | command now elapsed awaited c =>
    have effect := apply_effect b now elapsed awaited c
    rw [posted, after] at mem
    generalize (b.apply now elapsed awaited c).2 = b' at effect mem
    cases effect with
    | @admits agent channel _ fresh =>
      have same : (b.withSession agent channel).mailboxes = b.mailboxes := rfl
      rw [same, List.drop_length] at mem
      cases mem
    | serves connected asks answered =>
      obtain ⟨answers, rest, silent⟩ := answered
      rw [rest.mail, mailboxes_edit, List.drop_left] at mem
      rcases List.mem_append.mp mem with delivered | answer
      · exact isCall_of_mem_deliveries asks (quiet _ rfl) delivered
      · exact Notice.isCall_eq_false (silent p answer)
    | keeps rest silent =>
      rw [rest.mail, List.drop_left, silent (Command.bringsNotice_eq_false (quiet _ rfl))] at mem
      cases mem
  | _ => cases mem

theorem isCall_of_mem_arrived {events : List Event}
    (quiet : ∀ c ∈ commands events, c.mayCall = false) {n : Notice}
    (mem : n ∈ b.arrived channel events) : n.isCall = false := by
  obtain ⟨before, e, later, rfl, arrives⟩ := Run.exists_of_mem_log mem
  obtain ⟨p, posts, rfl⟩ := List.mem_map.mp arrives
  refine isCall_of_mem_posted (fun c brings => quiet c ?_) (List.mem_filter.mp posts).1
  exact List.mem_filterMap.mpr ⟨e, List.mem_append_right _ List.mem_cons_self, brings⟩

end Broker

/-- If no command in the queue may call, then no calls come into mailboxes while the timeline
settles. -/
theorem Timeline.mem_contents_settle {t : Timeline} {channel : Channel} {n : Notice}
    (quiet : ∀ c ∈ t.scheduler.queue, c.mayCall = false)
    (mem : n ∈ t.settle.broker.mailboxes.contents channel) :
    n ∈ t.broker.mailboxes.contents channel ∨ n.isCall = false := by
  have brought (p : Unit × Command) (came : p ∈ t.scheduler.brought t.settling) :
      p.2.mayCall = false := by
    obtain ⟨a, acts, s, brings⟩ := Scheduler.exists_of_mem_brought came
    rcases mem_settling acts with rfl | ⟨maxIdle, rfl⟩
    · cases brings
    · cases List.mem_singleton.mp brings
      rfl
  have inside (e : { e : Broker.Event // e.command? = none }) (acts : .outside e ∈ t.settling) :
      e.1.empties channel = false := by
    rcases mem_settling acts with same | ⟨maxIdle, same⟩
    · cases same
    · cases same
  rw [broker, settle_eq, Scheduler.broker_after,
    Broker.contents_last fun e carries => Scheduler.kept_of_carried carries inside] at mem
  rcases List.mem_append.mp mem with waits | arrives
  · exact .inl waits
  · exact .inr (Broker.isCall_of_mem_arrived (Scheduler.all_of_brought quiet brought).2 arrives)

theorem Notice.isCall_of_called {n : Notice} {origin conversationId : String}
    {msgId target : UInt32} {content : CallContent}
    (told : Callback.ofNotice? n = some (.called origin conversationId msgId target content)) :
    n.isCall := by
  cases news : n.news with
  | none =>
    rw [Callback.ofNotice?_eq_none news] at told
    cases told
  | some told' =>
    obtain ⟨c, same, made⟩ := Callback.exists_ofNotice? news
    cases told.symm.trans same
    rw [isCall, news, ← made]
    rfl

theorem Seller.mayCall_of_propose {s : Seller} {origin conversationId : String} {msgId : UInt32}
    {e : Envelope} (answers : (s.propose origin conversationId msgId).2 = some e)
    (agent : String) : (Command.envelope agent e).mayCall = false := by
  rw [propose] at answers
  split at answers
  · cases answers
  · cases answers
    rfl

/-- A handler answers only a call, and with no call. -/
theorem Handler.hearNotice_answers {h : Handler} {n : Notice} {e : Envelope}
    (answers : (h.hearNotice n).2 = some e) :
    n.isCall ∧ ∀ agent, (Command.envelope agent e).mayCall = false := by
  rw [hearNotice] at answers
  cases told : Callback.ofNotice? n with
  | none =>
    rw [told] at answers
    cases answers
  | some c =>
    rw [told] at answers
    cases h with
    | recorder | silent => cases answers
    | seller s record =>
      cases c with
      | called =>
        exact ⟨Notice.isCall_of_called told, Seller.mayCall_of_propose answers⟩
      | _ => cases answers

theorem Mailboxes.contents_take (m : Mailboxes) (c channel : Channel) :
    (m.take c).2.contents channel = if c = channel then [] else m.contents channel := by
  rw [take, contents]
  dsimp only
  by_cases same : c = channel
  · rw [if_pos same, List.filter_filter, List.map_eq_nil_iff, List.filter_eq_nil_iff]
    simp [same]
  · rw [if_neg same, contents_filter (beq_false_of_ne same)]
    rfl

theorem Numbering.mayCall_stamp (numbering : Numbering) (agent : String) (e : Envelope) :
    (Command.envelope agent (numbering.stamp e).1).mayCall =
      (Command.envelope agent e).mayCall := by
  rw [stamp]
  split
  · rfl
  · rfl

namespace LocalAccess

theorem submit_eq (c : Command) (t : Timeline) :
    (submit c t).2 = { t with scheduler := t.scheduler.enqueue c } := by
  rw [submit, Timeline.enqueue, Scheduler.enqueue]
  cases t.scheduler.enqueue? c with
  | none => rfl
  | some s => rfl

end LocalAccess

namespace Gathering

variable {g g' g'' : Gathering} {name : String} {m : Member} {channel : Channel}
  {notices notices' : List Notice}

/-- Some member reads the mailbox. -/
def Reads (g : Gathering) (channel : Channel) : Prop :=
  ∃ p ∈ g.members, p.2.reading? = some channel

def unread (g : Gathering) (channel : Channel) : List Notice :=
  g.timeline.broker.mailboxes.contents channel

/-- What may have changed behind members who have heard these notices. Those who were told a call
may have answered, and not with a call. -/
structure Heard (g : Gathering) (notices : List Notice) (g' : Gathering) : Prop where
  phase : g'.timeline.scheduler.phase = g.timeline.scheduler.phase
  sweeper : g'.timeline.sweeper = g.timeline.sweeper
  now : g'.timeline.now = g.timeline.now
  reads : ∀ channel, g'.Reads channel → g.Reads channel
  mail : ∀ channel, g'.unread channel ⊆ g.unread channel
  queue : ∀ c ∈ g'.timeline.scheduler.queue, c ∈ g.timeline.scheduler.queue ∨
    c.mayCall = false ∧ ∃ n ∈ notices, n.isCall

theorem Heard.refl (g : Gathering) : Heard g [] g :=
  ⟨rfl, rfl, rfl, fun _ => id, fun _ => List.Subset.refl _, fun _ => .inl⟩

theorem Heard.trans (first : Heard g notices g') (second : Heard g' notices' g'') :
    Heard g (notices ++ notices') g'' where
  phase := second.phase.trans first.phase
  sweeper := second.sweeper.trans first.sweeper
  now := second.now.trans first.now
  reads channel := first.reads channel ∘ second.reads channel
  mail channel := List.Subset.trans (second.mail channel) (first.mail channel)
  queue c mem := by
    rcases second.queue c mem with old | ⟨quiet, n, heard, call⟩
    · refine (first.queue c old).imp_right fun ⟨quiet, n, heard, call⟩ => ⟨quiet, n, ?_, call⟩
      exact List.mem_append_left _ heard
    · exact .inr ⟨quiet, n, List.mem_append_right _ heard, call⟩

theorem Heard.mono (h : Heard g notices g') (subset : notices ⊆ notices') : Heard g notices' g' :=
  { h with queue := fun c mem =>
      (h.queue c mem).imp_right fun ⟨quiet, n, heard, call⟩ => ⟨quiet, n, subset heard, call⟩ }

theorem reads_put {old : Member} (found : g.member? name = some old)
    (same : m.reading? = old.reading?) (reads : (g.put name m).Reads channel) :
    g.Reads channel := by
  obtain ⟨p, mem, reads⟩ := reads
  obtain ⟨⟨other, m'⟩, was, rfl⟩ := List.mem_map.mp mem
  dsimp only at reads
  split at reads
  · obtain ⟨front, back, split, -⟩ := List.lookup_eq_some_iff.mp found
    exact ⟨(name, old), by simp [split], same.symm.trans reads⟩
  · exact ⟨_, was, reads⟩

theorem heard_put {old : Member} (found : g.member? name = some old)
    (same : m.reading? = old.reading?) : Heard g [] (g.put name m) :=
  ⟨rfl, rfl, rfl, fun _ => reads_put found same, fun _ => List.Subset.refl _, fun _ => .inl⟩

theorem heard_enqueue (g : Gathering) {n : Notice} {c : Command} (call : n.isCall)
    (quiet : c.mayCall = false) :
    Heard g [n] { g with timeline.scheduler := g.timeline.scheduler.enqueue c } := by
  rw [Scheduler.enqueue, Scheduler.enqueue?_eq]
  split
  · exact (Heard.refl g).mono (List.nil_subset _)
  · refine ⟨rfl, rfl, rfl, fun _ => id, fun _ => List.Subset.refl _, fun c' mem => ?_⟩
    rcases List.mem_append.mp mem with old | new
    · exact .inl old
    · cases List.mem_singleton.mp new
      exact .inr ⟨quiet, n, List.mem_singleton_self n, call⟩

theorem heard_send {old : Member} {n : Notice} {e : Envelope}
    (found : g.member? name = some old) (same : m.reading? = old.reading?) (call : n.isCall)
    (quiet : ∀ agent, (Command.envelope agent e).mayCall = false) :
    Heard g [n] (g.send name m e).2 := by
  rw [send]
  cases m.access with
  | inProcess a =>
    have stamped := (a.numbering.mayCall_stamp a.publicKey e).trans (quiet a.publicKey)
    have sent := heard_enqueue g call stamped
    rw [← LocalAccess.submit_eq] at sent
    exact sent.trans (heard_put found same)
  | remote a =>
    refine Heard.mono ?_ (List.nil_subset [n])
    exact heard_put found same

theorem heard_hear (g : Gathering) (name : String) (n : Notice) : Heard g [n] (g.hear name n) := by
  rw [hear]
  cases found : g.member? name with
  | none => exact (Heard.refl g).mono (List.nil_subset _)
  | some m =>
    dsimp only
    cases hears : m.handler.hearNotice n with
    | mk handler answer =>
      cases answer with
      | none =>
        refine Heard.mono ?_ (List.nil_subset [n])
        exact heard_put found rfl
      | some e =>
        have answers : (m.handler.hearNotice n).2 = some e := congrArg Prod.snd hears
        obtain ⟨call, quiet⟩ := Handler.hearNotice_answers answers
        exact heard_send found rfl call quiet

theorem heard_foldl_hear (g : Gathering) (name : String) (notices : List Notice) :
    Heard g notices (notices.foldl (hear · name) g) := by
  induction notices generalizing g with
  | nil => exact .refl g
  | cons n rest ih => exact (g.heard_hear name n).trans (ih (g.hear name n))

def taking (g : Gathering) (channel : Channel) : Gathering :=
  { g with timeline := g.timeline.mapMailboxes fun m => (m.take channel).2 }

theorem unread_taking (g : Gathering) (c channel : Channel) :
    (g.taking c).unread channel = if c = channel then [] else g.unread channel :=
  Mailboxes.contents_take _ c channel

theorem heard_taking (g : Gathering) (channel : Channel) : Heard g [] (g.taking channel) := by
  refine ⟨rfl, rfl, rfl, fun _ => id, fun other => ?_, fun _ => .inl⟩
  rw [unread_taking]
  split
  · exact List.nil_subset _
  · exact List.Subset.refl _

/-- What waits for a member. -/
def awaits (g : Gathering) (m : Member) : List Notice := m.reading?.toList.flatMap g.unread

theorem deliver_eq (reads : m.reading? = some channel) :
    g.deliver name m = (g.unread channel).foldl (hear · name) (g.taking channel) := by
  rw [deliver, reads]
  rfl

theorem heard_deliver (g : Gathering) (name : String) (m : Member) :
    Heard g (g.awaits m) (g.deliver name m) := by
  cases reads : m.reading? with
  | none =>
    rw [deliver, awaits, reads]
    exact .refl g
  | some channel =>
    rw [deliver_eq reads, awaits, reads, Option.toList_some, List.flatMap_singleton]
    exact (g.heard_taking channel).trans (heard_foldl_hear _ name _)

theorem unread_deliver (g : Gathering) (name : String) (reads : m.reading? = some channel) :
    (g.deliver name m).unread channel = [] := by
  have less := (heard_foldl_hear (g.taking channel) name (g.unread channel)).mail channel
  rw [unread_taking, if_pos rfl] at less
  rw [deliver_eq reads]
  exact List.subset_nil.mp less

theorem Heard.awaits_subset (h : Heard g notices g') (m : Member) : g'.awaits m ⊆ g.awaits m := by
  intro n mem
  obtain ⟨channel, reads, waits⟩ := List.mem_flatMap.mp mem
  exact List.mem_flatMap.mpr ⟨channel, reads, h.mail channel waits⟩

def deliverAll (g : Gathering) (members : List (String × Member)) : Gathering :=
  members.foldl (fun g (name, m) => g.deliver name m) g

theorem heard_deliverAll (g : Gathering) (members : List (String × Member)) :
    Heard g (members.flatMap (g.awaits ·.2)) (g.deliverAll members) := by
  induction members generalizing g with
  | nil => exact .refl g
  | cons p rest ih =>
    have first := g.heard_deliver p.1 p.2
    refine (first.trans (ih (g.deliver p.1 p.2))).mono fun n mem => ?_
    rcases List.mem_append.mp mem with own | later
    · exact List.mem_append_left _ own
    · obtain ⟨p', listed, waits⟩ := List.mem_flatMap.mp later
      have waited := first.awaits_subset p'.2 waits
      exact List.mem_append_right _ (List.mem_flatMap.mpr ⟨p', listed, waited⟩)

theorem unread_deliverAll (g : Gathering) {members : List (String × Member)}
    {p : String × Member} (mem : p ∈ members) (reads : p.2.reading? = some channel) :
    (g.deliverAll members).unread channel = [] := by
  induction members generalizing g with
  | nil => cases mem
  | cons first rest ih =>
    rcases List.mem_cons.mp mem with rfl | later
    · have less := (heard_deliverAll (g.deliver p.1 p.2) rest).mail channel
      rw [unread_deliver g p.1 reads] at less
      exact List.subset_nil.mp less
    · exact ih (g.deliver first.1 first.2) later

def worked (g : Gathering) : Gathering := { g with timeline := g.timeline.settle }

theorem heard_round (g : Gathering) :
    Heard g.worked (g.members.flatMap (g.worked.awaits ·.2)) g.round :=
  heard_deliverAll g.worked g.members

theorem reads_round (reads : g.round.Reads channel) : g.Reads channel :=
  g.heard_round.reads channel reads

theorem unread_round (reads : g.round.Reads channel) : g.round.unread channel = [] := by
  obtain ⟨p, mem, reads⟩ := reads_round reads
  exact unread_deliverAll g.worked mem reads

theorem answers_of_mem_round {c : Command} (mem : c ∈ g.round.timeline.scheduler.queue) :
    c.mayCall = false ∧ ∃ n ∈ g.members.flatMap (g.worked.awaits ·.2), n.isCall := by
  have empty : g.worked.timeline.scheduler.queue = [] := g.timeline.idle_settle.queue
  rcases g.heard_round.queue c mem with old | answers
  · rw [empty] at old
    cases old
  · exact answers

theorem turns_round (turns : ∀ w ∈ g.timeline.sweeper, 0 < w.interval) :
    ∀ w ∈ g.round.timeline.sweeper, 0 < w.interval := by
  intro w mem
  rw [g.heard_round.sweeper] at mem
  obtain ⟨old, had, s, rfl⟩ := Timeline.exists_sweeper_settle mem
  rw [Sweeper.interval_sweep]
  exact turns old had

theorem isCall_of_mem_awaits (quiet : ∀ c ∈ g.timeline.scheduler.queue, c.mayCall = false)
    (read : ∀ channel, g.Reads channel → g.unread channel = []) {p : String × Member}
    (mem : p ∈ g.members) {n : Notice} (waits : n ∈ g.worked.awaits p.2) : n.isCall = false := by
  obtain ⟨channel, reads, waits⟩ := List.mem_flatMap.mp waits
  have nothing : g.timeline.broker.mailboxes.contents channel = [] :=
    read channel ⟨p, mem, Option.mem_toList.mp reads⟩
  rcases Timeline.mem_contents_settle quiet waits with before | silent
  · rw [nothing] at before
    cases before
  · exact silent

/-- Members who hear no calls leave the timeline at rest. -/
theorem rests_round (turns : ∀ w ∈ g.timeline.sweeper, 0 < w.interval)
    (quiet : ∀ c ∈ g.timeline.scheduler.queue, c.mayCall = false)
    (read : ∀ channel, g.Reads channel → g.unread channel = []) : g.round.timeline.Rests := by
  have rests := Timeline.rests_settle turns
  have heard := g.heard_round
  refine ⟨⟨?queue, ?phase⟩, ?sweeper⟩
  case queue =>
    rw [List.eq_nil_iff_forall_not_mem]
    intro c mem
    obtain ⟨-, n, hears, call⟩ := answers_of_mem_round mem
    obtain ⟨p, listed, waits⟩ := List.mem_flatMap.mp hears
    rw [isCall_of_mem_awaits quiet read listed waits] at call
    cases call
  case phase =>
    rw [heard.phase]
    exact rests.worker.phase
  case sweeper =>
    rw [heard.sweeper, heard.now]
    exact rests.sweeper

/-- Nothing is left to do: worker and sweeper rest, and a member that still listens has heard all
that came for it, and more may come. -/
structure Rests (g : Gathering) : Prop where
  timeline : g.timeline.Rests
  read : ∀ channel, g.Reads channel → g.unread channel = []
  running : ∀ channel, g.Reads channel → g.isOver channel = false

theorem reads_endRuns (reads : g.endRuns.Reads channel) :
    g.Reads channel ∧ g.isOver channel = false := by
  obtain ⟨p, mem, reads⟩ := reads
  obtain ⟨⟨name, m⟩, was, rfl⟩ := List.mem_map.mp mem
  dsimp only at reads
  split at reads
  next own reading =>
    split at reads
    · cases reads
    next goes =>
      cases reading.symm.trans reads
      exact ⟨⟨(name, m), was, reading⟩, Bool.eq_false_iff.mpr goes⟩
  next idle =>
    cases idle.symm.trans reads

/-- A gathering that settles comes to rest. -/
theorem rests_settle (turns : ∀ w ∈ g.timeline.sweeper, 0 < w.interval) : g.settle.Rests := by
  have rests := rests_round (turns_round turns) (fun c mem => (answers_of_mem_round mem).1)
    fun channel => unread_round
  refine ⟨rests, fun channel reads => ?_, fun channel reads => (reads_endRuns reads).2⟩
  exact unread_round (reads_endRuns reads).1

theorem taking_of_unread (nothing : g.unread channel = []) : g.taking channel = g := by
  have still : g.timeline.broker.mailboxes.waiting.filter (·.1 != channel) =
      g.timeline.broker.mailboxes.waiting := by
    rw [List.filter_eq_self]
    intro p mem
    have other := List.filter_eq_nil_iff.mp (List.map_eq_nil_iff.mp nothing) p mem
    simpa using other
  rw [taking, Timeline.mapMailboxes]
  simp only [Mailboxes.take]
  rw [show g.timeline.scheduler.broker = g.timeline.broker from rfl, still]
  rfl

theorem deliverAll_of_read {members : List (String × Member)}
    (read : ∀ p ∈ members, ∀ channel, p.2.reading? = some channel → g.unread channel = []) :
    g.deliverAll members = g := by
  induction members with
  | nil => rfl
  | cons p rest ih =>
    have first : g.deliver p.1 p.2 = g := by
      cases reads : p.2.reading? with
      | none => rw [deliver, reads]
      | some channel =>
        have nothing := read p List.mem_cons_self channel reads
        rw [deliver_eq reads, nothing, taking_of_unread nothing]
        rfl
    have later := ih fun p' mem => read p' (List.mem_cons_of_mem p mem)
    change (g.deliver p.1 p.2).deliverAll rest = g
    rw [first, later]

theorem Rests.round_eq (rests : g.Rests) : g.round = g := by
  have still : g.worked = g := by
    rw [worked, rests.timeline.settle_eq]
  have delivered := deliverAll_of_read (g := g) fun p mem channel reads =>
    rests.read channel ⟨p, mem, reads⟩
  rw [round, ← worked, still]
  exact delivered

theorem Rests.endRuns_eq (rests : g.Rests) : g.endRuns = g := by
  have still : g.endRuns.members = g.members := by
    refine (List.map_congr_left fun p mem => ?_).trans (List.map_id _)
    cases reads : p.2.reading? with
    | none => simp only [reads, id]
    | some channel =>
      have goes := rests.running channel ⟨p, mem, reads⟩
      simp only [reads, goes, id]
      rfl
  calc g.endRuns = { g with members := g.endRuns.members } := rfl
    _ = g := by rw [still]

/-- Nothing is left to do behind a gathering that has settled. -/
theorem settle_settle (turns : ∀ w ∈ g.timeline.sweeper, 0 < w.interval) :
    g.settle.settle = g.settle := by
  have rests := rests_settle turns
  rw [settle, rests.round_eq, rests.round_eq, rests.endRuns_eq]

end Gathering

end AgentBroker
