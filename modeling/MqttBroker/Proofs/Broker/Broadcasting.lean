import MqttBroker.Proofs.Broker.FanOut
import MqttBroker.Proofs.Broker.Stakes

/-!
What the steps of a run publish.  From one publish to the next no message reaches anybody but what
was retained or queued before, so that what a step has published can be told from the sessions and
connections it leaves.
-/
namespace MqttBroker

/-- The client whose session an operation may change, as `b` has it afterwards: that of the
connection it drives, or the one that expires. -/
def Operation.concerns (b : Broker) : Operation → Option ClientId
  | connect k _ | event k _ => (b.connection k).clientId
  | expire id => some id
  | _ => none

namespace Broker

/-- What a client asks to be published by an operation, if it may write there. -/
def submitted (b : Broker) : Operation → List Publish
  | .event k (.packet (.publish publish)) =>
    match (b.connection k).client with
    | none => []
    | some client =>
      if (b.connection k).isOpen && (b.checkTopicName publish.topic).toBool &&
          b.authorizer.canWrite client publish.topic then [publish]
      else []
  | _ => []

/-- A message that is retained, at whatever QoS, or queued for the client. -/
def OnFile (b : Broker) (id : Option ClientId) (message : Publish) : Prop :=
  (∃ kept, b.retained.get? message.topic = some kept ∧ message = { kept with qos := message.qos }) ∨
    ∃ client session, id = some client ∧ b.session? client = some session ∧
      message ∈ session.queue

/-- Nothing was published.  What is retained stays, and so do the sessions of all but one client,
and all connections but one, unless they are closed or evicted.  No queue gets a message, and the
one connection is handed only messages that were on file. -/
structure Unheard (own : Option ConnectionId) (mine : Option ClientId) (b b' : Broker) : Prop where
  config : b'.config = b.config
  retained : b'.retained = b.retained
  sessions : ∀ id, mine ≠ some id → b'.session? id = b.session? id
  queues : ∀ id next, b'.session? id = some next → ∀ message ∈ next.queue,
    ∃ session, b.session? id = some session ∧ message ∈ session.queue
  others : ∀ k, own ≠ some k → b'.connection k = b.connection k ∨
    b'.connection k = (b.connection k).close ∨ b'.connection k = (b.connection k).evict
  emitted : ∀ k, own = some k → (b.connection k).Emitted (b.OnFile mine) (b'.connection k)

/-- The messages were published one after the other, the last of them just now, and nothing else
was. -/
inductive Broadcasts (own : Option ConnectionId) (mine : Option ClientId) :
    List Publish → Broker → Broker → Prop
  | none {b} : Broadcasts own mine [] b b
  | next {messages message b m left b'} (h : Broadcasts own mine messages b m)
    (hu : Unheard own mine m left) (hp : Published message left b') :
    Broadcasts own mine (messages ++ [message]) b b'

/-- The session of the client was let go: it is gone, or bound to no connection but else what it
was. -/
def LetsGo (mine : Option ClientId) (b b' : Broker) : Prop :=
  ∀ id later, mine = some id → b'.session? id = some later →
    ∃ session, b.session? id = some session ∧ later = { session with connection := none }

/-- An operation publishes what was submitted, and then the given wills; at last, if there are any,
the session is let go of that had them.  Nothing else is published. -/
def Airs (b : Broker) (operation : Operation) (wills : List Will) : Prop :=
  let b' := b.perform operation
  let own := operation.drives b
  let mine := operation.concerns b'
  ∃ m, Broadcasts own mine (b.submitted operation ++ wills.map fun will =>
      { topic := will.topic, payload := will.message, qos := will.qos, retain := will.retain
        dup := false, id := none }) b m ∧
    Unheard own mine m b' ∧ (wills ≠ [] → m.LetsGo mine b')

variable {b b' b'' m : Broker} {k : ConnectionId} {id : ClientId} {own : Option ConnectionId}
  {mine : Option ClientId} {session next : Session} {client : ClientInfo} {operation : Operation}

section unheard

/-- What a client is shown is retained. -/
lemma Shows.onFile {publish : Publish} (h : b.Shows client publish) : b.OnFile mine publish := by
  obtain ⟨filter, message, qos, -, hm, -, rfl⟩ := h
  obtain ⟨⟨topic, kept⟩, he, rfl⟩ := List.mem_map.mp hm
  have hk := Std.ExtTreeMap.mem_toList_iff_getElem?_eq_some.mp (List.mem_of_mem_filter he)
  refine .inl ⟨kept, ?_, rfl⟩
  rw [(b.retained.marked topic kept hk).topic]
  exact hk

namespace Unheard

lemma refl (b : Broker) : Unheard own mine b b :=
  ⟨rfl, rfl, fun _ _ => rfl, fun _ next hn _ hp => ⟨next, hn, hp⟩, fun _ _ => .inl rfl,
    fun _ _ => .refl _⟩

/-- What is on file now was so before. -/
lemma onFile (h : Unheard own mine b b') {message : Publish} (hf : b'.OnFile mine message) :
    b.OnFile mine message := by
  obtain ⟨kept, hk, he⟩ | ⟨client, next, hi, hn, hq⟩ := hf
  · exact .inl ⟨kept, h.retained ▸ hk, he⟩
  · obtain ⟨session, hs, hq⟩ := h.queues client next hn message hq
    exact .inr ⟨client, session, hi, hs, hq⟩

lemma trans (h : Unheard own mine b b') (h' : Unheard own mine b' b'') :
    Unheard own mine b b'' where
  config := h'.config.trans h.config
  retained := h'.retained.trans h.retained
  sessions id hi := (h'.sessions id hi).trans (h.sessions id hi)
  queues id last hl message hq := by
    obtain ⟨next, hn, hq⟩ := h'.queues id last hl message hq
    exact h.queues id next hn message hq
  others k hk := by
    -- a connection that was closed or evicted stays so when it is closed or evicted again
    obtain he' | he' | he' := h'.others k hk <;> rw [he'] <;>
      obtain he | he | he := h.others k hk <;> rw [he]
    · exact .inl rfl
    · exact .inr (.inl rfl)
    · exact .inr (.inr rfl)
    · exact .inr (.inl rfl)
    · exact .inr (.inl rfl)
    · exact .inr (.inr rfl)
    · exact .inr (.inr rfl)
    · exact .inr (.inr rfl)
    · refine .inr (.inr ?_)
      simp [Connection.evict, Connection.close, Transport.close]
  emitted k hk := (h.emitted k hk).trans ((h'.emitted k hk).mono fun _ => h.onFile)

/-- A session may change if nothing is queued. -/
lemma setSession (hs : b.session? id = some session)
    (hq : ∀ message ∈ next.queue, message ∈ session.queue) :
    Unheard own (some id) b (b.setSession id next) where
  config := rfl
  retained := rfl
  sessions other ho := by rw [session?_setSession, if_neg fun he => ho (congrArg some he)]
  queues other found hf message hm := by
    rw [session?_setSession] at hf
    split at hf
    next he =>
      cases hf
      exact ⟨session, he ▸ hs, hq message hm⟩
    next => exact ⟨found, hf, hm⟩
  others _ _ := .inl rfl
  emitted _ _ := .refl _

/-- So may the one connection, if it is handed what is on file. -/
lemma modifyConnection {change : Connection → Connection}
    (he : (b.connection k).Emitted (b.OnFile mine) (change (b.connection k))) :
    Unheard (some k) mine b (b.modifyConnection k change) where
  config := rfl
  retained := rfl
  sessions _ _ := rfl
  queues _ next hn _ hq := ⟨next, hn, hq⟩
  others _ hj := .inl (connection_modifyConnection_of_ne _ fun he => hj (congrArg some he))
  emitted j _ := modifyConnection_rel .refl he j

lemma close (b : Broker) (k : ConnectionId) : Unheard own mine b (b.closeConnection k) where
  config := rfl
  retained := rfl
  sessions _ _ := rfl
  queues _ next hn _ hq := ⟨next, hn, hq⟩
  others _ _ := modifyConnection_rel (P := fun c d => d = c ∨ d = c.close ∨ d = c.evict)
    (fun _ => .inl rfl) (.inr (.inl rfl)) _
  emitted _ _ := (Chore.close : Chore k b _).emitted _

lemma teardown (b : Broker) (id : ClientId) (session : Session) :
    Unheard own (some id) b (b.teardown id session) := by
  obtain ⟨directory, hd⟩ := b.detach_eq id session
  have he : b.teardown id session = (({ b with directory } : Broker).dropSession id).withBooks
      b.calls (b.cleared id !session.clean) b.identified := by rw [teardown_eq, hd]
  constructor
  case config => rw [he]; rfl
  case retained => rw [he]; rfl
  case sessions =>
    intro other ho
    rw [session?_teardown, if_neg fun he => ho (congrArg some he)]
  case queues =>
    intro other found hf message hm
    rw [session?_teardown] at hf
    split at hf
    · cases hf
    · exact ⟨found, hf, hm⟩
  case others => exact fun _ _ => .inl (connection_teardown session)
  case emitted =>
    intro j _
    rw [connection_teardown]
    exact .refl _

lemma takeWill (b : Broker) (id : ClientId) (k : ConnectionId) :
    Unheard own (some id) b (b.takeWill id k).2 := by
  obtain he | ⟨session, hs, he⟩ := takeWill_cases b id k <;> rw [he]
  · exact .refl b
  · exact .setSession hs fun _ hq => hq

lemma unbind (b : Broker) (id : ClientId) (k : ConnectionId) (remove : Bool) :
    Unheard own (some id) b (b.unbind id k remove).2 := by
  obtain ⟨-, he⟩ | ⟨session, hs, -, he⟩ := unbind_cases b id k remove <;> rw [he]
  · exact .refl b
  · split
    · exact .teardown b id session
    · exact .setSession hs fun _ hq => hq

lemma bereft (b : Broker) (id : ClientId) (k : ConnectionId) :
    Unheard (some k) (some id) b (b.bereft id k) :=
  ((close b k).trans (modifyConnection (Connection.emitted_of_eq rfl))).trans (takeWill _ id k)

lemma onDisconnect (b : Broker) (client : ClientInfo) (k : ConnectionId) :
    Unheard (some k) (some client.id) b (b.onDisconnect client k) :=
  ((takeWill b client.id k).trans (close _ k)).trans (unbind _ client.id k _)

lemma expire (b : Broker) (id : ClientId) : Unheard own (some id) b (b.expire id).2 :=
  expire_induction (refl b) id (close b) fun b' session h _ _ => h.trans (teardown b' id session)

lemma accept (b : Broker) : Unheard (some b.connections.size) mine b b.accept.2 where
  config := rfl
  retained := rfl
  sessions _ _ := rfl
  queues _ next hn _ hq := ⟨next, hn, hq⟩
  others k hk := by
    rw [connection_accept, if_neg fun he => hk (congrArg some he.symm)]
    exact .inl rfl
  emitted k hk := by
    cases hk
    rw [connection_accept, if_pos rfl, connection_of_not_lt (lt_irrefl _)]
    exact Connection.emitted_of_eq rfl

end Unheard

lemma Chore.unheard (h : Chore k b b') : Unheard (some k) mine b b' := by
  cases h with
  | books =>
    exact ⟨rfl, rfl, fun _ _ => rfl, fun _ next hn _ hq => ⟨next, hn, hq⟩, fun _ _ => .inl rfl,
      fun _ _ => .refl _⟩
  | send h => exact .modifyConnection (Connection.emitted_control h _)
  | close => exact .close b k
  | advance =>
    rw [setState_snd]
    refine .modifyConnection (Connection.emitted_of_eq ?_)
    unfold Connection.transition
    split <;> rfl

lemma Chores.unheard (h : Chores k b b') : Unheard (some k) mine b b' := by
  induction h with
  | refl => exact .refl b
  | tail _ hc ih => exact ih.trans hc.unheard

/-- What an actor does between itself and its client is no publish. -/
lemma Errand.unheard (h : Errand k client b b') : Unheard (some k) (some client.id) b b' := by
  cases h with
  | answer h => exact .modifyConnection (Connection.emitted_control h.control _)
  | deliver h => exact .modifyConnection (Connection.emitted_deliver h.onFile _)
  | subscribe filter qos =>
    obtain ⟨calls, he | ⟨session, granted, hs, -, -, he⟩⟩ :=
      subscribe_cases filter b client k qos <;> rw [he]
    · exact Chore.unheard (.books calls (.refl _) _)
    · have hn : Unheard (some k) (some client.id) b (b.setSession client.id { session with
          subscriptions := session.subscriptions.insert filter granted }) :=
        .setSession hs fun _ hq => hq
      exact ⟨rfl, rfl, hn.sessions, hn.queues, hn.others, hn.emitted⟩
  | unsubscribe filter =>
    obtain he | ⟨session, calls, hs, -, he⟩ := unsubscribe_cases filter b client.id k <;> rw [he]
    · exact .refl b
    · have hn : Unheard (some k) (some client.id) b (b.setSession client.id { session with
          subscriptions := session.subscriptions.erase filter }) := .setSession hs fun _ hq => hq
      exact ⟨rfl, rfl, hn.sessions, hn.queues, hn.others, hn.emitted⟩

lemma Errands.unheard (h : Errands k client b b') : Unheard (some k) (some client.id) b b' := by
  induction h with
  | refl => exact .refl b
  | tail _ he ih => exact ih.trans he.unheard

/-- The admission of a client replays what was queued for it. -/
lemma Joined.unheard {clean : Bool} {will : Option Will} {sent unsent : List Publish}
    (hj : Joined b b' k client clean will sent unsent) :
    Unheard (some k) (some client.id) b b' where
  config := ((upheld_rules b).joined ⟨rfl, rfl⟩ hj).1
  retained := hj.retained_eq
  sessions id hi := hj.admitted.sessions id fun he => hi (congrArg some he.symm)
  queues id next hn message hq := hj.queued hn hq
  others j hkj := by
    obtain he | he := hj.admitted.others_cases fun he => hkj (congrArg some he)
    · exact .inl he
    · exact .inr (.inr he)
  emitted j hkj := by
    cases hkj
    refine hj.emitted.mono fun message hm => ?_
    rw [← hj.backlog_eq] at hm
    obtain ⟨session, hs, hq⟩ := mem_backlog hm
    exact .inr ⟨client.id, session, rfl, hs, hq⟩

end unheard

section losing

/-- A session that a connection has is let go when the connection is unbound from it. -/
lemma letsGo_unbind (hb : b.boundSession? id k = some session) (remove : Bool) :
    b.LetsGo (some id) (b.unbind id k remove).2 := by
  intro other later hi hl
  obtain rfl := Option.some.inj hi
  obtain ⟨hn, -⟩ | ⟨found, hs, -, he⟩ := unbind_cases b id k remove
  · rw [hn] at hb
    cases hb
  · rw [he] at hl
    split at hl
    · rw [session?_teardown, if_pos rfl] at hl
      cases hl
    · rw [session?_setSession, if_pos rfl] at hl
      cases hl
      exact ⟨found, hs, rfl⟩

/-- A will with a valid topic is published, and its session stays with the connection. -/
lemma executeWill_published {will : Will} (hm : b.Mirrored) (hu : b.Unshared)
    (ht : b.checkTopicName will.topic = .ok ()) (hb : b.boundSession? id k = some session) :
    ∃ aired next, Published will.toPublish b aired ∧
      b.executeWill k (some will) = aired.modifyConnection k (·.noteFired will) ∧
      (aired.modifyConnection k (·.noteFired will)).boundSession? id k = some next := by
  have hp := publish_published hm hu will.toPublish
  have hserved : Services k none b (b.publish will.toPublish).2 := publish_services b will.toPublish
  have he : b.executeWill k (some will) =
      (b.publish will.toPublish).2.modifyConnection k (·.noteFired will) := by
    rw [executeWill, fireWill, ht]
  generalize (b.publish will.toPublish).2 = aired at hp hserved he
  obtain ⟨hs, hk⟩ := boundSession?_eq_some.mp hb
  obtain ⟨next, hn, ha⟩ := hserved.undisturbed.exists_after hs
  exact ⟨aired, next, hp, he, boundSession?_eq_some.mpr ⟨hn, ha.connection.trans hk⟩⟩

/-- A connection that has something at stake has a session. -/
lemma exists_boundSession?_of_stake (hc : (b.connection k).client = some client) {will : Will}
    (h : b.stake k = some will) : ∃ session, b.session? client.id = some session ∧
      session.connection = some k ∧ session.will = some will := by
  rw [stake, hc, Option.bind_some] at h
  obtain ⟨session, hs, hw⟩ := Option.bind_eq_some_iff.mp h
  obtain ⟨hs, hk⟩ := boundSession?_eq_some.mp hs
  exact ⟨session, hs, hk, hw⟩

/-- A connection that is lost publishes what it has at stake, and lets go of its session. -/
theorem connectionLost_airs (hc : b.Consistent) (hm : b.Mirrored)
    (hi : (b.connection k).clientId = mine)
    (hv : ∀ will, b.stake k = some will → b.checkTopicName will.topic = .ok ()) :
    (b.stake k = none ∧ Unheard (some k) mine b (b.connectionLost k)) ∨
    ∃ will left aired, b.stake k = some will ∧ Unheard (some k) mine b left ∧
      Published will.toPublish left aired ∧ Unheard (some k) mine aired (b.connectionLost k) ∧
      aired.LetsGo mine (b.connectionLost k) := by
  cases hcl : (b.connection k).client with
  | none =>
    rw [connectionLost_of_client hcl, stake, hcl]
    exact .inl ⟨rfl, .close b k⟩
  | some client =>
    obtain rfl : some client.id = mine := ((hc.regular k).admitted client hcl).symm.trans hi
    have hbereft : Unheard (some k) (some client.id) b (b.bereft client.id k) := .bereft b _ k
    obtain ⟨remove, he⟩ := connectionLost_eq hcl
    cases hw : b.stake k with
    | none =>
      rw [he, hw]
      exact .inl ⟨rfl, hbereft.trans (.unbind _ client.id k remove)⟩
    | some will =>
      have hmoves := b.bereft_moves client.id k
      have hbound := undisturbed_bereft b client.id k
      have hc' : (b.bereft client.id k).Consistent := hc.moves hmoves fun id he => by
        cases he
        exact hi
      have hm' := Mirrored.upheld.moves hm hmoves
      have ht : (b.bereft client.id k).checkTopicName will.topic = .ok () := by
        rw [checkTopicName, hbereft.config]
        exact hv will hw
      obtain ⟨session, hs, hk, -⟩ := exists_boundSession?_of_stake hcl hw
      obtain ⟨next, hn, ha⟩ := hbound.exists_after hs
      obtain ⟨aired, last, hp, hnoted, hlast⟩ := executeWill_published hm' hc'.unshared ht
        (boundSession?_eq_some.mpr ⟨hn, ha.connection.trans hk⟩)
      have hfired : Unheard (some k) (some client.id) aired
          (aired.modifyConnection k (·.noteFired will)) :=
        .modifyConnection (Connection.emitted_of_eq rfl)
      rw [he, hw, hnoted]
      exact .inr ⟨will, _, aired, rfl, hbereft, hp, hfired.trans (.unbind _ client.id k remove),
        letsGo_unbind hlast remove⟩

end losing

section steps

lemma submitted_of_client (h : (b.connection k).client = none) (event : Event) :
    b.submitted (.event k event) = [] := by
  cases event with
  | packet packet => cases packet <;> simp [submitted, h]
  | _ => rfl

lemma submitted_of_shut (h : (b.connection k).isOpen = false) (event : Event) :
    b.submitted (.event k event) = [] := by
  cases event with
  | packet packet =>
    cases packet with
    | publish publish =>
      simp only [submitted, h, Bool.false_and, Bool.false_eq_true, if_false]
      split <;> rfl
    | _ => rfl
  | _ => rfl

section served
variable (hc : b.Consistent) (hm : b.Mirrored)
include hc hm

/-- What an admitted client submits is passed on. -/
lemma passOn_broadcasts (hcl : (b.connection k).client = some client)
    (ho : (b.connection k).isOpen = true) (packet : Packet) :
    Broadcasts own mine (b.submitted (.event k (.packet packet))) b
      (b.passOn client packet) := by
  cases packet with
  | publish publish =>
    simp only [submitted, hcl, ho, Bool.true_and, passOn, publishFrom]
    cases b.checkTopicName publish.topic with
    | error cause => exact .none
    | ok =>
      cases b.authorizer.canWrite client publish.topic with
      | true => exact .next .none (.refl b) (publish_published hm hc.unshared publish)
      | false => exact .none
  | _ => exact .none

/-- An event of an admitted client: what it submits is passed on before it is answered. -/
lemma handle_broadcasts (hcl : (b.connection k).client = some client) {event : Event}
    (he : event ≠ .evicted) (hl : ¬ b.TakesLeave k event) :
    ∃ m, Broadcasts own mine (b.submitted (.event k event)) b m ∧ Deeds k client b m ∧
      Served k (Errands k client) m (b.handle .quiet k event) := by
  cases event with
  | evicted => exact absurd rfl he
  | transportClosed => exact ⟨b, .none, .refl, .lost .refl⟩
  | packet packet =>
    rw [handle_of_some hcl]
    cases ho : (b.connection k).isOpen with
    | true =>
      have hp : packet ≠ .disconnect := fun hp => hl ⟨congrArg Event.packet hp, ho⟩
      exact ⟨_, passOn_broadcasts hc hm hcl ho packet, passOn_deeds b client k packet,
        onPacket_answered b client k hp⟩
    | false =>
      rw [submitted_of_shut ho]
      exact ⟨b, .none, .refl, .lost .refl⟩

end served

/-- Nothing is published but what was submitted. -/
lemma airs_nil (hb : Broadcasts (operation.drives b) (operation.concerns (b.perform operation))
      (b.submitted operation) b m)
    (hu : Unheard (operation.drives b) (operation.concerns (b.perform operation)) m
      (b.perform operation)) : b.Airs operation [] :=
  ⟨m, by rwa [List.map_nil, List.append_nil], hu, fun hn => absurd rfl hn⟩

/-- The connection is lost in the end. -/
lemma airs_lost {lost : Broker} (hk : operation.drives b = some k)
    (hi : operation.concerns (b.perform operation) = mine)
    (hb : Broadcasts (some k) mine (b.submitted operation) b m) (hu : Unheard (some k) mine m lost)
    (hc : lost.Consistent) (hm : lost.Mirrored) (hi' : (lost.connection k).clientId = mine)
    (hv : ∀ will, lost.stake k = some will → lost.checkTopicName will.topic = .ok ())
    (he : b.perform operation = lost.connectionLost k) :
    b.Airs operation (lost.stake k).toList := by
  unfold Airs
  dsimp only
  rw [hi, hk, he]
  obtain ⟨hw, hu'⟩ | ⟨will, left, aired, hw, hleft, hp, hu', hgo⟩ :=
    connectionLost_airs hc hm hi' hv <;> rw [hw]
  · refine ⟨m, ?_, hu.trans hu', fun hn => absurd rfl hn⟩
    rwa [Option.toList_none, List.map_nil, List.append_nil]
  · exact ⟨aired, .next hb (hu.trans hleft) hp, hu', fun _ => hgo⟩

section driven
variable (hc : b.Consistent) (ho : b.Owned none) (hm : b.Mirrored)
include hc ho hm

omit hm in
/-- A client that takes its leave publishes nothing. -/
lemma leave_airs (hcl : (b.connection k).client = some client) {event : Event}
    (hl : b.TakesLeave k event) : b.Airs (.event k event) [] ∧
      ((b.handle .quiet k event).2.connection k).fired = (b.connection k).fired := by
  obtain ⟨rfl, hopen⟩ := hl
  have hi := (hc.regular k).admitted client hcl
  have hh : (b.handle .quiet k (.packet .disconnect)).2 = b.onDisconnect client k := by
    rw [handle_of_some hcl, if_pos hopen, onPacket]
  have hs : Silent k b (b.onDisconnect client k) := ho.silent_onDisconnect hc hi
  refine ⟨airs_nil .none ?_, hh ▸ hs.fired⟩
  simp only [Operation.drives, Operation.concerns, perform, hh, hs.clientId.trans hi]
  exact .onDisconnect b client k

/-- What an admitted client is told of an event, and what is published meanwhile. -/
lemma handle_airs (hcl : (b.connection k).client = some client) {event : Event}
    (hv : ∀ will, b.stake k = some will → b.checkTopicName will.topic = .ok ()) :
    ∃ wills, b.Airs (.event k event) wills ∧
      ((b.handle .quiet k event).2.connection k).fired = (b.connection k).fired ++ wills := by
  by_cases he : event = .evicted
  · subst he
    exact ⟨[], airs_nil .none (.refl b), (List.append_nil _).symm⟩
  by_cases hl : b.TakesLeave k event
  · obtain ⟨ha, hf⟩ := leave_airs hc ho hcl hl
    exact ⟨[], ha, hf.trans (List.append_nil _).symm⟩
  have hi := (hc.regular k).admitted client hcl
  obtain ⟨m, hb, hdeeds, hserved⟩ :
      ∃ m, Broadcasts (some k) (some client.id) (b.submitted (.event k event)) b m ∧
        Deeds k client b m ∧ Served k (Errands k client) m (b.handle .quiet k event) :=
    handle_broadcasts hc hm hcl he hl
  have hmine : ((b.handle .quiet k event).2.connection k).clientId = some client.id := by
    obtain hmoves | ⟨-, -, hn, -⟩ := b.handle_moves k event
    · exact (hmoves.kept k).clientId.trans hi
    · rw [hcl] at hn
      cases hn
  generalize hh : b.handle .quiet k event = result at hserved hmine ⊢
  have hp : b.perform (.event k event) = result.2 := congrArg Prod.snd hh
  cases hserved with
  | goesOn h =>
    refine ⟨[], airs_nil (m := m) ?_ ?_, ?_⟩
    · simp only [Operation.drives, Operation.concerns, hp, hmine]
      exact hb
    · simp only [Operation.drives, Operation.concerns, hp, hmine]
      exact h.unheard
    · rw [(Silent.services (Deeds.services (hdeeds.trans h.deeds))).fired, List.append_nil]
  | @lost lost h =>
    have hs : Services k (some client.id) b lost := Deeds.services (hdeeds.trans h.deeds)
    have hclient : (lost.connection k).clientId = some client.id :=
      (hs.moves.kept k).clientId.trans hi
    refine ⟨_, airs_lost rfl (hp ▸ hmine) hb h.unheard (hc.moves hs.moves fun id he => ?_)
      (Mirrored.upheld.services hm hs) hclient (fun will hw => ?_) hp, ?_⟩
    · cases he
      exact hi
    · rw [checkTopicName, ((upheld_rules b).services ⟨rfl, rfl⟩ hs).1]
      exact hv will (stake_services hs ▸ hw)
    · rw [fired_connectionLost (lt_size_of_clientId hclient), (Silent.services hs).fired]

/-- Of an admission nothing is published, unless the connection is lost at once. -/
lemma Joined.airs {admitted : Broker} {connect : Connect} {sent unsent : List Publish}
    {accepted : Bool} (hp : operation.Presents k connect) (hs : (b.connection k).state = .idle)
    (hw : b.willAllowed connect = true)
    (hj : Joined b admitted k client connect.clean connect.will sent unsent)
    (hd : Served k Eq admitted (accepted, b.perform operation)) :
    ∃ wills, b.Airs operation wills ∧
      ((b.perform operation).connection k).fired = (b.connection k).fired ++ wills := by
  have hc' := hc.joined hs hj
  have hclient : (admitted.connection k).clientId = some client.id := hj.wrote.kept.clientId
  have hfired : (admitted.connection k).fired = (b.connection k).fired := by rw [hj.wrote.frame]
  have hmine : operation.concerns (b.perform operation) = some client.id := by
    have hkept := ((hd.still.moves hj.speaksFor).kept k).clientId.trans hclient
    obtain rfl | rfl := hp <;> exact hkept
  have hown : operation.drives b = some k := by obtain rfl | rfl := hp <;> rfl
  have hnone : b.submitted operation = [] := by obtain rfl | rfl := hp <;> rfl
  generalize hr : (accepted, b.perform operation) = result at hd
  cases hd with
  | goesOn he =>
    cases he
    obtain ⟨-, he⟩ := Prod.mk.inj hr
    refine ⟨[], airs_nil (m := b) (hnone ▸ .none) ?_, by rw [he, hfired, List.append_nil]⟩
    rw [hown, hmine, he]
    exact hj.unheard
  | lost he =>
    cases he
    obtain ⟨-, he⟩ := Prod.mk.inj hr
    refine ⟨_, airs_lost hown hmine (m := b) (hnone ▸ .none) hj.unheard hc'
      (Mirrored.upheld.joined hm hj) hclient (fun will hstake => ?_) he, ?_⟩
    · obtain ⟨bound, hbound, -, hk, -⟩ := hj.admitted.session
      rw [((ho.joined hc hs hj).stake_eq hc' (boundSession?_eq_some.mpr ⟨hbound, hk⟩)).2.2,
        hj.will_eq hbound] at hstake
      rw [checkTopicName, hj.unheard.config]
      exact checkTopicName_of_willAllowed hw hstake
    · rw [he, fired_connectionLost (lt_size_of_clientId hclient), hfired]

/-- What is published while a CONNECT is processed. -/
lemma processConnect_airs {connect : Connect} (hp : operation.Presents k connect)
    (he : b.perform operation = (b.processConnect .quiet k connect).2) :
    ∃ wills, b.Airs operation wills ∧
      ((b.perform operation).connection k).fired = (b.connection k).fired ++ wills := by
  obtain hr | ⟨other, client, sent, unsent, admitted, hp', hs, hw, hj, hd, -⟩ :=
    hc.processConnect_enters k hp
  · have hown : operation.drives b = some k := by obtain rfl | rfl := hp <;> rfl
    have hnone : b.submitted operation = [] := by obtain rfl | rfl := hp <;> rfl
    have hs : Silent k b (b.processConnect .quiet k connect).2 := .services hr.services
    refine ⟨[], airs_nil (m := b) (hnone ▸ .none) ?_, by rw [he, hs.fired, List.append_nil]⟩
    rw [hown, he]
    exact hr.chores.unheard
  · obtain rfl := presents_inj hp hp'
    exact Joined.airs hc ho hm hp hs hw hj (he ▸ hd.served)

omit ho hm in
/-- Nothing is noted on any other connection than the one that is driven. -/
lemma airs_driven (hd : operation.IsDriven b) (hk : operation.drives b = some k)
    (h : ∃ wills, b.Airs operation wills ∧
      ((b.perform operation).connection k).fired = (b.connection k).fired ++ wills) :
    ∃ wills, b.Airs operation wills ∧ ∀ j, ((b.perform operation).connection j).fired =
      (b.connection j).fired ++ if operation.drives b = some j then wills else [] := by
  obtain ⟨wills, ha, hf⟩ := h
  refine ⟨wills, ha, fun j => ?_⟩
  split
  next hj =>
    obtain rfl := Option.some.inj (hk.symm.trans hj)
    exact hf
  next hj => rw [(Silent.perform hc hd hj).fired, List.append_nil]

/-- What a step of a run publishes: what its client submits, and then the will of the connection
that it drives, if that is what is noted there. -/
theorem perform_airs (hd : operation.IsDriven b)
    (hv : ∀ k will, b.stake k = some will → b.checkTopicName will.topic = .ok ()) :
    ∃ wills, b.Airs operation wills ∧ ∀ k, ((b.perform operation).connection k).fired =
      (b.connection k).fired ++ if operation.drives b = some k then wills else [] := by
  cases operation with
  | accept =>
    have hs : Silent b.connections.size b (b.perform .accept) := .accept b
    refine airs_driven hc hd rfl ⟨[], airs_nil .none (.accept b), ?_⟩
    rw [hs.fired, List.append_nil]
  | fault k fault =>
    have hs : Silent k b (b.perform (.fault k fault)) := .fault b k fault
    have hu : Unheard (some k) none b (b.modifyConnection k fun c =>
        { c with transport := c.transport.suffer fault }) :=
      .modifyConnection (Connection.emitted_suffer fault _)
    refine airs_driven hc hd rfl ⟨[], airs_nil .none hu, ?_⟩
    rw [hs.fired, List.append_nil]
  | expire id =>
    refine ⟨[], airs_nil .none (.expire b id), fun k => ?_⟩
    rw [(Silent.perform hc hd nofun).fired, ite_self, List.append_nil]
  | connect k connect =>
    exact airs_driven hc hd rfl (processConnect_airs hc ho hm (.inl rfl) rfl)
  | event k event =>
    refine airs_driven hc hd rfl ?_
    cases hcl : (b.connection k).client with
    | some client => exact handle_airs hc ho hm hcl (hv k)
    | none =>
      have hnone := submitted_of_client hcl event
      obtain rfl | he | ⟨connect, rfl, he⟩ := handle_unadmitted hcl event
      · exact ⟨[], airs_nil .none (.refl b), (List.append_nil _).symm⟩
      · have hs : Services k none b (b.closeConnection k) := .single (.chore .close)
        rw [connectionLost_of_client hcl] at he
        have hp : b.perform (.event k event) = b.closeConnection k := congrArg Prod.snd he
        refine ⟨[], airs_nil (m := b) (hnone ▸ .none) ?_, ?_⟩
        · rw [hp]
          exact .close b k
        · rw [hp, (Silent.services hs).fired, List.append_nil]
      · exact processConnect_airs hc ho hm (.inr rfl) (congrArg Prod.snd he)
  | _ => exact hd.elim

end driven
end steps
end Broker
end MqttBroker
