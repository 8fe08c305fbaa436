import MqttBroker.Proofs.Access.Covering
import MqttBroker.Proofs.Broker.Mirror
import MqttBroker.Proofs.Broker.SingleOwner
import MqttBroker.Proofs.Broker.Topics

/-!
Who may read what is written to a connection or put into a session: whatever a broker does but for
the admission of a client, it hands out topics only to clients that may read them.
-/
namespace MqttBroker

/-- Whoever may read a filter may read the topics whose levels match it. -/
def Authorizer.Coherent (authorizer : Authorizer) : Prop :=
  ∀ client filter topic, authorizer.canRead client filter = true → Acl.Plain (Topic.levels topic) →
    Topic.levelsMatch (Topic.filterLevels filter) (Topic.levels topic) = true →
      authorizer.canRead client topic = true

lemma Acl.coherent_authorizer (config : AclConfig) : (authorizer config).Coherent := by
  intro client filter topic h plain hm
  unfold authorizer at h ⊢
  split
  next he =>
    rw [if_pos he] at h
    exact permits_of_levelsMatch plain hm h
  next => rfl

/-- How a session goes on while its client stays: all that is new in it is about filters and topics
of the set. -/
structure Session.Continues (reads : String → Prop) (session next : Session) : Prop where
  client : next.client = session.client
  subscriptions : ∀ filter granted, next.subscriptions[filter]? = some granted →
    (∃ before, session.subscriptions[filter]? = some before) ∨ reads filter
  queue : ∀ publish ∈ next.queue, publish ∈ session.queue ∨ reads publish.topic

namespace Session.Continues
variable {reads : String → Prop} {session next last : Session}

lemma of_same (hc : next.client = session.client)
    (hs : next.subscriptions = session.subscriptions) (hq : next.queue = session.queue) :
    session.Continues reads next where
  client := hc
  subscriptions _ granted h := .inl ⟨granted, hs ▸ h⟩
  queue _ h := .inl (hq ▸ h)

lemma refl (session : Session) : session.Continues reads session := of_same rfl rfl rfl

lemma trans (h : session.Continues reads next) (h' : next.Continues reads last) :
    session.Continues reads last where
  client := h'.client.trans h.client
  subscriptions filter granted hf := by
    obtain ⟨before, hb⟩ | hr := h'.subscriptions filter granted hf
    · exact h.subscriptions filter before hb
    · exact .inr hr
  queue publish hp := (h'.queue publish hp).elim (h.queue publish) .inr

lemma enqueue {publish : Publish} (hr : reads publish.topic) (session : Session) (max : Nat) :
    session.Continues reads (session.enqueue max publish) where
  client := rfl
  subscriptions _ granted hf := .inl ⟨granted, hf⟩
  queue message hm := by
    have hm : message ∈ session.queue ++ [publish] := by
      rw [← session.enqueue_displacedBy max publish]
      exact List.mem_append_right _ hm
    refine (List.mem_append.mp hm).imp_right fun he => ?_
    rwa [List.mem_singleton.mp he]

end Session.Continues

namespace Broker

/-- The client that was admitted on a connection may read the topic. -/
def MayReceive (b : Broker) (j : ConnectionId) (topic : String) : Prop :=
  ∃ client, (b.connection j).client = some client ∧ b.authorizer.canRead client topic = true

/-- What is written to a connection may be read by the client admitted on it, and so may what is
put into a session by the client of that. -/
structure Confined (b b' : Broker) : Prop where
  authorizer : b'.authorizer = b.authorizer
  client : ∀ j info, (b'.connection j).client = some info → (b.connection j).client = some info
  emitted : ∀ j, (b.connection j).EmittedAbout (b.MayReceive j) (b'.connection j)
  sessions : ∀ id next, b'.session? id = some next → ∃ session, b.session? id = some session ∧
    session.Continues (fun topic => b.authorizer.canRead session.client topic = true) next

/-- Subscriptions may be read by the clients that hold them. -/
def Readable (b : Broker) : Prop :=
  ∀ id session, b.session? id = some session → ∀ filter granted,
    session.subscriptions[filter]? = some granted →
      b.authorizer.canRead session.client filter = true

/-- A session is bound to the connection of its client, if it is not closed and forgotten. -/
def Answering (b : Broker) : Prop :=
  ∀ id session j, b.session? id = some session → session.connection = some j →
    (b.connection j).client = some session.client ∨
      (b.connection j).client = none ∧ (b.connection j).state = .closed

/-- What it takes that nobody is handed what he may not read. -/
structure Guarded (b : Broker) : Prop where
  coherent : b.authorizer.Coherent
  mirrored : b.Mirrored
  readable : b.Readable
  answering : b.Answering
  plain : b.Carries fun topic => Acl.Plain (Topic.levels topic)

variable {b b' b'' : Broker} {j k : ConnectionId} {id : ClientId} {client : ClientInfo}
  {session next : Session} {publish : Publish}

/-- A valid name of a topic has no wildcards. -/
lemma plain_of_checkTopicName {topic : String} (h : b.checkTopicName topic = .ok ()) :
    Acl.Plain (Topic.levels topic) := by
  have hn : ¬ (topic.isEmpty ∨
      topic.toList.any (fun c => c == '+' || c == '#' || c == '\x00') = true) := by
    intro hn
    rw [checkTopicName, Topic.checkName, Topic.validateName, if_pos hn] at h
    cases h
  simp only [not_or, List.any_eq_true, not_exists, not_and, Bool.or_eq_true, beq_iff_eq] at hn
  exact Acl.plain_levels (fun hp => (hn.2 _ hp).1.1 rfl) fun hp => (hn.2 _ hp).1.2 rfl

namespace Confined

lemma of_same (ha : b'.authorizer = b.authorizer)
    (hc : ∀ j, (b.connection j).EmittedAbout (b.MayReceive j) (b'.connection j) ∧
      ∀ info, (b'.connection j).client = some info → (b.connection j).client = some info)
    (hs : ∀ id, b'.session? id = b.session? id) : Confined b b' where
  authorizer := ha
  client j := (hc j).2
  emitted j := (hc j).1
  sessions id next hn := ⟨next, hs id ▸ hn, .refl next⟩

lemma refl (b : Broker) : Confined b b :=
  of_same rfl (fun _ => ⟨.refl _, fun _ hi => hi⟩) fun _ => rfl

lemma trans (h : Confined b b') (h' : Confined b' b'') : Confined b b'' where
  authorizer := h'.authorizer.trans h.authorizer
  client j info hi := h.client j info (h'.client j info hi)
  emitted j := by
    refine (h.emitted j).trans ((h'.emitted j).mono fun topic => ?_)
    rintro ⟨client, hc, hr⟩
    exact ⟨client, h.client j client hc, h.authorizer ▸ hr⟩
  sessions id last hl := by
    obtain ⟨next, hn, hc'⟩ := h'.sessions id last hl
    obtain ⟨session, hs, hc⟩ := h.sessions id next hn
    rw [h.authorizer, hc.client] at hc'
    exact ⟨session, hs, hc.trans hc'⟩

/-- One connection may change, and be written to what its client may read. -/
lemma connection {change : Connection → Connection}
    (he : (b.connection k).EmittedAbout (b.MayReceive k) (change (b.connection k)))
    (hc : ∀ info, (change (b.connection k)).client = some info →
      (b.connection k).client = some info) : Confined b (b.modifyConnection k change) :=
  of_same rfl (fun j => ⟨modifyConnection_rel_of (fun _ => .refl _) j fun hj => hj ▸ he,
    modifyConnection_rel (P := fun c d => ∀ info, d.client = some info → c.client = some info)
      (fun _ _ hi => hi) hc j⟩) fun _ => rfl

/-- One session may go on. -/
lemma setSession (hs : b.session? id = some session)
    (hn : session.Continues (fun topic => b.authorizer.canRead session.client topic = true) next) :
    Confined b (b.setSession id next) where
  authorizer := rfl
  client _ _ hi := hi
  emitted _ := .refl _
  sessions other found hf := by
    rw [session?_setSession] at hf
    split at hf
    next ho =>
      cases hf
      exact ⟨session, ho ▸ hs, hn⟩
    next => exact ⟨found, hf, .refl found⟩

lemma teardown (b : Broker) (id : ClientId) (session : Session) :
    Confined b (b.teardown id session) where
  authorizer := by
    rw [teardown_eq]
    unfold detach
    split <;> rfl
  client j := by simp
  emitted j := by
    rw [connection_teardown]
    exact .refl _
  sessions other found hf := by
    rw [session?_teardown] at hf
    split at hf
    · cases hf
    · exact ⟨found, hf, .refl found⟩

/-- The books matter to nobody. -/
lemma withBooks (h : Confined b b') (calls : CallCounts) (stored : Repository StoredSession)
    (identified : Nat) : Confined b (b'.withBooks calls stored identified) :=
  ⟨h.authorizer, h.client, h.emitted, h.sessions⟩

lemma readable (h : Confined b b') (hr : b.Readable) : b'.Readable := by
  intro id next hn filter granted hf
  obtain ⟨session, hs, hc⟩ := h.sessions id next hn
  rw [h.authorizer, hc.client]
  obtain ⟨before, hb⟩ | hr' := hc.subscriptions filter granted hf
  · exact hr id session hs filter before hb
  · exact hr'

lemma chore (h : Chore k b b') : Confined b b' := by
  refine .of_same ?_ (fun j => ⟨h.emitted j, fun info hi => (h.steady j).sameClient ▸ hi⟩) ?_
  · cases h with
    | books | send | close | advance => rfl
  · cases h with
    | books | send | close | advance => exact fun _ => rfl

lemma chores (h : Chores k b b') : Confined b b' := by
  induction h with
  | refl => exact refl b
  | tail _ hc ih => exact ih.trans (chore hc)

end Confined

namespace Answering

lemma of_owned (h : b.Owned none) : b.Answering := fun id session j hs hj =>
  .inl ((h.admitted id session j hs hj).2.resolve_left nofun)

/-- Whoever is admitted on a connection is the client of the session that is bound to it. -/
lemma eq_client (h : b.Answering) (hc : (b.connection k).client = some client)
    (hs : b.session? id = some session) (hk : session.connection = some k) :
    session.client = client := by
  obtain hi | ⟨hi, -⟩ := h id session k hs hk <;> rw [hc] at hi
  · exact (Option.some.inj hi).symm
  · cases hi

lemma undisturbed (h : b.Answering) (hu : Undisturbed b b')
    (hs : ∀ j, (b.connection j).Steady (b'.connection j)) : b'.Answering := by
  intro id next j hn hj
  obtain ⟨session, hf, ha⟩ := hu.exists_before hn
  rw [(hs j).sameClient, ha.client]
  obtain hc | ⟨hc, hclosed⟩ := h id session j hf (ha.connection.symm.trans hj)
  · exact .inl hc
  · exact .inr ⟨hc, (hs j).closed hclosed⟩

lemma services {actor : Option ClientId} (h : b.Answering) (hs : Services k actor b b') :
    b'.Answering := by
  induction hs with
  | refl => exact h
  | tail _ hs ih => exact ih.undisturbed hs.undisturbed hs.steady

/-- The client of a closed connection may be forgotten. -/
lemma forget (h : b.Answering) (hk : (b.connection k).state = .closed) :
    (b.modifyConnection k fun c => { c with client := none }).Answering := by
  intro id session j hs hj
  refine modifyConnection_rel_of (P := fun c d =>
    (c.client = some session.client ∨ c.client = none ∧ c.state = .closed) →
      (d.client = some session.client ∨ d.client = none ∧ d.state = .closed)) (fun _ hc => hc) j
    (fun hkj _ => .inr ⟨rfl, hkj ▸ hk⟩) (h id session j hs hj)

end Answering

namespace Guarded

lemma of_confined (h : b.Guarded) (hc : Confined b b') (hm : b'.Mirrored) (ha : b'.Answering)
    (hp : b'.Carries fun topic => Acl.Plain (Topic.levels topic)) : b'.Guarded :=
  ⟨hc.authorizer ▸ h.coherent, hm, hc.readable h.readable, ha, hp⟩

lemma chore (h : b.Guarded) (hc : Chore k b b') : b'.Guarded :=
  h.of_confined (.chore hc) (Mirrored.upheld.chore h.mirrored hc)
    (h.answering.services (.single (.chore hc) : Services k none b b')) (h.plain.chore hc)

section routing

/-- A session may be sent what the directory finds it for. -/
lemma reads (h : b.Guarded) (hp : Acl.Plain (Topic.levels publish.topic))
    (hs : b.session? id = some session) (hd : id ∈ b.directory.matching publish.topic) :
    b.authorizer.canRead session.client publish.topic = true := by
  obtain ⟨filter, hc, hr⟩ :=
    (Subscription.Directory.mem_matching_iff h.mirrored.wellFormed _ _).mp hd
  rw [Subscription.Directory.contains, h.mirrored.routed, held?, hs, Option.bind_some] at hc
  obtain ⟨granted, hg⟩ := Option.isSome_iff_exists.mp hc
  exact h.coherent _ filter _ (h.readable id session hs filter granted hg) hp hr.2.1

lemma route_confined (h : b.Guarded) (hp : Acl.Plain (Topic.levels publish.topic))
    (hd : id ∈ b.directory.matching publish.topic) : Confined b (b.route id publish).2 where
  authorizer := ((upheld_rules b).route ⟨rfl, rfl⟩ id publish).2
  client j info hi := by
    rw [← (steady_route id publish j).sameClient]
    exact hi
  emitted j := by
    refine route_rel publish .refl j fun session hs hj => ?_
    obtain hc | ⟨-, hclosed⟩ := h.answering id session j hs hj
    · exact Connection.emitted_deliver ⟨_, hc, h.reads hp hs hd⟩ _
    · simp only [Connection.deliver, hclosed]
      exact .refl _
  sessions other next hn := by
    by_cases ho : id = other
    · subst ho
      obtain ⟨session, hs⟩ : ∃ session, b.session? id = some session := by
        obtain ⟨session, hs, -⟩ := (undisturbed_route b id publish).exists_before hn
        exact ⟨session, hs⟩
      refine ⟨session, hs, ?_⟩
      obtain ⟨-, he⟩ | ⟨-, -, -, max, -, he⟩ := route_cases publish hs <;>
        rw [he, session?_note] at hn
      · rw [session?_tryDeliver, hs] at hn
        obtain rfl := Option.some.inj hn
        exact .refl _
      · rw [session?_setSession, if_pos rfl] at hn
        obtain rfl := Option.some.inj hn
        exact .enqueue (h.reads hp hs hd) session max
    · rw [(route_of_ne ho publish).1] at hn
      exact ⟨next, hn, .refl next⟩

lemma directory_route (b : Broker) (id : ClientId) (publish : Publish) :
    (b.route id publish).2.directory = b.directory := by
  obtain ⟨_, _, _, he⟩ := b.route_frame publish id
  rw [he]

lemma route (h : b.Guarded) (hp : Acl.Plain (Topic.levels publish.topic)) (granted : QoS)
    (hd : id ∈ b.directory.matching publish.topic) :
    (b.route id (publish.copyFor granted)).2.Guarded :=
  h.of_confined (h.route_confined hp hd) (Mirrored.upheld.route h.mirrored id _)
    (h.answering.services (.single (.route id publish granted) : Services 0 none b _))
    (h.plain.route hp granted)

lemma fanOut (h : b.Guarded) (hp : Acl.Plain (Topic.levels publish.topic))
    {targets : List (ClientId × QoS)}
    (hd : ∀ target ∈ targets, target.1 ∈ b.directory.matching publish.topic) :
    Confined b (b.fanOut publish targets).2 := by
  induction targets generalizing b with
  | nil => exact .refl b
  | cons target rest ih =>
    obtain ⟨ht, hrest⟩ := List.forall_mem_cons.mp hd
    have hr : Confined b (b.route target.1 (publish.copyFor target.2)).2 := h.route_confined hp ht
    refine hr.trans (ih (h.route hp target.2 ht) fun other ho => ?_)
    rw [directory_route]
    exact hrest other ho

/-- Whatever is published reaches only clients that may read it. -/
theorem publish_confined (h : b.Guarded) (hp : Acl.Plain (Topic.levels publish.topic)) :
    Confined b (b.publish publish).2 := by
  have hs : Service 0 none b (b.retain publish) := .retain publish
  have hr : Confined b (b.retain publish) := by
    obtain ⟨retained, he⟩ := b.retain_eq publish
    rw [he]
    exact .of_same rfl (fun _ => ⟨.refl _, fun _ hi => hi⟩) fun _ => rfl
  have hg : (b.retain publish).Guarded := h.of_confined hr (Mirrored.upheld.serve h.mirrored hs)
    (h.answering.services (.single hs)) (h.plain.retain hp)
  refine hr.trans (hg.fanOut hp fun target ht => ?_)
  have he := Std.ExtTreeMap.mem_toList_iff_getElem?_eq_some.mp ht
  exact Std.ExtTreeMap.isSome_getElem?_iff_mem.mp (he ▸ rfl)

end routing

section deeds

/-- A retained message is shown to clients that may read it. -/
lemma reads_of_shows (h : b.Guarded) (hs : b.Shows client publish) :
    b.authorizer.canRead client publish.topic = true := by
  have hp : Acl.Plain (Topic.levels publish.topic) := h.plain.of_shows hs
  obtain ⟨filter, message, qos, hr, hm, -, rfl⟩ := hs
  obtain ⟨⟨topic, kept⟩, he, rfl⟩ := List.mem_map.mp hm
  obtain ⟨he, hmatch⟩ := List.mem_filter.mp he
  have hk := (b.retained.marked topic kept
    (Std.ExtTreeMap.mem_toList_iff_getElem?_eq_some.mp he)).topic
  change Topic.topicMatches topic filter = true at hmatch
  rw [Topic.topicMatches, Bool.and_eq_true, ← hk] at hmatch
  exact h.coherent client filter _ hr hp hmatch.2

lemma subscribe_confined (h : b.Guarded) (hc : (b.connection k).client = some client)
    (filter : String) (qos : QoS) : Confined b (b.subscribe .quiet client k filter qos).2 := by
  cases hr : b.authorizer.canRead client filter with
  | false =>
    obtain ⟨calls, he⟩ := subscribe_of_unreadable (k := k) hr qos
    rw [he]
    exact (Confined.refl b).withBooks _ _ _
  | true =>
    obtain ⟨calls, he | ⟨session, granted, hs, hk, -, he⟩⟩ :=
      subscribe_cases filter b client k qos <;> rw [he]
    · exact (Confined.refl b).withBooks _ _ _
    · have hn : Confined b (b.setSession client.id { session with
          subscriptions := session.subscriptions.insert filter granted }) := by
        refine .setSession hs ⟨rfl, fun other qos hf => ?_, fun _ hp => .inl hp⟩
        rw [Std.ExtTreeMap.getElem?_insert] at hf
        split at hf
        next ho =>
          rw [h.answering.eq_client hc hs hk, ← Std.LawfulEqCmp.eq_of_compare ho]
          exact .inr hr
        next => exact .inl ⟨qos, hf⟩
      exact ⟨hn.authorizer, hn.client, hn.emitted, hn.sessions⟩

lemma unsubscribe_confined (b : Broker) (id : ClientId) (k : ConnectionId) (filter : String) :
    Confined b (b.unsubscribe .quiet id k filter).2 := by
  obtain he | ⟨session, calls, hs, -, he⟩ := unsubscribe_cases filter b id k <;> rw [he]
  · exact .refl b
  · have hn : Confined b (b.setSession id { session with
        subscriptions := session.subscriptions.erase filter }) := by
      refine .setSession hs ⟨rfl, fun other granted hf => .inl ?_, fun _ hp => .inl hp⟩
      rw [Std.ExtTreeMap.getElem?_erase] at hf
      split at hf
      · cases hf
      · exact ⟨granted, hf⟩
    exact ⟨hn.authorizer, hn.client, hn.emitted, hn.sessions⟩

lemma errand_confined (h : b.Guarded) (hc : (b.connection k).client = some client)
    (hd : Errand k client b b') : Confined b b' := by
  cases hd with
  | answer hp => exact .chore (.send hp.control)
  | deliver hs =>
    exact .connection (Connection.emitted_deliver ⟨client, hc, h.reads_of_shows hs⟩ _) fun info hi =>
      (Connection.steady_deliver _ _).sameClient ▸ hi
  | subscribe filter qos => exact h.subscribe_confined hc filter qos
  | unsubscribe filter => exact unsubscribe_confined b client.id k filter

/-- What is done for the client of a connection. -/
theorem deed_confined (h : b.Guarded) (hc : (b.connection k).client = some client)
    (hd : Deed k client b b') : Confined b b' := by
  cases hd with
  | errand hd => exact h.errand_confined hc hd
  | publish ht hw => exact h.publish_confined (plain_of_checkTopicName ht)

lemma deed (h : b.Guarded) (hc : (b.connection k).client = some client)
    (hd : Deed k client b b') : b'.Guarded :=
  h.of_confined (h.deed_confined hc hd) (Mirrored.upheld.services h.mirrored hd.services)
    (h.answering.services hd.services)
    (h.plain.deed hd fun _ ht _ => plain_of_checkTopicName ht)

theorem deeds (h : b.Guarded) (hc : (b.connection k).client = some client)
    (hd : Deeds k client b b') : Confined b b' ∧ b'.Guarded := by
  induction hd with
  | refl => exact ⟨.refl b, h⟩
  | tail hs hd ih =>
    obtain ⟨hb, hg⟩ := ih
    have hc' := (Deeds.services hs).client_eq k |>.trans hc
    exact ⟨hb.trans (hg.deed_confined hc' hd), hg.deed hc' hd⟩

end deeds

section partings

lemma takeWill_confined (b : Broker) (id : ClientId) (k : ConnectionId) :
    Confined b (b.takeWill id k).2 := by
  obtain he | ⟨session, hs, he⟩ := takeWill_cases b id k <;> rw [he]
  · exact .refl b
  · exact .setSession hs (.of_same rfl rfl rfl)

lemma unbind_confined (b : Broker) (id : ClientId) (k : ConnectionId) (remove : Bool) :
    Confined b (b.unbind id k remove).2 := by
  obtain ⟨-, he⟩ | ⟨session, hs, -, he⟩ := unbind_cases b id k remove <;> rw [he]
  · exact .refl b
  · split
    · exact .teardown b id session
    · exact .setSession hs (.of_same rfl rfl rfl)

lemma takeWill (h : b.Guarded) (id : ClientId) (k : ConnectionId) :
    (b.takeWill id k).2.Guarded := by
  refine h.of_confined (takeWill_confined b id k) (Mirrored.upheld.takeWill h.mirrored id k)
    (h.answering.undisturbed (undisturbed_takeWill b id k) fun j => ?_) (h.plain.takeWill id k)
  rw [connection_takeWill]
  exact .refl _

lemma executeWill_confined (h : b.Guarded) (k : ConnectionId) (will : Option Will) :
    Confined b (b.executeWill k will) := by
  cases will with
  | none => exact .refl b
  | some will =>
    have hf : Confined b (b.fireWill will).2 := by
      unfold fireWill
      split
      · exact .refl b
      next ht =>
        have hp : Acl.Plain (Topic.levels will.toPublish.topic) := plain_of_checkTopicName ht
        exact h.publish_confined hp
    have hn : Confined (b.fireWill will).2
        ((b.fireWill will).2.modifyConnection k (·.noteFired will)) :=
      .connection (Connection.emitted_of_eq rfl) fun _ hi => hi
    exact hf.trans hn

/-- The will of a lost connection reaches only clients that may read it. -/
theorem connectionLost_confined (h : b.Guarded) (k : ConnectionId) :
    Confined b (b.connectionLost k) := by
  have hclose : Confined b (b.closeConnection k) := .chore (.close : Chore k b _)
  have hg : (b.closeConnection k).Guarded := h.chore (.close : Chore k b _)
  have hk := b.state_closeConnection k
  unfold connectionLost
  refine hclose.trans ?_
  generalize b.closeConnection k = closed at hg hk
  dsimp only
  split
  · exact .refl closed
  next client _ =>
    have hforget : Confined closed (closed.modifyConnection k fun c => { c with client := none }) :=
      .connection (Connection.emitted_of_eq rfl) nofun
    have hf : (closed.modifyConnection k fun c => { c with client := none }).Guarded :=
      hg.of_confined hforget (Mirrored.upheld.modifyConnection hg.mirrored k _)
        (hg.answering.forget hk) (hg.plain.part (.forget : Parting k closed _))
    refine hforget.trans ((takeWill_confined _ client.id k).trans ?_)
    exact ((hf.takeWill client.id k).executeWill_confined k _).trans (unbind_confined _ client.id k _)

lemma onDisconnect_confined (b : Broker) (client : ClientInfo) (k : ConnectionId) :
    Confined b (b.onDisconnect client k) := by
  have hclose : Confined (b.takeWill client.id k).2 ((b.takeWill client.id k).2.closeConnection k) :=
    .chore (.close : Chore k _ _)
  exact (takeWill_confined b client.id k).trans (hclose.trans (unbind_confined _ client.id k _))

/-- Whatever an event does on a connection that a client was admitted on. -/
theorem handle_confined (h : b.Guarded) (hc : (b.connection k).client = some client)
    (event : Event) : Confined b (b.handle .quiet k event).2 := by
  by_cases hv : event = .evicted
  · subst hv
    exact .refl b
  obtain ⟨-, hd⟩ | ⟨-, he⟩ := handle_admitted hc hv
  · generalize b.handle .quiet k event = result at hd
    cases hd with
    | goesOn hd => exact (h.deeds hc hd).1
    | lost hd =>
      obtain ⟨hd, hg⟩ := h.deeds hc hd
      exact hd.trans (hg.connectionLost_confined k)
  · rw [he]
    exact onDisconnect_confined b client k

end partings
end Guarded

namespace Confined

lemma expire (b : Broker) (id : ClientId) : Confined b (b.expire id).2 :=
  expire_induction (P := fun b' => Confined b b') (.refl b) id
    (fun k => .chore (.close : Chore k b _))
    fun _ session h _ _ => h.trans (.teardown _ id session)

lemma accept (b : Broker) : Confined b b.accept.2 := by
  refine .of_same rfl (fun j => ?_) fun _ => rfl
  rw [connection_accept]
  split
  next hj =>
    refine ⟨Connection.emitted_of_eq ?_, nofun⟩
    rw [connection_of_not_lt (by rw [hj]; exact lt_irrefl _)]
    rfl
  · exact ⟨.refl _, fun _ hi => hi⟩

lemma fault (b : Broker) (k : ConnectionId) (fault : Fault) :
    Confined b (b.modifyConnection k fun c =>
      { c with transport := c.transport.suffer fault }) :=
  .connection (Connection.emitted_suffer fault _) fun _ hi => hi

end Confined
end Broker
end MqttBroker
