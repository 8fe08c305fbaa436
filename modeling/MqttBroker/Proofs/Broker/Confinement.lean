import MqttBroker.Proofs.Broker.Fencing
import MqttBroker.Proofs.Broker.Readers

/-!
What clients get to read in a run: what they may read themselves, and what was queued while a
client of their identifier could read it.
-/
namespace MqttBroker.Broker

variable {b b' : Broker} {j k : ConnectionId} {id : ClientId} {client : ClientInfo}
  {operation : Operation} {operations : List Operation} {publish : Publish}

section joined
variable {clean : Bool} {will : Option Will} {sent unsent : List Publish}

/-- Who keeps subscriptions at a CONNECT may still read them. -/
lemma Joined.reads (hj : Joined b b' k client clean will sent unsent)
    (hr : b.config.admission.reauthorizeSubscriptionsOnConnect = true) {bound : Session}
    (hb : b'.session? client.id = some bound) {filter : String} {granted : QoS}
    (hf : bound.subscriptions[filter]? = some granted) :
    b.authorizer.canRead client filter = true := by
  obtain ⟨waiting, session, change, calls, identified, hc, -, -, rfl⟩ := hj.enrolled
  obtain ⟨hconfig, hauthorizer⟩ := (upheld_rules b).chores ⟨rfl, rfl⟩ hc
  rw [session?_withBooks, session?_enroll, if_pos rfl] at hb
  obtain rfl := Option.some.inj hb
  change (session.subscriptions.eraseAll (waiting.lostFilters clean client session))[filter]? =
    some granted at hf
  rw [Table.getElem?_eraseAll] at hf
  split at hf
  · cases hf
  next hn =>
    have hm : filter ∈ session.subscriptions.keys := by
      rw [Std.ExtTreeMap.mem_keys, ← Std.ExtTreeMap.isSome_getElem?_iff_mem, hf]
      rfl
    unfold lostFilters at hn
    split at hn
    · exact absurd hm hn
    · rw [hconfig, if_pos hr, List.mem_filter, hauthorizer] at hn
      by_contra hne
      exact hn ⟨hm, by simpa using hne⟩

/-- Others are at most closed when a client is admitted. -/
lemma Joined.quiet (hj : Joined b b' k client clean will sent unsent) (hkj : k ≠ j) :
    (b'.connection j).client = (b.connection j).client ∧
      (b'.connection j).transport.publishes = (b.connection j).transport.publishes := by
  obtain he | he := hj.admitted.others_cases hkj <;> rw [he] <;> exact ⟨rfl, rfl⟩

end joined

/-- Whoever adds a message to a queue may read it. -/
def Queues (b b' : Broker) : Prop :=
  ∀ id next, b'.session? id = some next → ∀ publish ∈ next.queue,
    (∃ session, b.session? id = some session ∧ publish ∈ session.queue) ∨
      b.authorizer.canRead next.client publish.topic = true

lemma Confined.queues (h : Confined b b') : b.Queues b' := by
  intro id next hn publish hp
  obtain ⟨session, hs, hc⟩ := h.sessions id next hn
  obtain hq | hr := hc.queue publish hp
  · exact .inl ⟨session, hs, hq⟩
  · exact .inr (hc.client ▸ hr)

/-- A client enters: what was queued for it is replayed, and besides topics are handed out only to
clients that may read them. -/
structure Welcomes (b b' : Broker) (k : ConnectionId) (clean : Bool) (client : ClientInfo) :
    Prop where
  idle : (b.connection k).state = .idle
  clientId : (b'.connection k).clientId = some client.id
  replayed : (b.connection k).EmittedAbout
    (fun topic => ∃ queued ∈ b.backlog clean client.id, queued.topic = topic) (b'.connection k)
  others : ∀ j, k ≠ j → (b.connection j).EmittedAbout (b.MayReceive j) (b'.connection j)
  queues : b.Queues b'
  readable : b'.Readable

/-- A client is welcomed if what comes after its admission is confined. -/
lemma Joined.welcomes {clean : Bool} {will : Option Will} {sent unsent : List Publish}
    {admitted : Broker} (hj : Joined b admitted k client clean will sent unsent)
    (hs : (b.connection k).state = .idle) (ha : admitted.Readable)
    (hc : Confined admitted b') (hi : (b'.connection k).clientId = some client.id)
    (hm : (admitted.connection k).Emitted (fun _ => False) (b'.connection k)) :
    Welcomes b b' k clean client := by
  have hauthorizer := ((upheld_rules b).joined ⟨rfl, rfl⟩ hj).2
  refine ⟨hs, hi, ?_, fun j hkj => ?_, fun id next hn publish hp => ?_, hc.readable ha⟩
  · refine (hj.emitted.mono fun publish hp => ⟨publish, ?_, rfl⟩).trans
      (hm.mono fun _ hf => hf.elim)
    rw [hj.backlog_eq]
    exact hp
  · obtain ⟨hclient, hwritten⟩ := hj.quiet hkj
    refine (Connection.emitted_of_eq hwritten).trans ((hc.emitted j).mono fun topic => ?_)
    rintro ⟨info, hi, hr⟩
    exact ⟨info, hclient ▸ hi, hauthorizer ▸ hr⟩
  · obtain ⟨session, hf, hq⟩ | hr := hc.queues id next hn publish hp
    · exact .inl (hj.queued hf hq)
    · exact .inr (hauthorizer ▸ hr)

/-- A broker between two steps of its actors, under an authorizer that knows what filters match and
is asked again at every CONNECT. -/
structure Settled (b : Broker) : Prop where
  consistent : b.Consistent
  owned : b.Owned none
  guarded : b.Guarded
  reauthorizes : b.config.admission.reauthorizeSubscriptionsOnConnect = true

namespace Settled

lemma joined (h : b.Settled) (hs : (b.connection k).state = .idle) {clean : Bool}
    {will : Option Will} {sent unsent : List Publish}
    (hw : ∀ left, will = some left → Acl.Plain (Topic.levels left.topic))
    (hj : Joined b b' k client clean will sent unsent) : b'.Settled := by
  obtain ⟨hconfig, hauthorizer⟩ := (upheld_rules b).joined ⟨rfl, rfl⟩ hj
  have ho := h.owned.joined h.consistent hs hj
  refine ⟨h.consistent.joined hs hj, ho, ⟨hauthorizer ▸ h.guarded.coherent,
    Mirrored.upheld.joined h.guarded.mirrored hj, fun id session hf filter granted hg => ?_,
    .of_owned ho, h.guarded.plain.joined hj hw⟩, hconfig ▸ h.reauthorizes⟩
  rw [hauthorizer]
  by_cases hi : id = client.id
  · subst hi
    obtain ⟨bound, hb, hclient, -⟩ := hj.admitted.session
    obtain rfl := Option.some.inj (hf.symm.trans hb)
    rw [hclient]
    exact hj.reads h.reauthorizes hb hg
  · rw [hj.admitted.sessions id hi] at hf
    exact h.guarded.readable id session hf filter granted hg

lemma enters (h : b.Settled) (he : Enters b b' k operation) :
    ∃ connect client, operation.Presents k connect ∧ Welcomes b b' k connect.clean client := by
  obtain ⟨connect, client, sent, unsent, admitted, hp, hs, hw, hj, hd, rfl⟩ := he
  have ha : admitted.Settled := h.joined hs
    (fun left hl => plain_of_checkTopicName (checkTopicName_of_willAllowed hw hl)) hj
  have hk : (admitted.connection k).clientId = some client.id := hj.wrote.kept.clientId
  refine ⟨connect, client, hp, ?_⟩
  have hserved := hd.served
  generalize b.processConnect .quiet k connect = result at hserved
  obtain ⟨result, b'⟩ := result
  dsimp only at hserved ⊢
  generalize result.isAccepted = accepted at hserved
  cases hserved with
  | goesOn he =>
    subst he
    exact hj.welcomes hs ha.guarded.readable (.refl _) hk (.refl _)
  | lost he =>
    subst he
    have hm := (connectionLost_moves (admitted.speaksFor_speaker k)).kept k
    exact hj.welcomes hs ha.guarded.readable (ha.guarded.connectionLost_confined k)
      (hm.clientId.trans hk) (admitted.connectionLost_mute k)

/-- How a step hands out topics: only to clients that may read them, but for what is replayed to a
client that enters. -/
theorem perform_cases (h : b.Settled) (hd : operation.IsDriven b) :
    Confined b (b.perform operation) ∨ ∃ (k : ConnectionId) (connect : Connect)
      (client : ClientInfo), operation.Presents k connect ∧
        Welcomes b (b.perform operation) k connect.clean client := by
  have hconnect : ∀ k connect, operation.Presents k connect →
      Confined b (b.processConnect .quiet k connect).2 ∨
        ∃ (j : ConnectionId) (other : Connect) (client : ClientInfo), operation.Presents j other ∧
          Welcomes b (b.processConnect .quiet k connect).2 j other.clean client := by
    intro k connect hp
    obtain hr | he := h.consistent.processConnect_enters k hp
    · exact .inl (.chores hr.chores)
    · exact .inr ⟨k, h.enters he⟩
  cases operation with
  | accept => exact .inl (.accept b)
  | connect k connect => exact hconnect k connect (.inl rfl)
  | event k event =>
    change Confined b (b.handle .quiet k event).2 ∨
      ∃ (j : ConnectionId) (other : Connect) (client : ClientInfo), _ ∧
        Welcomes b (b.handle .quiet k event).2 j other.clean client
    cases hc : (b.connection k).client with
    | some client => exact .inl (h.guarded.handle_confined hc event)
    | none =>
      obtain rfl | he | ⟨connect, rfl, he⟩ := handle_unadmitted hc event
      · exact .inl (.refl b)
      · rw [he]
        exact .inl (h.guarded.connectionLost_confined k)
      · rw [he]
        exact hconnect k connect (.inr rfl)
  | expire id => exact .inl (.expire b id)
  | fault k fault => exact .inl (.fault b k fault)
  | _ => exact hd.elim

/-- What every step of the actors keeps. -/
theorem perform (h : b.Settled) (hd : operation.IsDriven b) : (b.perform operation).Settled := by
  have ho := h.owned.perform h.consistent hd
  obtain ⟨hconfig, hauthorizer⟩ := (upheld_rules b).perform ⟨rfl, rfl⟩ operation
  have hr : (b.perform operation).Readable := by
    obtain hc | ⟨k, connect, client, -, hw⟩ := h.perform_cases hd
    · exact hc.readable h.guarded.readable
    · exact hw.readable
  have hp : operation.Respects (fun topic => Acl.Plain (Topic.levels topic)) b :=
    ⟨hd, fun _ _ _ _ _ _ ht _ => plain_of_checkTopicName ht,
      fun _ _ _ _ _ ht => plain_of_checkTopicName ht⟩
  exact ⟨h.consistent.perform hd, ho, ⟨hauthorizer ▸ h.guarded.coherent,
    Mirrored.upheld.perform h.guarded.mirrored operation, hr, .of_owned ho,
    h.guarded.plain.perform h.consistent hp⟩, hconfig ▸ h.reauthorizes⟩

theorem after (h : b.Settled)
    (ha : b.Allows (fun b operation => operation.IsDriven b) operations) :
    (b.after operations).Settled :=
  after_induction (P := Settled) (fun _ _ hd h => h.perform hd) ha h

lemma of_opened (h : b.Opened) (hr : ∀ topic, b.retained.get? topic = none)
    (hc : b.authorizer.Coherent)
    (hreauthorizes : b.config.admission.reauthorizeSubscriptionsOnConnect = true) : b.Settled := by
  refine ⟨.of_opened h, .of_opened h, ⟨hc, .of_opened h, fun id session hs => ?_,
    .of_owned (.of_opened h), .of_opened h fun topic publish hm => ?_⟩, hreauthorizes⟩
  · rw [h.session?] at hs
    cases hs
  · rw [hr] at hm
    cases hm

end Settled

section runs

/-- The client was admitted on the connection in the course of a run. -/
def AdmitsOn (b : Broker) (operations : List Operation) (k : ConnectionId) (client : ClientInfo) :
    Prop :=
  ∃ before, before <+: operations ∧ ((b.after before).connection k).client = some client

/-- In the course of a run a client could read the topic that had the identifier. -/
def WasReadable (b : Broker) (operations : List Operation) (id : ClientId) (topic : String) :
    Prop :=
  ∃ before session, before <+: operations ∧ (b.after before).session? id = some session ∧
    b.authorizer.canRead session.client topic = true

/-- After the first operations, the step admits a client on a connection that was not written any
publish to.  The step writes these, which were queued for a client of the same identifier, and
were readable for one. -/
structure Replays (b : Broker) (first : List Operation) (step : Operation) (k : ConnectionId)
    (replayed : List Publish) : Prop where
  blank : ((b.after first).connection k).transport.publishes = []
  written : ((b.after (first ++ [step])).connection k).transport.publishes = replayed
  queued : ∃ connect id, step.Presents k connect ∧
    ((b.after (first ++ [step])).connection k).clientId = some id ∧
    ∀ publish ∈ replayed,
      (∃ queued ∈ (b.after first).backlog connect.clean id, queued.topic = publish.topic) ∧
        b.WasReadable first id publish.topic

/-- What was written to a connection: first, if anything, what was replayed as its client was
admitted, and then only what this client may read. -/
def Feeds (b : Broker) (operations : List Operation) (k : ConnectionId) : Prop :=
  ∃ replayed live, ((b.after operations).connection k).transport.publishes = replayed ++ live ∧
    (replayed = [] ∨ ∃ first step, first ++ [step] <+: operations ∧
      b.Replays first step k replayed) ∧
    ∀ publish ∈ live, ∃ client, b.AdmitsOn operations k client ∧
      b.authorizer.canRead client publish.topic = true

/-- What a run has come to for the clients that read. -/
structure Tracked (b : Broker) (operations : List Operation) : Prop where
  queued : ∀ id session, (b.after operations).session? id = some session →
    ∀ publish ∈ session.queue, b.WasReadable operations id publish.topic
  blank : ∀ k, ((b.after operations).connection k).clientId = none →
    ((b.after operations).connection k).transport.publishes = []
  feeds : ∀ k, b.Feeds operations k

variable {first : List Operation} {topic : String}

lemma AdmitsOn.mono (h : b.AdmitsOn first k client) (hp : first <+: operations) :
    b.AdmitsOn operations k client := by
  obtain ⟨before, hb, hc⟩ := h
  exact ⟨before, hb.trans hp, hc⟩

/-- At most one client is admitted on a connection. -/
lemma AdmitsOn.unique (hs : b.Settled)
    (ha : b.Allows (fun b operation => operation.IsDriven b) operations) {other : ClientInfo}
    (h : b.AdmitsOn operations k client) (h' : b.AdmitsOn operations k other) : client = other := by
  -- the client of a connection past its admission is the one it had
  have hkept : ∀ {first second : List Operation} {client other : ClientInfo}, first <+: second →
      second <+: operations → ((b.after first).connection k).client = some client →
      ((b.after second).connection k).client = some other → client = other := by
    rintro first second client other ⟨between, rfl⟩ ⟨rest, rfl⟩ hc ho
    obtain ⟨hfirst, hbetween⟩ := allows_append.mp (allows_append.mp ha).1
    have hcons := (hs.after hfirst).consistent
    have hi := (hcons.regular k).admitted client hc
    rw [after_append] at ho
    have hkept := (Abides.after hcons hbetween).kept k ⟨lt_size_of_clientId hi, hcons.begun hi⟩
    exact Option.some.inj (hc.symm.trans (hkept.client other ho))
  obtain ⟨first, hf, hc⟩ := h
  obtain ⟨second, hl, ho⟩ := h'
  obtain hp | hp := List.prefix_or_prefix_of_prefix hf hl
  · exact hkept hp hl hc ho
  · exact (hkept hp hf ho hc).symm

lemma WasReadable.mono (h : b.WasReadable first id topic) (hp : first <+: operations) :
    b.WasReadable operations id topic := by
  obtain ⟨before, session, hb, hs⟩ := h
  exact ⟨before, session, hb.trans hp, hs⟩

lemma authorizer_after (b : Broker) (operations : List Operation) :
    (b.after operations).authorizer = b.authorizer :=
  ((upheld_rules b).after ⟨rfl, rfl⟩ operations).2

/-- A connection goes on to be fed if it is written only what its client may read. -/
lemma Feeds.extend (h : b.Feeds operations k)
    (he : ((b.after operations).connection k).EmittedAbout ((b.after operations).MayReceive k)
      ((b.after (operations ++ [operation])).connection k)) :
    b.Feeds (operations ++ [operation]) k := by
  obtain ⟨replayed, live, hw, hr, hl⟩ := h
  obtain ⟨written, hn, ht⟩ := he.topics
  have hp : operations <+: operations ++ [operation] := List.prefix_append _ _
  refine ⟨replayed, live ++ written, by rw [hn, hw, List.append_assoc], ?_, fun publish hm => ?_⟩
  · refine hr.imp_right ?_
    rintro ⟨first, step, hf, hr⟩
    exact ⟨first, step, hf.trans hp, hr⟩
  · rcases List.mem_append.mp hm with hm | hm
    · obtain ⟨client, hc, hr⟩ := hl publish hm
      exact ⟨client, hc.mono hp, hr⟩
    · obtain ⟨client, hc, hr⟩ := ht publish hm
      exact ⟨client, ⟨operations, hp, hc⟩, authorizer_after b operations ▸ hr⟩

/-- While nobody is admitted on a connection, nobody can read what is written to it. -/
lemma Consistent.blank (h : b.Consistent) (hn : (b.connection k).clientId = none)
    {next : Connection} (he : (b.connection k).EmittedAbout (b.MayReceive k) next) :
    next.transport.publishes = (b.connection k).transport.publishes := by
  obtain ⟨written, hw, ht⟩ := he.topics
  cases written with
  | nil => rw [hw, List.append_nil]
  | cons publish rest =>
    obtain ⟨client, hc, -⟩ := ht publish List.mem_cons_self
    rw [(h.regular k).admitted client hc] at hn
    cases hn

namespace Tracked

/-- A connection that a client enters by is sent what was queued for that. -/
lemma enters (h : b.Tracked operations) (hs : (b.after operations).Settled) {connect : Connect}
    (ho : operation.Presents k connect)
    (hw : Welcomes (b.after operations) (b.after (operations ++ [operation])) k connect.clean
      client) : b.Feeds (operations ++ [operation]) k := by
  have hk := h.blank k (hs.consistent.clientId_of_idle hw.idle)
  obtain ⟨written, hn, ht⟩ := hw.replayed.topics
  rw [hk, List.nil_append] at hn
  refine ⟨written, [], by rw [hn, List.append_nil], .inr ⟨operations, operation,
    List.prefix_rfl, hk, hn, connect, client.id, ho, hw.clientId, fun publish hm => ?_⟩, nofun⟩
  obtain ⟨queued, hq, ht⟩ := ht publish hm
  obtain ⟨session, hf, hq'⟩ := mem_backlog hq
  exact ⟨⟨queued, hq, ht⟩, ht ▸ h.queued client.id session hf queued hq'⟩

/-- What one step of the actors comes to. -/
theorem step (h : b.Tracked operations) (hs : (b.after operations).Settled)
    (hd : operation.IsDriven (b.after operations)) : b.Tracked (operations ++ [operation]) := by
  have hp : operations <+: operations ++ [operation] := List.prefix_append _ _
  have he : b.after (operations ++ [operation]) = (b.after operations).perform operation :=
    after_append operations [operation]
  have hcases := hs.perform_cases hd
  rw [← he] at hcases
  -- only one that a client enters by is written what others could read
  have hemitted : ∀ j, ((b.after operations).connection j).EmittedAbout
      ((b.after operations).MayReceive j) ((b.after (operations ++ [operation])).connection j) ∨
      ∃ (connect : Connect) (client : ClientInfo), operation.Presents j connect ∧
        Welcomes (b.after operations) (b.after (operations ++ [operation])) j connect.clean
          client := by
    intro j
    obtain hc | ⟨k, connect, client, ho, hw⟩ := hcases
    · exact .inl (hc.emitted j)
    · by_cases hkj : k = j
      · subst hkj
        exact .inr ⟨connect, client, ho, hw⟩
      · exact .inl (hw.others j hkj)
  constructor
  case queued =>
    intro id next hn publish hm
    have hqueues : (b.after operations).Queues (b.after (operations ++ [operation])) := by
      obtain hc | ⟨k, connect, client, -, hw⟩ := hcases
      · exact hc.queues
      · exact hw.queues
    obtain ⟨session, hf, hq⟩ | hr := hqueues id next hn publish hm
    · exact (h.queued id session hf publish hq).mono hp
    · exact ⟨_, next, List.prefix_rfl, hn, authorizer_after b operations ▸ hr⟩
  case blank =>
    intro k hn
    have hn' : ((b.after operations).connection k).clientId = none := by
      by_contra hne
      obtain ⟨id, hi⟩ := Option.ne_none_iff_exists'.mp hne
      have hkept := (Abides.perform hs.consistent hd).kept k
        ⟨lt_size_of_clientId hi, hs.consistent.begun hi⟩
      rw [he, hkept.clientId, hi] at hn
      cases hn
    obtain hw | ⟨connect, client, -, hw⟩ := hemitted k
    · rw [hs.consistent.blank hn' hw]
      exact h.blank k hn'
    · rw [hw.clientId] at hn
      cases hn
  case feeds =>
    intro k
    obtain hw | ⟨connect, client, ho, hw⟩ := hemitted k
    · exact (h.feeds k).extend hw
    · exact h.enters hs ho hw

theorem of_opened (h : b.Opened) (hs : b.Settled)
    (ha : b.Allows (fun b operation => operation.IsDriven b) operations) :
    b.Tracked operations := by
  induction operations using List.reverseRecOn with
  | nil =>
    have hw : ∀ k, (b.connection k).transport.publishes = [] := fun k => by
      rw [h.connection]
      rfl
    refine ⟨fun id session hf => ?_, fun k _ => hw k, fun k => ⟨[], [], hw k, .inl rfl, nofun⟩⟩
    change b.session? id = some session at hf
    rw [h.session?] at hf
    cases hf
  | append_singleton operations operation ih =>
    obtain ⟨ha, hd, -⟩ := allows_append.mp ha
    exact (ih ha).step (hs.after ha) hd

end Tracked

/-- In a run in which connections are driven by their actors, under access control that is asked
again at every CONNECT, a client is written what was replayed to it as it was admitted, which a
client of its identifier could read before, and then only what it may read itself. -/
theorem clients_are_sent_what_they_may_read (h : b.Opened)
    (hempty : ∀ topic, b.retained.get? topic = none)
    (hacl : b.authorizer = Acl.authorizer b.config.acl)
    (hreauthorizes : b.config.admission.reauthorizeSubscriptionsOnConnect = true)
    {operations : List Operation}
    (ha : b.Allows (fun b operation => operation.IsDriven b) operations) (k : ConnectionId) :
    ∃ replayed live, ((b.after operations).connection k).transport.publishes = replayed ++ live ∧
      (∀ publish ∈ live, ∃ client, (∀ other, b.AdmitsOn operations k other ↔ other = client) ∧
        b.authorizer.canRead client publish.topic = true) ∧
      (replayed = [] ∨ ∃ first step, first ++ [step] <+: operations ∧
        b.Replays first step k replayed) := by
  have hs : b.Settled :=
    .of_opened h hempty (hacl ▸ Acl.coherent_authorizer _) hreauthorizes
  obtain ⟨replayed, live, hw, hr, hl⟩ := (Tracked.of_opened h hs ha).feeds k
  refine ⟨replayed, live, hw, fun publish hp => ?_, hr⟩
  obtain ⟨client, hc, hread⟩ := hl publish hp
  exact ⟨client, fun other => ⟨fun ho => ho.unique hs ha hc, fun he => he ▸ hc⟩, hread⟩

/-- A client comes back anonymously and loses a subscription, but not what was queued for it
before. -/
theorem clients_are_sent_what_they_may_read_anonymously :
    let config : Config :=
      { admission := { reauthorizeSubscriptionsOnConnect := true }
        acl := { enabled := true, default := ⟨["#"], ["#"]⟩, anonymous := ⟨[], ["public"]⟩ } }
    let start : Broker := { lenient config .empty with authorizer := Acl.authorizer config.acl }
    let message (topic : String) : Event :=
      .packet (.publish ⟨topic, [1], .atLeastOnce, false, false, some 1⟩)
    let operations : List Operation := [.accept, .accept, .accept,
      .connect 0 ⟨"MQTT", 4, false, "c", none, some "u", some []⟩,
      .event 0 (.packet (.subscribe 1 [("secret", .atLeastOnce), ("public", .atLeastOnce)])),
      .event 0 .transportClosed,
      .connect 1 ⟨"MQTT", 4, true, "p", none, some "u", some []⟩, .event 1 (message "secret"),
      .connect 2 ⟨"MQTT", 4, false, "c", none, none, none⟩, .event 1 (message "secret"),
      .event 1 (message "public")]
    let written := ((start.after operations).connection 2).transport.publishes
    start.Opened ∧ (∀ topic, start.retained.get? topic = none) ∧
      start.authorizer = Acl.authorizer start.config.acl ∧
      start.config.admission.reauthorizeSubscriptionsOnConnect = true ∧
      start.Allows (fun b operation => operation.IsDriven b) operations ∧
      (∃ replayed live, written = replayed ++ live ∧
        (∀ publish ∈ live, ∃ client, (∀ other, start.AdmitsOn operations 2 other ↔ other = client) ∧
          start.authorizer.canRead client publish.topic = true) ∧
        (replayed = [] ∨ ∃ first step, first ++ [step] <+: operations ∧
          start.Replays first step 2 replayed)) ∧
      written.map (·.topic) = ["secret", "public"] := by
  intro config start message operations written
  have hp : start.Opened := ⟨.empty, .empty, _, _, rfl, rfl⟩
  have hempty : ∀ topic, start.retained.get? topic = none := fun topic => by
    change (∅ : Table Publish)[topic]? = none
    exact Std.ExtTreeMap.getElem?_empty
  have ha : start.Allows (fun b operation => operation.IsDriven b) operations :=
    ⟨trivial, trivial, trivial, trivial, nofun, nofun, trivial, nofun, trivial, nofun, nofun,
      trivial⟩
  exact ⟨hp, hempty, rfl, rfl, ha,
    clients_are_sent_what_they_may_read hp hempty rfl rfl ha 2, by decide +kernel⟩

/-- Queued messages are replayed to whoever comes back under their client's identifier, without
asking who may read them. -/
theorem replay_reaches_client_that_may_not_read :
    let config : Config :=
      { admission := { reauthorizeSubscriptionsOnConnect := true }
        acl := { enabled := true, default := ⟨["#"], ["secret"]⟩ } }
    let start : Broker := { lenient config .empty with authorizer := Acl.authorizer config.acl }
    let operations : List Operation := [.accept, .accept, .accept,
      .connect 0 ⟨"MQTT", 4, false, "c", none, some "u", some []⟩,
      .event 0 (.packet (.subscribe 1 [("secret", .atLeastOnce)])), .event 0 .transportClosed,
      .connect 1 ⟨"MQTT", 4, true, "p", none, some "u", some []⟩,
      .event 1 (.packet (.publish ⟨"secret", [1], .atLeastOnce, false, false, some 1⟩)),
      .connect 2 ⟨"MQTT", 4, false, "c", none, none, none⟩]
    let final := start.after operations
    start.Opened ∧ start.retained.isEmpty = true ∧ start.stored.records.isEmpty = true ∧
      start.Allows (fun b operation => operation.IsDriven b) operations ∧
      (final.connection 2).client = some (.anonymous "c") ∧
      (final.connection 2).transport.publishes.map (·.topic) = ["secret"] ∧
      start.authorizer.canRead (.anonymous "c") "secret" = false := by
  intro config start operations final
  exact ⟨⟨.empty, .empty, _, _, rfl, rfl⟩, by decide +kernel, by decide +kernel,
    ⟨trivial, trivial, trivial, trivial, nofun, nofun, trivial, nofun, trivial, trivial⟩,
    by decide +kernel, by decide +kernel, by decide +kernel⟩

end runs
end MqttBroker.Broker
