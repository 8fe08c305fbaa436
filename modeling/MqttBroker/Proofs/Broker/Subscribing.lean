import MqttBroker.Proofs.Broker.Handling
import MqttBroker.Proofs.Broker.Run
import MqttBroker.Proofs.Retained

/-!
How a SUBSCRIBE is answered: one code for each filter, and after it the retained messages that are
due under those that were granted.
-/
namespace MqttBroker

namespace Transport
variable {transport : Transport}

/-- No write fails, however many are made. -/
def Works (transport : Transport) : Prop := ∀ writes, ¬ transport.FailsWithin writes

lemma Works.not_fails (h : transport.Works) : ¬ transport.Fails := fun hf =>
  h 1 (failsAfter_zero.mpr hf).2

lemma Works.isOpen (h : transport.Works) : transport.isOpen = true := by
  by_contra ho
  exact h.not_fails (.inr (.inl (Bool.eq_false_of_not_eq_true ho)))

lemma Works.send (h : transport.Works) (packet : Packet) : (transport.send packet).2.Works :=
  fun writes hf => h (writes + 1) ((failsWithin_succ packet writes).mpr (.inr ⟨h.not_fails, hf⟩))

end Transport

namespace Connection
variable {c : Connection}

lemma send_works (h : c.transport.Works) (packet : Packet) :
    (c.send packet).1 = .ok () ∧ (c.send packet).2.transport.written.toList =
      c.transport.written.toList ++ [packet] := by
  refine ⟨(Transport.send_fst _ _).mpr h.not_fails, ?_⟩
  change (c.transport.send packet).2.written.toList = _
  rw [Transport.written_send, if_neg h.not_fails, Array.toList_push]

/-- As long as its transport works, a connection writes all publishes. -/
lemma writeAll_works (h : c.transport.Works) (publishes : List Publish) :
    (c.writeAll publishes).1 = .ok () ∧ (c.writeAll publishes).2.transport.Works ∧
      (c.writeAll publishes).2.transport.written.toList =
        c.transport.written.toList ++ (c.stamped publishes).map .publish := by
  refine ⟨(c.writeAll_fst publishes).mpr (h _), ?_, ?_⟩
  · induction publishes generalizing c with
    | nil => exact h
    | cons publish rest ih =>
      obtain ⟨-, d, he, ht, -⟩ | ⟨hf, -⟩ := c.writePublish_cases publish
      · unfold writeAll
        rw [he]
        exact ih (ht ▸ h.send _)
      · exact absurd hf h.not_fails
  · obtain ⟨sent, unsent, hp, hw, ⟨-, rfl, -⟩ | ⟨-, -, hf⟩⟩ := c.writeAll_cases publishes
    · rw [hw, hp, List.append_nil]
    · exact absurd hf.2 (h _)

end Connection

namespace Broker

/-- Two brokers with the same rules, and the same messages retained. -/
structure RulesAlike (b b' : Broker) : Prop where
  config : b'.config = b.config
  authorizer : b'.authorizer = b.authorizer
  retained : b'.retained = b.retained

/-- The filter is valid and within the limits, and the client may read it. -/
structure Grants (b : Broker) (client : ClientInfo) (filter : String) : Prop where
  valid : Topic.validateFilter filter = .ok ()
  limits : Topic.checkLimits b.config.mqtt.topicLimits filter = .ok ()
  canRead : b.authorizer.canRead client filter = true

instance (b : Broker) (client : ClientInfo) (filter : String) :
    Decidable (b.Grants client filter) :=
  decidable_of_iff (Topic.validateFilter filter = .ok () ∧
      Topic.checkLimits b.config.mqtt.topicLimits filter = .ok () ∧
      b.authorizer.canRead client filter = true)
    ⟨fun ⟨valid, limits, canRead⟩ => ⟨valid, limits, canRead⟩,
      fun ⟨valid, limits, canRead⟩ => ⟨valid, limits, canRead⟩⟩

/-- The answer to one filter with the QoS that was asked for. -/
def answer (b : Broker) (client : ClientInfo) (request : String × QoS) : SubackCode :=
  if b.Grants client request.1 then some (min request.2 b.config.mqtt.qosLimit) else none

/-- The retained messages that follow the answer. -/
def due (b : Broker) (client : ClientInfo) (request : String × QoS) : List Publish :=
  (b.answer client request).elim [] (b.retainedFor request.1)

/-- The filters that are granted, each with its QoS. -/
def granted (b : Broker) (client : ClientInfo) (requests : List (String × QoS)) :
    List (String × QoS) :=
  requests.filterMap fun request => (b.answer client request).map (request.1, ·)

/-- A client whose connection is open and has its session. -/
structure Attends (b : Broker) (k : ConnectionId) (client : ClientInfo) (session : Session) :
    Prop where
  admitted : (b.connection k).client = some client
  established : (b.connection k).state = .established
  works : (b.connection k).transport.Works
  owned : b.session? client.id = some session
  bound : session.connection = some k

end Broker

/-- Whatever others do meanwhile, they keep to the rules and leave a client's session and one
connection alone. -/
structure Interlude.LeavesAlone (meanwhile : Interlude) (id : ClientId) (k : ConnectionId) :
    Prop where
  rules : ∀ callout call (b : Broker), b.RulesAlike (meanwhile callout call b)
  session : ∀ callout call b, (meanwhile callout call b).session? id = b.session? id
  connection : ∀ callout call b, (meanwhile callout call b).connection k = b.connection k

/-- The session with further subscriptions, of which the later ones count. -/
def Session.subscribing (session : Session) (entries : List (String × QoS)) : Session :=
  { session with
    subscriptions :=
      entries.foldl (fun table entry => table.insert entry.1 entry.2) session.subscriptions }

lemma Session.subscribing_append (session : Session) (entries later : List (String × QoS)) :
    session.subscribing (entries ++ later) = (session.subscribing entries).subscribing later := by
  unfold subscribing
  rw [List.foldl_append]

namespace Broker

variable {b b' b'' : Broker} {k : ConnectionId} {client : ClientInfo} {session : Session}
  {meanwhile : Interlude} {filter : String} {qos : QoS}

section rules

lemma RulesAlike.refl (b : Broker) : b.RulesAlike b := ⟨rfl, rfl, rfl⟩

lemma RulesAlike.trans (h : b.RulesAlike b') (h' : b'.RulesAlike b'') : b.RulesAlike b'' :=
  ⟨h'.config.trans h.config, h'.authorizer.trans h.authorizer, h'.retained.trans h.retained⟩

lemma RulesAlike.answer (h : b.RulesAlike b') (client : ClientInfo) :
    b'.answer client = b.answer client := by
  funext request
  have hg : b'.Grants client request.1 ↔ b.Grants client request.1 := by
    constructor <;> rintro ⟨hv, hl, hr⟩
    · exact ⟨hv, h.config ▸ hl, h.authorizer ▸ hr⟩
    · exact ⟨hv, h.config.symm ▸ hl, h.authorizer.symm ▸ hr⟩
  unfold Broker.answer
  rw [h.config]
  exact if_congr hg rfl rfl

lemma RulesAlike.due (h : b.RulesAlike b') (client : ClientInfo) :
    b'.due client = b.due client := by
  funext request
  unfold Broker.due retainedFor
  rw [h.answer, h.retained]

lemma RulesAlike.granted (h : b.RulesAlike b') (client : ClientInfo)
    (requests : List (String × QoS)) : b'.granted client requests = b.granted client requests := by
  unfold Broker.granted
  rw [h.answer]

lemma checkFilter_eq_ok : b.checkFilter filter = .ok () ↔ Topic.validateFilter filter = .ok () ∧
    Topic.checkLimits b.config.mqtt.topicLimits filter = .ok () := by
  unfold checkFilter Topic.checkFilter
  rcases Topic.validateFilter filter with error | ⟨⟩
  · exact iff_of_false nofun nofun
  · exact ⟨fun h => ⟨rfl, h⟩, fun h => h.2⟩

lemma granted_cons (b : Broker) (client : ClientInfo) (request : String × QoS)
    (requests : List (String × QoS)) :
    b.granted client (request :: requests) =
      b.granted client [request] ++ b.granted client requests :=
  List.filterMap_append (l := [request])

lemma granted_singleton (b : Broker) (client : ClientInfo) (request : String × QoS) :
    b.granted client [request] = ((b.answer client request).map (request.1, ·)).toList := by
  unfold granted
  cases h : b.answer client request <;> simp [h]

end rules

section registering

/-- Others do not notice the call, nor does the client. -/
lemma callOut_owned (hm : meanwhile.LeavesAlone client.id k) (b : Broker) (callout : Callout) :
    b.RulesAlike (b.callOut meanwhile callout) ∧
      (b.callOut meanwhile callout).session? client.id = b.session? client.id ∧
      (b.callOut meanwhile callout).connection k = b.connection k := by
  obtain ⟨hc, ha, hr⟩ := hm.rules callout (b.calls.get callout)
    { b with calls := b.calls.tick callout }
  exact ⟨⟨hc, ha, hr⟩, hm.session _ _ _, hm.connection _ _ _⟩

/-- The subscription of a client that has its session is entered, whoever acts meanwhile. -/
lemma enterSubscription_owned (hm : meanwhile.LeavesAlone client.id k)
    (hs : b.session? client.id = some session) (hk : session.connection = some k)
    (filter : String) (qos : QoS) : ∃ b',
    b.enterSubscription meanwhile client.id k filter qos = (true, b') ∧ b.RulesAlike b' ∧
      b'.session? client.id = some (session.subscribing [(filter, qos)]) ∧
      b'.connection k = b.connection k := by
  have hb : b.boundSession? client.id k = some session := boundSession?_eq_some.mpr ⟨hs, hk⟩
  set next := session.subscribing [(filter, qos)] with hn
  set entered := { b with directory := (b.directory.add filter client.id qos).2 }.setSession client.id
    next with he
  have hf : entered.session? client.id = some next := by
    rw [he, session?_setSession, if_pos rfl]
  have hstep : b.enterSubscription meanwhile client.id k filter qos =
      (true, if session.clean then entered else entered.saveSession meanwhile client.id next) := by
    unfold enterSubscription
    rw [hb]
    rfl
  rw [hstep]
  refine ⟨_, rfl, ?_⟩
  split
  · exact ⟨⟨rfl, rfl, rfl⟩, hf, rfl⟩
  · obtain ⟨⟨hc, ha, hr⟩, hs, hk⟩ := callOut_owned hm entered .save
    exact ⟨⟨hc, ha, hr⟩, hs.trans hf, hk⟩

/-- One filter is granted or refused as it is to be answered, and its subscription entered. -/
lemma subscribe_owned (hm : meanwhile.LeavesAlone client.id k)
    (hs : b.session? client.id = some session) (hk : session.connection = some k)
    (filter : String) (qos : QoS) : ∃ result b',
    b.subscribe meanwhile client k filter qos = (result, b') ∧ b.RulesAlike b' ∧
      b'.session? client.id = some (session.subscribing (b.granted client [(filter, qos)])) ∧
      b'.connection k = b.connection k ∧
      ((∃ grant, result = .ok grant ∧ b.answer client (filter, qos) = some grant.qos ∧
          b.due client (filter, qos) = grant.retained) ∨
        ∃ error, result = .error error ∧ b.answer client (filter, qos) = none) := by
  have hrefused : ¬ b.Grants client filter → b.answer client (filter, qos) = none ∧
      session.subscribing (b.granted client [(filter, qos)]) = session := by
    intro hg
    have ha : b.answer client (filter, qos) = none := if_neg hg
    rw [granted_singleton, ha]
    exact ⟨rfl, rfl⟩
  unfold subscribe askRead
  rcases hv : b.checkFilter filter with cause | ⟨⟩
  · obtain ⟨ha, hn⟩ := hrefused fun hg => by
      rw [checkFilter_eq_ok.mpr ⟨hg.valid, hg.limits⟩] at hv
      cases hv
    rw [ha, hn]
    exact ⟨_, b, rfl, .refl b, hs, rfl, .inr ⟨_, rfl, rfl⟩⟩
  obtain ⟨hrules, hsession, hconnection⟩ := callOut_owned hm b .read
  generalize b.callOut meanwhile .read = asked at hrules hsession hconnection ⊢
  dsimp only
  cases hr : asked.authorizer.canRead client filter with
  | false =>
    obtain ⟨ha, hn⟩ := hrefused fun hg => by
      rw [hrules.authorizer, hg.canRead] at hr
      cases hr
    rw [ha, hn]
    exact ⟨_, asked, rfl, hrules, hsession.trans hs, hconnection, .inr ⟨_, rfl, rfl⟩⟩
  | true =>
    have hg : b.Grants client filter := by
      obtain ⟨hv, hl⟩ := checkFilter_eq_ok.mp hv
      exact ⟨hv, hl, hrules.authorizer ▸ hr⟩
    have ha : b.answer client (filter, qos) = some (min qos b.config.mqtt.qosLimit) := if_pos hg
    obtain ⟨entered, he, hrules', hsession', hconnection'⟩ := enterSubscription_owned hm
      (hsession.trans hs) hk filter (min qos asked.config.mqtt.qosLimit)
    have hall := hrules.trans hrules'
    dsimp only
    rw [he]
    refine ⟨_, entered, rfl, hall, ?_, hconnection'.trans hconnection, .inl ⟨_, rfl, ?_, ?_⟩⟩
    · rw [hsession', granted_singleton, ha, hrules.config]
      rfl
    · rw [ha, hrules.config]
    · rw [due, ha, hrules.config]
      simp only [Option.elim, retainedFor, hall.retained]

/-- All the filters are answered in their order, and what is due under them is put together. -/
lemma subscribeAll_owned (hm : meanwhile.LeavesAlone client.id k) (requests : List (String × QoS))
    (hs : b.session? client.id = some session) (hk : session.connection = some k) : ∃ b',
    subscribeAll meanwhile client k requests b =
        ((requests.map (b.answer client), requests.flatMap (b.due client)), b') ∧
      b.RulesAlike b' ∧
      b'.session? client.id = some (session.subscribing (b.granted client requests)) ∧
      b'.connection k = b.connection k := by
  induction requests generalizing b session with
  | nil => exact ⟨b, rfl, .refl b, hs, rfl⟩
  | cons request rest ih =>
    obtain ⟨filter, qos⟩ := request
    obtain ⟨result, b₁, he, hr, hs₁, hc, ho⟩ := subscribe_owned hm hs hk filter qos
    obtain ⟨b₂, hall, hr₂, hs₂, hc₂⟩ := ih hs₁ hk
    rw [hr.answer, hr.due] at hall
    rw [hr.granted] at hs₂
    refine ⟨b₂, ?_, hr.trans hr₂, ?_, hc₂.trans hc⟩
    · unfold subscribeAll
      rw [he]
      dsimp only
      rw [hall]
      obtain ⟨grant, rfl, ha, hd⟩ | ⟨error, rfl, ha⟩ := ho
      · rw [List.map_cons, List.flatMap_cons, ha, hd]
      · rw [List.map_cons, List.flatMap_cons, due, ha]
        rfl
    · rw [hs₂, b.granted_cons client (filter, qos) rest, Session.subscribing_append]

end registering

section handling

/-- A connection that works gets a packet through. -/
lemma Attends.send (h : b.Attends k client session) (packet : Packet) : ∃ b',
    b.onConnection k (·.send packet) = (.ok (), b') ∧ b.RulesAlike b' ∧
      b'.Attends k client session ∧ b'.connection k = ((b.connection k).send packet).2 ∧
      (b'.connection k).transport.written.toList =
        (b.connection k).transport.written.toList ++ [packet] := by
  have hk : k < b.connections.size := lt_size_of_state (by rw [h.established]; nofun)
  obtain ⟨hsent, hwritten⟩ := Connection.send_works h.works packet
  have hsend : (b.onConnection k (·.send packet)).1 = .ok () := by
    rw [onConnection_fst]
    exact hsent
  have hc : (b.modifyConnection k fun c => (c.send packet).2).connection k =
      ((b.connection k).send packet).2 := by
    rw [connection_modifyConnection _ hk, if_pos rfl]
  refine ⟨b.modifyConnection k fun c => (c.send packet).2, Prod.ext hsend rfl, ⟨rfl, rfl, rfl⟩,
    ⟨?_, ?_, ?_, h.owned, h.bound⟩, hc, ?_⟩ <;> rw [hc]
  · exact h.admitted
  · exact h.established
  · exact h.works.send packet
  · exact hwritten

/-- So it gets all publishes that are for its client through. -/
lemma Attends.deliverAll (h : b.Attends k client session) (publishes : List Publish) : ∃ b',
    Broker.deliverAll k publishes b = (.ok (), b') ∧ b.RulesAlike b' ∧
      b'.Attends k client session ∧
      (b'.connection k).transport.written.toList = (b.connection k).transport.written.toList ++
        ((b.connection k).stamped publishes).map .publish := by
  have hk : k < b.connections.size := lt_size_of_state (by rw [h.established]; nofun)
  obtain ⟨hd, he⟩ := deliverAll_established publishes b h.established
  obtain ⟨hr, hworks, hwritten⟩ := Connection.writeAll_works h.works publishes
  obtain ⟨sent, unsent, -, hwrote, -⟩ :=
    Connection.wrote_writeAll (Prod.eta ((b.connection k).writeAll publishes)).symm
  have hc : (b.modifyConnection k fun c => (c.writeAll publishes).2).connection k =
      ((b.connection k).writeAll publishes).2 := by
    rw [connection_modifyConnection _ hk, if_pos rfl]
  refine ⟨b.modifyConnection k fun c => (c.writeAll publishes).2, Prod.ext (hd.mpr hr) he,
    ⟨rfl, rfl, rfl⟩, ⟨?_, ?_, ?_, h.owned, h.bound⟩, ?_⟩ <;> rw [hc]
  · rw [hwrote.frame]
    exact h.admitted
  · rw [hwrote.frame]
    exact h.established
  · exact hworks
  · exact hwritten

/-- An open connection of a client that has its session answers a SUBSCRIBE in full. -/
lemma handle_subscribe (hm : meanwhile.LeavesAlone client.id k)
    (h : b.Attends k client session) (id : PacketId) (requests : List (String × QoS)) : ∃ final,
    b.handle meanwhile k (.packet (.subscribe id requests)) = (true, final) ∧
      b.RulesAlike final ∧
      final.Attends k client (session.subscribing (b.granted client requests)) ∧
      (final.connection k).transport.written.toList =
        (b.connection k).transport.written.toList ++ .suback id (requests.map (b.answer client)) ::
          ((b.connection k).stamped (requests.flatMap (b.due client))).map .publish := by
  have hopen : (b.connection k).isOpen = true := by
    simp [Connection.isOpen, h.established, h.works.isOpen]
  have hhandle : b.handle meanwhile k (.packet (.subscribe id requests)) =
      b.onSubscribe meanwhile client k id requests := by
    unfold handle
    simp only [h.admitted, hopen, if_true]
    rfl
  obtain ⟨b', hall, hrules, hsession, hconnection⟩ := subscribeAll_owned hm requests h.owned h.bound
  have ha : b'.Attends k client (session.subscribing (b.granted client requests)) := by
    refine ⟨?_, ?_, ?_, hsession, h.bound⟩ <;> rw [hconnection]
    · exact h.admitted
    · exact h.established
    · exact h.works
  -- The acknowledgement is written first, and what is due after it.
  obtain ⟨acked, hsend, hrules₁, ha₁, hc, hacked⟩ :=
    ha.send (.suback id (requests.map (b.answer client)))
  obtain ⟨final, hdeliver, hrules₂, ha₂, hwritten⟩ :=
    ha₁.deliverAll (requests.flatMap (b.due client))
  refine ⟨final, ?_, (hrules.trans hrules₁).trans hrules₂, ha₂, ?_⟩
  · rw [hhandle, onSubscribe, hall]
    dsimp only
    rw [hsend]
    dsimp only
    rw [hdeliver]
    rfl
  · have hn : (acked.connection k).stamped (requests.flatMap (b.due client)) =
        (b.connection k).stamped (requests.flatMap (b.due client)) :=
      Connection.stamped_congr (by rw [hc, hconnection]; rfl) _
    rw [hwritten, hn, hacked, hconnection, List.append_assoc, List.singleton_append]

/-- So it does if the filters come in a SUBSCRIBE each. -/
lemma handle_separately (hm : meanwhile.LeavesAlone client.id k)
    (separate : List (PacketId × String × QoS)) (h : b.Attends k client session) :
    (separate.foldl (fun b entry =>
      (b.handle meanwhile k (.packet (.subscribe entry.1 [entry.2]))).2) b).Attends k client
        (session.subscribing (b.granted client (separate.map (·.2)))) := by
  induction separate generalizing b session with
  | nil => exact h
  | cons entry rest ih =>
    obtain ⟨next, he, hr, ha, -⟩ := handle_subscribe hm h entry.1 [entry.2]
    have hrest := ih ha
    rw [hr.granted, ← Session.subscribing_append, ← granted_cons] at hrest
    rw [List.foldl_cons, he]
    exact hrest

end handling

section answers

/-- A number out of range sets no bound, since none is above two. -/
lemma toNat_min_qosLimit (qos : QoS) (config : MqttConfig) :
    (min qos config.qosLimit).toNat = min qos.toNat config.maxQos := by
  have hq := qos.toNat_le
  rw [QoS.toNat_min]
  unfold MqttConfig.qosLimit
  match config.maxQos with
  | 0 | 1 | 2 => rfl
  | n + 3 =>
    change min qos.toNat 2 = min qos.toNat (n + 3)
    omega

/-- The code that is written for a filter. -/
lemma toNat_answer (b : Broker) (client : ClientInfo) (request : String × QoS) :
    (b.answer client request).toNat =
      if b.Grants client request.1 then min request.2.toNat b.config.mqtt.maxQos else 128 := by
  unfold answer
  split
  · exact toNat_min_qosLimit request.2 b.config.mqtt
  · rfl

lemma mem_due {request : String × QoS} {publish : Publish} :
    publish ∈ b.due client request ↔ ∃ granted stored, b.answer client request = some granted ∧
      b.retained.get? publish.topic = some stored ∧
      Topic.topicMatches publish.topic request.1 = true ∧
      publish = { stored with retain := true, qos := min stored.qos granted } := by
  unfold due
  cases b.answer client request with
  | none => exact iff_of_false nofun nofun
  | some granted =>
    simp only [Option.elim, retainedFor, List.mem_map, RetainedStore.mem_matching]
    constructor
    · rintro ⟨stored, ⟨topic, hs, hm⟩, rfl⟩
      obtain ⟨ht, hr, -, -⟩ := b.retained.marked topic stored hs
      refine ⟨granted, stored, rfl, by rwa [ht], by rwa [ht], ?_⟩
      rw [hr]
    · rintro ⟨_, stored, ⟨⟩, hs, hm, he⟩
      obtain ⟨-, hr, -, -⟩ := b.retained.marked publish.topic stored hs
      exact ⟨stored, ⟨publish.topic, hs, hm⟩, by rw [he, hr]⟩

lemma pairwise_due (b : Broker) (client : ClientInfo) (request : String × QoS) :
    (b.due client request).Pairwise fun publish next => publish.topic < next.topic := by
  unfold due
  cases b.answer client request with
  | none => exact .nil
  | some granted =>
    exact List.pairwise_map.mpr (b.retained.pairwise_matching request.1)

end answers

/-- A client with an open connection that has its session gets one SUBACK for a SUBSCRIBE, with a
code for every filter, and after it, filter by filter, the retained messages that match what was
granted.  The session has the granted subscriptions, as if each filter had come by itself. -/
theorem subscribe_answered_in_full (hm : meanwhile.LeavesAlone client.id k)
    (h : b.Attends k client session) (id : PacketId) (requests : List (String × QoS)) : ∃ final,
    b.handle meanwhile k (.packet (.subscribe id requests)) = (true, final) ∧
    (final.connection k).transport.written.toList =
      (b.connection k).transport.written.toList ++ .suback id (requests.map (b.answer client)) ::
        ((b.connection k).stamped (requests.flatMap (b.due client))).map .publish ∧
    (∀ request, (b.answer client request).toNat =
      if b.Grants client request.1 then min request.2.toNat b.config.mqtt.maxQos else 128) ∧
    (∀ request,
      (b.due client request).Pairwise (fun publish next => publish.topic < next.topic) ∧
      ∀ publish, publish ∈ b.due client request ↔ ∃ granted stored,
        b.answer client request = some granted ∧
        b.retained.get? publish.topic = some stored ∧
        Topic.topicMatches publish.topic request.1 = true ∧
        publish = { stored with retain := true, qos := min stored.qos granted }) ∧
    final.session? client.id = some (session.subscribing (b.granted client requests)) ∧
    final.retained = b.retained ∧
    ∀ separate : List (PacketId × String × QoS), separate.map (·.2) = requests →
      (separate.foldl (fun b entry =>
        (b.handle meanwhile k (.packet (.subscribe entry.1 [entry.2]))).2) b).session? client.id =
          final.session? client.id := by
  obtain ⟨final, he, hr, ha, hw⟩ := handle_subscribe hm h id requests
  refine ⟨final, he, hw, b.toNat_answer client, fun request =>
    ⟨b.pairwise_due client request, fun publish => mem_due⟩, ha.owned, hr.retained, ?_⟩
  rintro separate rfl
  rw [ha.owned, (handle_separately hm separate h).owned]

/-- A client asks for overlapping filters, for one of them twice, and for two that it does not get,
while another connection is closed. -/
theorem subscribe_answered_in_full_overlapping :
    let b := { lenient { mqtt := { maxQos := 1 } } .empty with
        authorizer := { Authorizer.allowAll with canRead := fun _ filter => filter != "b" } }.after
      [.accept, .accept, .connect 0 ⟨"MQTT", 4, false, "c", none, none, none⟩,
        .publish ⟨"a/y", [1], .exactlyOnce, true, false, none⟩,
        .publish ⟨"a/x", [2], .atMostOnce, true, false, none⟩]
    let meanwhile : Interlude := fun _ _ b => b.closeConnection 1
    let requests : List (String × QoS) := [("a/#", .exactlyOnce), ("b", .atMostOnce),
      ("a/+", .atMostOnce), ("a/#/x", .atLeastOnce), ("a/#", .atLeastOnce)]
    let first (qos : QoS) : Packet := .publish ⟨"a/x", [2], qos, true, false, none⟩
    let second (qos : QoS) (id : Option PacketId) : Packet :=
      .publish ⟨"a/y", [1], qos, true, false, id⟩
    meanwhile.LeavesAlone "c" 0 ∧ (∃ session, b.Attends 0 (.anonymous "c") session) ∧
    ∃ final, b.handle meanwhile 0 (.packet (.subscribe 7 requests)) = (true, final) ∧
      (final.connection 0).transport.written.toList = [.connack false .accepted,
        .suback 7 [some .atLeastOnce, none, some .atMostOnce, none, some .atLeastOnce],
        first .atMostOnce, second .atLeastOnce (some 1), first .atMostOnce,
        second .atMostOnce none, first .atMostOnce, second .atLeastOnce (some 2)] ∧
      (final.session? "c").map (·.subscriptions.toList) =
        some [("a/#", .atLeastOnce), ("a/+", .atMostOnce)] := by
  intro b meanwhile requests first second
  have hm : meanwhile.LeavesAlone "c" 0 :=
    ⟨fun _ _ _ => ⟨rfl, rfl, rfl⟩, fun _ _ _ => rfl, fun _ _ b =>
      connection_modifyConnection_of_ne (b := b) _ (by decide)⟩
  have hworks : (b.connection 0).transport.Works := by
    rintro writes ⟨n, -, hb | ho | hp⟩
    · cases hb
    · revert ho
      decide +kernel
    · revert hp
      decide +kernel
  have hbound : (b.boundSession? "c" 0).isSome := by decide +kernel
  obtain ⟨session, hsession⟩ := Option.isSome_iff_exists.mp hbound
  obtain ⟨howned, hk⟩ := boundSession?_eq_some.mp hsession
  have h : b.Attends 0 (.anonymous "c") session :=
    ⟨by decide +kernel, by decide +kernel, hworks, howned, hk⟩
  obtain ⟨final, he, hw, -, -, hs, -⟩ := subscribe_answered_in_full hm h 7 requests
  have hlisted : (b.boundSession? "c" 0).map (fun session =>
      (session.subscribing (b.granted (.anonymous "c") requests)).subscriptions.toList) =
        some [("a/#", .atLeastOnce), ("a/+", .atMostOnce)] := by decide +kernel
  rw [hsession] at hlisted
  exact ⟨hm, ⟨session, h⟩, final, he, hw.trans (by decide +kernel),
    (congrArg (Option.map (·.subscriptions.toList)) hs).trans hlisted⟩

end Broker
end MqttBroker
