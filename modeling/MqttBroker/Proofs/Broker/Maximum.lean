import MqttBroker.Proofs.Broker.Granting
import MqttBroker.Proofs.Broker.Mirror
import MqttBroker.Proofs.Connection.Limit

/-!
Nobody is sent anything above the QoS of its subscriptions, so that a limit on these is a limit on
what is sent and queued.
-/
namespace MqttBroker

/-- What is asked of a broker from outside brings nothing above the limit to be sent. -/
def Operation.Heeds (limit : Nat) : Operation → Prop
  | requeue _ _ unsent => ∀ publish ∈ unsent, publish.qos.toNat ≤ limit
  | connection _ change => ∀ c : Connection, c.Limited limit → (change c).Limited limit
  | _ => True

namespace Broker
open Subscription

variable {b b' : Broker} {j k : ConnectionId} {id : ClientId} {session : Session}
  {client : ClientInfo} {operation : Operation} {maximum limit : Nat}
  {outset : ClientId → Option (Table QoS)}

/-- Nothing that was sent, or that waits to be sent, is above the limit. -/
structure Limited (limit : Nat) (b : Broker) : Prop where
  connections : ∀ k, (b.connection k).Limited limit
  queued : ∀ id session, b.session? id = some session →
    ∀ publish ∈ session.queue, publish.qos.toNat ≤ limit

namespace Limited

section changes

/-- Only the connections and the sessions matter. -/
lemma congr (h : b.Limited limit) (hc : ∀ k, b'.connection k = b.connection k)
    (hs : ∀ id, b'.session? id = b.session? id) : b'.Limited limit where
  connections k := hc k ▸ h.connections k
  queued id session hf := h.queued id session (hs id ▸ hf)

lemma modifyConnection (h : b.Limited limit) (change : Connection → Connection)
    (hc : (change (b.connection k)).Limited limit) :
    (b.modifyConnection k change).Limited limit where
  connections j := modifyConnection_rel (P := fun c d => c.Limited limit → d.Limited limit)
    (fun _ => id) (fun _ => hc) j (h.connections j)
  queued := h.queued

lemma setSession (h : b.Limited limit) (id : ClientId)
    (hq : ∀ publish ∈ session.queue, publish.qos.toNat ≤ limit) :
    (b.setSession id session).Limited limit where
  connections := h.connections
  queued other next hn := by
    rw [session?_setSession] at hn
    split at hn
    · cases hn
      exact hq
    · exact h.queued other next hn

/-- The queue of a session stays as long as only the rest of it is changed. -/
lemma setSession_of_queue (h : b.Limited limit) (hs : b.session? id = some session)
    {next : Session} (hq : next.queue = session.queue) : (b.setSession id next).Limited limit :=
  h.setSession id (hq ▸ h.queued id session hs)

lemma teardown (h : b.Limited limit) (id : ClientId) (session : Session) :
    (b.teardown id session).Limited limit where
  connections k := by
    rw [connection_teardown]
    exact h.connections k
  queued other next hn := by
    rw [session?_teardown] at hn
    split at hn
    · cases hn
    · exact h.queued other next hn

lemma chore (h : b.Limited limit) (hc : Chore k b b') : b'.Limited limit := by
  cases hc with
  | books => exact h.congr (fun _ => rfl) fun _ => rfl
  | send hp => exact h.modifyConnection _ ((h.connections k).control hp)
  | close => exact h.modifyConnection _ ((h.connections k).congr rfl rfl)
  | advance =>
    rw [setState_snd]
    refine h.modifyConnection _ ?_
    unfold Connection.transition
    split
    · exact (h.connections k).congr rfl rfl
    · exact h.connections k

lemma chores (h : b.Limited limit) (hc : Chores k b b') : b'.Limited limit := by
  induction hc with
  | refl => exact h
  | tail _ hc ih => exact ih.chore hc

end changes

section routing

lemma enqueue {publish : Publish} {max : Nat}
    (h : ∀ publish ∈ session.queue, publish.qos.toNat ≤ limit) (hp : publish.qos.toNat ≤ limit) :
    ∀ queued ∈ (session.enqueue max publish).queue, queued.qos.toNat ≤ limit := by
  have hall : ∀ queued ∈ session.queue ++ [publish], queued.qos.toNat ≤ limit := by
    intro queued hm
    obtain hm | hm := List.mem_append.mp hm
    · exact h queued hm
    · exact List.mem_singleton.mp hm ▸ hp
  intro queued hm
  unfold Session.enqueue at hm
  dsimp only at hm
  split at hm
  · exact hall queued (List.mem_of_mem_tail hm)
  · exact hall queued hm

/-- A copy within the limit is delivered, or it is queued. -/
lemma route {publish : Publish} (h : b.Limited limit) (id : ClientId)
    (hp : publish.qos.toNat ≤ limit) : (b.route id publish).2.Limited limit := by
  refine ⟨fun j => ?_, fun other next hn => ?_⟩
  · exact route_rel publish (P := fun c d => c.Limited limit → d.Limited limit) (fun _ hc => hc) j
      (fun _ _ _ hc => hc.deliver hp) (h.connections j)
  · by_cases ho : id = other
    · subst ho
      cases hs : b.session? id with
      | none =>
        rw [route_of_none _ hs] at hn
        exact h.queued id next hn
      | some session =>
        obtain ⟨-, he⟩ | ⟨-, -, -, max, -, he⟩ := route_cases publish hs <;>
          rw [he, session?_note] at hn
        · rw [session?_tryDeliver] at hn
          exact h.queued id next hn
        · rw [session?_setSession, if_pos rfl] at hn
          cases hn
          exact enqueue (h.queued id session hs) hp
    · rw [(route_of_ne ho _).1] at hn
      exact h.queued other next hn

/-- A copy is never above the subscription it is made for. -/
lemma fanOut {targets : List (ClientId × QoS)} (h : b.Limited limit)
    (ht : ∀ target ∈ targets, target.2.toNat ≤ limit) (publish : Publish) :
    (b.fanOut publish targets).2.Limited limit := by
  induction targets generalizing b with
  | nil => exact h
  | cons target rest ih =>
    obtain ⟨hq, hr⟩ := List.forall_mem_cons.mp ht
    have hcopy : (publish.copyFor target.2).qos.toNat ≤ limit := by
      change (min publish.qos target.2).toNat ≤ limit
      rw [QoS.toNat_min]
      exact (min_le_right _ _).trans hq
    exact ih (h.route target.1 hcopy) hr

end routing
end Limited

/-- The limit is above the maximum and above all that clients had at the outset. -/
structure Covers (limit maximum : Nat) (outset : ClientId → Option (Table QoS)) : Prop where
  maximum_le : maximum ≤ limit
  outset_le : ∀ (id : ClientId) held (filter : String) (qos : QoS), outset id = some held →
    held[filter]? = some qos → qos.toNat ≤ limit

lemma Covers.le (h : Covers limit maximum outset) {table : Table QoS}
    (ht : Tolerates maximum outset id table) {filter : String} {qos : QoS}
    (hf : table[filter]? = some qos) : qos.toNat ≤ limit := by
  obtain hq | ⟨held, ho, hf⟩ := ht filter qos hf
  · exact hq.trans h.maximum_le
  · exact h.outset_le id held filter qos ho hf

/-- All subscriptions are within the limit, and all that is sent. -/
structure Capped (limit maximum : Nat) (outset : ClientId → Option (Table QoS)) (b : Broker) :
    Prop where
  covers : Covers limit maximum outset
  mirrored : b.Mirrored
  granted : Granted maximum outset b
  limited : b.Limited limit

namespace Capped

/-- Subscriptions are seen to by any change that keeps all that is kept as they change. -/
lemma next (h : Capped limit maximum outset b) (hu : ∀ P, Upheld P → P b → P b')
    (hl : b'.Limited limit) : Capped limit maximum outset b' :=
  ⟨h.covers, hu _ Mirrored.upheld h.mirrored, hu _ (Granted.upheld maximum outset) h.granted, hl⟩

lemma of_opened (h : b.Opened) (hc : Covers limit b.config.mqtt.maxQos b.kept?) :
    Capped limit b.config.mqtt.maxQos b.kept? b where
  covers := hc
  mirrored := .of_opened h
  granted := .of_opened h
  limited := by
    refine ⟨fun k => ?_, fun id session hs => ?_⟩
    · rw [h.connection]
      exact Connection.limited_absent limit
    · rw [h.session?] at hs
      cases hs

section publishing

/-- Whoever is reached holds a subscription, and all subscriptions are within the limit. -/
lemma reached (h : Capped limit maximum outset b) (topic : String) :
    ∀ target ∈ (b.directory.matching topic).toList, target.2.toNat ≤ limit := by
  rintro ⟨id, qos⟩ hm
  rw [Std.ExtTreeMap.mem_toList_iff_getElem?_eq_some,
    Directory.matching_eq_some_iff h.mirrored.wellFormed] at hm
  obtain ⟨filter, hf, -⟩ := hm.1
  rw [h.mirrored.routed, held?, Option.bind_eq_some_iff] at hf
  obtain ⟨session, hs, hf⟩ := hf
  exact h.covers.le (h.granted.sessions id session hs) hf

lemma publish (h : Capped limit maximum outset b) (message : Publish) :
    Capped limit maximum outset (b.publish message).2 := by
  have hr : Capped limit maximum outset (b.retain message) := by
    obtain ⟨retained, he⟩ := b.retain_eq message
    rw [he]
    exact h.next (fun _ u hb => u.retained hb retained)
      (h.limited.congr (fun _ => rfl) fun _ => rfl)
  refine h.next (fun _ u hb => ?_) (hr.limited.fanOut (hr.reached message.topic) message)
  exact u.services hb (publish_services b message : Services 0 none _ _)

lemma publishFrom (h : Capped limit maximum outset b) (client : ClientInfo) (message : Publish) :
    Capped limit maximum outset (b.publishFrom client message).2 := by
  unfold Broker.publishFrom
  split
  · exact h
  · split
    · exact h.publish message
    · exact h

lemma fireWill (h : Capped limit maximum outset b) (will : Will) :
    Capped limit maximum outset (b.fireWill will).2 := by
  unfold Broker.fireWill
  split
  · exact h
  · exact h.publish _

end publishing

section registry

lemma modifyConnection (h : Capped limit maximum outset b) (change : Connection → Connection)
    (hc : (change (b.connection k)).Limited limit) :
    Capped limit maximum outset (b.modifyConnection k change) :=
  h.next (fun _ u hb => u.modifyConnection hb k change) (h.limited.modifyConnection change hc)

lemma subscribe (h : Capped limit maximum outset b) (client : ClientInfo) (k : ConnectionId)
    (filter : String) (qos : QoS) :
    Capped limit maximum outset (b.subscribe .quiet client k filter qos).2 := by
  refine h.next (fun _ u hb => u.subscribe hb client k filter qos) ?_
  obtain ⟨calls, he | ⟨session, granted, hs, -, -, he⟩⟩ :=
    subscribe_cases filter b client k qos <;> rw [he]
  · exact h.limited.congr (fun _ => rfl) fun _ => rfl
  · have hn := h.limited.setSession_of_queue hs
      (rfl : { session with
        subscriptions := session.subscriptions.insert filter granted }.queue = _)
    exact hn.congr (fun _ => rfl) fun _ => rfl

lemma unsubscribe (h : Capped limit maximum outset b) (id : ClientId) (k : ConnectionId)
    (filter : String) : Capped limit maximum outset (b.unsubscribe .quiet id k filter).2 := by
  refine h.next (fun _ u hb => u.unsubscribe hb id k filter) ?_
  obtain he | ⟨session, calls, hs, -, he⟩ := unsubscribe_cases filter b id k <;> rw [he]
  · exact h.limited
  · have hn := h.limited.setSession_of_queue hs
      (rfl : { session with subscriptions := session.subscriptions.erase filter }.queue = _)
    exact hn.congr (fun _ => rfl) fun _ => rfl

lemma takeWill (h : Capped limit maximum outset b) (id : ClientId) (k : ConnectionId) :
    Capped limit maximum outset (b.takeWill id k).2 := by
  refine h.next (fun _ u hb => u.takeWill hb id k) ?_
  obtain he | ⟨session, hs, he⟩ := takeWill_cases b id k <;> rw [he]
  · exact h.limited
  · exact h.limited.setSession_of_queue hs rfl

lemma setWill (h : Capped limit maximum outset b) (id : ClientId) (k : ConnectionId)
    (will : Option Will) : Capped limit maximum outset (b.setWill id k will).2 := by
  refine h.next (fun _ u hb => u.setWill hb id k will) ?_
  obtain he | ⟨session, hs, he⟩ := setWill_cases b id k will <;> rw [he]
  · exact h.limited
  · exact h.limited.setSession_of_queue hs rfl

lemma clearWill (h : Capped limit maximum outset b) (id : ClientId) :
    Capped limit maximum outset (b.clearWill id) := by
  refine h.next (fun _ u hb => u.clearWill hb id) ?_
  obtain he | ⟨session, hs, he⟩ := clearWill_cases b id <;> rw [he]
  · exact h.limited
  · exact h.limited.setSession_of_queue hs rfl

lemma unbind (h : Capped limit maximum outset b) (id : ClientId) (k : ConnectionId)
    (remove : Bool) : Capped limit maximum outset (b.unbind id k remove).2 := by
  refine h.next (fun _ u hb => u.unbind hb id k remove) ?_
  obtain ⟨-, he⟩ | ⟨session, hs, -, he⟩ := unbind_cases b id k remove <;> rw [he]
  · exact h.limited
  · split
    · exact h.limited.teardown id session
    · exact h.limited.setSession_of_queue hs rfl

lemma expire (h : Capped limit maximum outset b) (id : ClientId) :
    Capped limit maximum outset (b.expire id).2 := by
  refine h.next (fun _ u hb => u.expire hb id) ?_
  exact expire_induction (P := fun b => b.Limited limit) h.limited id
    (fun k => h.limited.chore (.close : Chore k b _)) fun _ session h _ _ => h.teardown id session

/-- What goes back to the queue was handed out before. -/
lemma requeue (h : Capped limit maximum outset b) (id : ClientId) (k : ConnectionId)
    {unsent : List Publish} (hu : ∀ publish ∈ unsent, publish.qos.toNat ≤ limit) :
    Capped limit maximum outset (b.requeue id k unsent).2 := by
  refine h.next (fun _ u hb => u.requeue hb id k unsent) ?_
  obtain he | ⟨session, hs, he⟩ := requeue_cases b id k unsent <;> rw [he]
  · exact h.limited
  · refine h.limited.setSession id fun publish hm => ?_
    obtain hm | hm := List.mem_append.mp hm
    · exact hu publish (List.mem_of_mem_filter hm)
    · exact h.limited.queued id session hs publish hm

/-- A bound session is taken over as it is, and its queue is handed out. -/
lemma bind (h : Capped limit maximum outset b) (id : ClientId) (clean : Bool) (k : ConnectionId)
    (client : ClientInfo) : Capped limit maximum outset (b.bind .quiet id clean k client).2 ∧
      ∀ outcome, (b.bind .quiet id clean k client).1 = .ok outcome →
        ∀ publish ∈ outcome.replay, publish.qos.toNat ≤ limit := by
  have hn : ∀ {b'}, b' = (b.bind .quiet id clean k client).2 → b'.Limited limit →
      Capped limit maximum outset b' := by
    rintro b' rfl hl
    exact h.next (fun _ u hb => u.bind hb id clean k client) hl
  obtain ⟨calls, stored, hc, ⟨error, -, he⟩ | ⟨session, lost, hf, -, he⟩⟩ :=
    b.bind_cases id clean k client <;> rw [he] at hn ⊢
  · exact ⟨hn rfl (h.limited.congr (fun _ => rfl) fun _ => rfl), nofun⟩
  have hreplay : ∀ publish ∈ session.queue, publish.qos.toNat ≤ limit := by
    obtain hs | ⟨-, -, -, hq⟩ := hf.own_or_new
    · exact h.limited.queued id session hs
    · rw [hq]
      exact nofun
  have hevicted : (b.evictOther session k).Limited limit := by
    obtain he | ⟨old, -, -, he⟩ := b.evictOther_cases session k <;> rw [he]
    · exact h.limited
    · exact h.limited.modifyConnection _ ((h.limited.connections old).congr rfl rfl)
  have hbound : (b.rebind id clean k client session lost).Limited limit := by
    have hd : ((b.evictOther session k).redirect id session lost).Limited limit :=
      hevicted.congr (fun _ => rfl) fun _ => rfl
    have hs : (((b.evictOther session k).redirect id session lost).setSession id
        ((session.trimmed clean client lost).rebound clean k)).Limited limit :=
      hd.setSession id nofun
    have hk := hs.modifyConnection (k := k) (·.setClientId id) ((hs.connections k).congr rfl rfl)
    exact hk.congr (fun _ => rfl) fun _ => rfl
  refine ⟨hn rfl (hbound.congr (fun _ => rfl) fun _ => rfl), fun outcome ho => ?_⟩
  cases ho
  dsimp only
  split
  · exact nofun
  · exact hreplay

end registry

section actors

lemma errand (h : Capped limit maximum outset b) (hd : Errand k client b b') :
    Capped limit maximum outset b' := by
  cases hd with
  | answer hp => exact h.modifyConnection _ ((h.limited.connections k).control hp.control)
  | deliver hs =>
    obtain ⟨filter, message, qos, -, -, hq, rfl⟩ := hs
    have hlimit : qos.toNat ≤ limit :=
      calc qos.toNat ≤ b.config.mqtt.qosLimit.toNat := hq
        _ ≤ b.config.mqtt.maxQos := MqttConfig.toNat_qosLimit_le _
        _ = maximum := h.granted.configured
        _ ≤ limit := h.covers.maximum_le
    exact h.modifyConnection (fun c => (c.deliver { message with qos }).2)
      ((h.limited.connections k).deliver hlimit)
  | subscribe filter qos => exact h.subscribe client k filter qos
  | unsubscribe filter => exact h.unsubscribe client.id k filter

lemma deed (h : Capped limit maximum outset b) (hd : Deed k client b b') :
    Capped limit maximum outset b' := by
  cases hd with
  | errand hd => exact h.errand hd
  | publish => exact h.publish _

lemma part (h : Capped limit maximum outset b) (hp : Parting k b b') :
    Capped limit maximum outset b' := by
  cases hp with
  | close | forget => exact h.modifyConnection _ ((h.limited.connections k).congr rfl rfl)
  | bequeath id =>
    have ht := h.takeWill id k
    cases (b.takeWill id k).1 with
    | none => exact ht
    | some will =>
      have hw := ht.fireWill will
      exact hw.modifyConnection (·.noteFired will) ((hw.limited.connections k).congr rfl rfl)
  | discard id => exact h.takeWill id k
  | unbind id => exact h.unbind id k _

lemma partings (h : Capped limit maximum outset b) (hp : Partings k b b') :
    Capped limit maximum outset b' := by
  induction hp with
  | refl => exact h
  | tail _ hp ih => exact ih.part hp

lemma acts (h : Capped limit maximum outset b) (ha : Acts k b b') :
    Capped limit maximum outset b' := by
  induction ha with
  | refl => exact h
  | tail _ ha ih =>
    cases ha with
    | deed _ hd => exact ih.deed hd
    | part hp => exact ih.part hp

lemma establish (h : Capped limit maximum outset b) (k : ConnectionId) (client : ClientInfo)
    {outcome : BindOutcome} (hr : ∀ publish ∈ outcome.replay, publish.qos.toNat ≤ limit) :
    Capped limit maximum outset (b.establish k client outcome).2 := by
  obtain ⟨hl, hu⟩ := (h.limited.connections k).establish
    (rfl : (Packet.connack outcome.resumed .accepted).publish? = none) hr
  have ho : Capped limit maximum outset (b.onConnection k
      (·.establish (.connack outcome.resumed .accepted) outcome.replay)).2 :=
    h.modifyConnection
      (fun c => (c.establish (.connack outcome.resumed .accepted) outcome.replay).2) hl
  have hf := b.onConnection_fst (k := k)
    (·.establish (.connack outcome.resumed .accepted) outcome.replay)
  unfold Broker.establish
  generalize b.onConnection k _ = result at ho hf ⊢
  obtain ⟨unsent | _, b⟩ := result
  · exact (ho.requeue client.id k (hu unsent hf.symm)).partings (connectionLost_partings _ k)
  · exact ho

lemma bindAndEstablish (h : Capped limit maximum outset b) (k : ConnectionId) (connect : Connect)
    (client : ClientInfo) (isGiven : Bool) :
    Capped limit maximum outset (b.bindAndEstablish .quiet k connect client isGiven).2 := by
  obtain ⟨hb, hr⟩ := h.bind client.id connect.clean k client
  unfold Broker.bindAndEstablish
  generalize b.bind .quiet client.id connect.clean k client = result at hb hr ⊢
  obtain ⟨error | outcome, b⟩ := result
  · have hc := (turnedAway_reject (by simp : ConnackCode.serverUnavailable ≠ .accepted) b
      k).refused.chores
    exact hb.next (fun _ u hp => u.chores hp hc) (hb.limited.chores hc)
  · have hi : Capped limit maximum outset
        (if isGiven then { b with identified := b.identified + 1 } else b) := by
      split
      · exact hb.next (fun _ u hp => u.books hp b.calls (.refl _) _)
          (hb.limited.congr (fun _ => rfl) fun _ => rfl)
      · exact hb
    have hw := hi.setWill client.id k connect.will
    have hn := hw.modifyConnection (k := k)
      (fun c => { c with client := some client, clean := connect.clean })
      ((hw.limited.connections k).congr rfl rfl)
    exact hn.establish k client (hr outcome rfl)

lemma processConnect (h : Capped limit maximum outset b) (k : ConnectionId) (connect : Connect) :
    Capped limit maximum outset (b.processConnect .quiet k connect).2 := by
  have hchores : ∀ {b'}, Chores k b b' → Capped limit maximum outset b' := fun hc =>
    h.next (fun _ u hb => u.chores hb hc) (h.limited.chores hc)
  obtain hr | ⟨client, isGiven, calls, hs, -, -, -, he⟩ := b.processConnect_cases k connect
  · exact hchores hr.chores
  · rw [he]
    exact (hchores (awaiting_chores hs calls)).bindAndEstablish k connect client isGiven

lemma handle (h : Capped limit maximum outset b) (k : ConnectionId) (event : Event) :
    Capped limit maximum outset (b.handle .quiet k event).2 := by
  obtain ha | ⟨connect, -, -, he⟩ := b.handle_acts k event
  · exact h.acts ha
  · rw [he]
    exact h.processConnect k connect

/-- What every operation keeps that brings nothing above the limit. -/
theorem perform (h : Capped limit maximum outset b) (ho : operation.Heeds limit) :
    Capped limit maximum outset (b.perform operation) := by
  cases operation with
  | accept =>
    refine h.next (fun _ u hb => u.connections hb _) ⟨fun k => ?_, h.limited.queued⟩
    change (b.accept.2.connection k).Limited limit
    rw [connection_accept]
    split
    · exact Connection.limited_fresh limit
    · exact h.limited.connections k
  | connect k connect => exact h.processConnect k connect
  | event k event => exact h.handle k event
  | expire id => exact h.expire id
  | fault k fault =>
    have hc : Connection.Limited limit { b.connection k with
        transport := (b.connection k).transport.suffer fault } :=
      (h.limited.connections k).congr (by cases fault <;> rfl) rfl
    exact h.modifyConnection (fun c => { c with transport := c.transport.suffer fault }) hc
  | bind id clean k client => exact (h.bind id clean k client).1
  | unbind id k remove => exact h.unbind id k remove
  | subscribe client k filter qos => exact h.subscribe client k filter qos
  | unsubscribe id k filter => exact h.unsubscribe id k filter
  | publish message => exact h.publish message
  | publishFrom client message => exact h.publishFrom client message
  | setWill id k will => exact h.setWill id k will
  | clearWill id => exact h.clearWill id
  | takeWill id k => exact h.takeWill id k
  | fireWill will => exact h.fireWill will
  | requeue id k unsent => exact h.requeue id k ho
  | connection k change => exact h.modifyConnection change (ho _ (h.limited.connections k))

end actors
end Capped

/-- Whatever is asked of a broker since it was opened, no session holds a subscription above the
configured maximum, nor does the directory, unless it was stored for the client at that QoS when the
broker was opened.  So nothing above the maximum is ever sent, or queued, if nothing above it was
stored then; or else nothing above all that was stored. -/
theorem subscriptions_stay_within_maximum (h : b.Opened)
    (hc : Covers limit b.config.mqtt.maxQos b.kept?) {operations : List Operation}
    (ha : ∀ operation ∈ operations, operation.Heeds limit) :
    let final := b.after operations
    (∀ id session, final.session? id = some session →
      Tolerates b.config.mqtt.maxQos b.kept? id session.subscriptions) ∧
    (∀ id filter qos, final.directory.find? filter id = some qos →
      qos.toNat ≤ b.config.mqtt.maxQos ∨
        ∃ stored, b.kept? id = some stored ∧ stored[filter]? = some qos) ∧
    (∀ id session, final.session? id = some session →
      ∀ publish ∈ session.queue, publish.qos.toNat ≤ limit) ∧
    ∀ k, ∀ publish ∈ (final.connection k).transport.publishes, publish.qos.toNat ≤ limit := by
  intro final
  have hf : Capped limit b.config.mqtt.maxQos b.kept? final := by
    have hallows : b.Allows (fun _ operation => operation.Heeds limit) operations :=
      allows_iff.mpr fun before operation later he =>
        ha operation (he ▸ List.mem_append_right before List.mem_cons_self)
    exact after_induction (fun _ _ ho hb => hb.perform ho) hallows (.of_opened h hc)
  refine ⟨hf.granted.sessions, fun id filter qos hq => ?_, hf.limited.queued,
    fun k => (hf.limited.connections k).sent⟩
  rw [hf.mirrored.routed, held?, Option.bind_eq_some_iff] at hq
  obtain ⟨session, hs, hq⟩ := hq
  exact hf.granted.sessions id session hs filter qos hq

/-- Two subscriptions of a client, one that is restored and one above the maximum. -/
theorem subscriptions_stay_within_maximum_restored :
    let stored := Repository.ofRecords (Table.ofEntries [("c", ⟨[("a", 1)]⟩)])
    let b := lenient { mqtt := { maxQos := 1 } } stored
    let operations : List Operation := [.accept,
      .connect 0 ⟨"MQTT", 4, false, "c", none, none, none⟩,
      .event 0 (.packet (.subscribe 1 [("b", .exactlyOnce)])),
      .publish ⟨"a", [1], .exactlyOnce, false, false, none⟩,
      .publish ⟨"b", [2], .exactlyOnce, false, false, none⟩]
    let final := b.after operations
    b.Opened ∧ Covers 1 b.config.mqtt.maxQos b.kept? ∧
      (∀ operation ∈ operations, operation.Heeds 1) ∧
      (final.connection 0).transport.publishes.map (·.payload) = [[1], [2]] ∧
      ∀ publish ∈ (final.connection 0).transport.publishes, publish.qos.toNat ≤ 1 := by
  intro stored b operations final
  have hc : Covers 1 b.config.mqtt.maxQos b.kept? := by
    refine ⟨le_rfl, fun id held filter qos hk hf => ?_⟩
    obtain ⟨record, hr, rfl⟩ := Option.map_eq_some_iff.mp hk
    obtain ⟨rfl, rfl⟩ := Prod.mk.inj (List.mem_singleton.mp (Table.mem_of_getElem?_ofEntries hr))
    cases List.mem_singleton.mp (Table.mem_of_getElem?_ofEntries hf)
    exact le_rfl
  have ha : ∀ operation ∈ operations, operation.Heeds 1 := by
    simp [operations, Operation.Heeds]
  obtain ⟨-, -, -, hsent⟩ := subscriptions_stay_within_maximum (opened_lenient _ stored) hc ha
  exact ⟨opened_lenient _ stored, hc, ha, by decide +kernel, hsent 0⟩

/-- What was stored under a higher maximum is restored above the one that is configured now, and the
client is sent publishes above it. -/
theorem restored_subscription_exceeds_maximum :
    let config : Config := { mqtt := { maxQos := 1 } }
    let b := lenient config (.ofRecords (Table.ofEntries [("c", ⟨[("a", 2)]⟩)]))
    let final := b.after [.accept, .connect 0 ⟨"MQTT", 4, false, "c", none, none, none⟩,
      .publish ⟨"a", [1], .exactlyOnce, false, false, none⟩]
    b.Opened ∧ config.validate.toOption = some () ∧
      (final.session? "c").map (·.subscriptions.toList) = some [("a", .exactlyOnce)] ∧
      final.directory.find? "a" "c" = some .exactlyOnce ∧
      (final.connection 0).transport.publishes.map (·.qos) = [.exactlyOnce] := by
  refine ⟨opened_lenient _ _, ?_⟩
  decide +kernel

end Broker
end MqttBroker
