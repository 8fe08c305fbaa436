import MqttBroker.Proofs.Broker.Admission
import MqttBroker.Proofs.Broker.Parallel

/-!
Two brokers that differ in nothing but their storage, and what is asked of both of them.

The storage answers one question only: what is stored of a client that comes back.  Where both
brokers get the same answer they go on alike, whatever becomes of what they write.
-/
namespace MqttBroker.Broker
open Subscription

/-- The broker over another storage. -/
def onStorage (b : Broker) (stored : Repository StoredSession)
    (repository : Option (Repository StoredMessage)) : Broker :=
  { b with stored, retained := { b.retained with repository } }

/-- The brokers differ in their storage at most. -/
def Resembles (b c : Broker) : Prop := ∃ stored repository, c = b.onStorage stored repository

/-- The same result, and brokers that differ in their storage at most. -/
def Agree {α : Type} (x y : α × Broker) : Prop :=
  ∃ result b c, x = (result, b) ∧ y = (result, c) ∧ Resembles b c

namespace Agree
variable {α : Type} {x y : α × Broker}

lemma mk (result : α) {b c : Broker} (h : Resembles b c) : Agree (result, b) (result, c) :=
  ⟨result, b, c, rfl, rfl, h⟩

lemma fst (h : Agree x y) : y.1 = x.1 := Paired.fst h

lemma snd (h : Agree x y) : Resembles x.2 y.2 := Paired.snd h

end Agree

namespace Resembles
variable {b c : Broker} {id : ClientId} {k : ConnectionId} {session : Session} {α : Type}

section parts

lemma config (h : Resembles b c) : c.config = b.config := by
  obtain ⟨_, _, rfl⟩ := h
  rfl

lemma authorizer (h : Resembles b c) : c.authorizer = b.authorizer := by
  obtain ⟨_, _, rfl⟩ := h
  rfl

lemma directory (h : Resembles b c) : c.directory = b.directory := by
  obtain ⟨_, _, rfl⟩ := h
  rfl

lemma session? (h : Resembles b c) (id : ClientId) : c.session? id = b.session? id := by
  obtain ⟨_, _, rfl⟩ := h
  rfl

lemma connection (h : Resembles b c) (k : ConnectionId) : c.connection k = b.connection k := by
  obtain ⟨_, _, rfl⟩ := h
  rfl

end parts

section changes

lemma setSession (h : Resembles b c) (id : ClientId) (session : Session) :
    Resembles (b.setSession id session) (c.setSession id session) := by
  obtain ⟨stored, repository, rfl⟩ := h
  exact ⟨stored, repository, rfl⟩

lemma dropSession (h : Resembles b c) (id : ClientId) :
    Resembles (b.dropSession id) (c.dropSession id) := by
  obtain ⟨stored, repository, rfl⟩ := h
  exact ⟨stored, repository, rfl⟩

lemma setDirectory (h : Resembles b c) (directory : Directory) :
    Resembles { b with directory } { c with directory } := by
  obtain ⟨stored, repository, rfl⟩ := h
  exact ⟨stored, repository, rfl⟩

lemma setStored (h : Resembles b c) (stored stored' : Repository StoredSession) :
    Resembles { b with stored } { c with stored := stored' } := by
  obtain ⟨_, repository, rfl⟩ := h
  exact ⟨stored', repository, rfl⟩

lemma modifyConnection (h : Resembles b c) (k : ConnectionId) (change : Connection → Connection) :
    Resembles (b.modifyConnection k change) (c.modifyConnection k change) := by
  obtain ⟨stored, repository, rfl⟩ := h
  exact ⟨stored, repository, rfl⟩

lemma onConnection (h : Resembles b c) (k : ConnectionId) (act : Connection → α × Connection) :
    Agree (b.onConnection k act) (c.onConnection k act) := by
  obtain ⟨stored, repository, rfl⟩ := h
  exact .mk _ ⟨stored, repository, rfl⟩

lemma accept (h : Resembles b c) : Agree b.accept c.accept := by
  obtain ⟨stored, repository, rfl⟩ := h
  exact .mk _ ⟨stored, repository, rfl⟩

lemma note (h : Resembles b c) (id : ClientId) (episode : Episode) :
    Resembles (b.note id episode) (c.note id episode) := by
  obtain ⟨stored, repository, rfl⟩ := h
  exact ⟨stored, repository, rfl⟩

lemma callOut (h : Resembles b c) (callout : Callout) :
    Resembles (b.callOut .quiet callout) (c.callOut .quiet callout) := by
  obtain ⟨stored, repository, rfl⟩ := h
  exact ⟨stored, repository, rfl⟩

lemma askAuthenticator (h : Resembles b c) (credentials : Credentials) :
    Agree (b.askAuthenticator .quiet credentials) (c.askAuthenticator .quiet credentials) := by
  obtain ⟨stored, repository, rfl⟩ := h
  exact .mk _ ⟨stored, repository, rfl⟩

end changes

section registry

/-- The same session is found, unless its record is asked for and the answers differ. -/
lemma findOrCreate (h : Resembles b c) (id : ClientId) (clean : Bool) (client : ClientInfo)
    (hl : b.session? id = none → clean = false →
      (c.stored.load id).1 = (b.stored.load id).1) :
    Agree (b.findOrCreate id clean client) (c.findOrCreate id clean client) := by
  unfold Broker.findOrCreate
  rw [h.session?]
  cases hs : b.session? id with
  | some session => exact .mk _ h
  | none =>
    cases clean with
    | true => exact .mk _ h
    | false =>
      have he := hl hs rfl
      dsimp only
      generalize b.stored.load id = answer at he ⊢
      generalize c.stored.load id = answer' at he ⊢
      obtain ⟨answer, stored⟩ := answer
      obtain ⟨answer', stored'⟩ := answer'
      obtain rfl : answer' = answer := he
      obtain error | record | _ := answer' <;> exact .mk _ (h.setStored _ _)

/-- Whether a record was written is not looked at. -/
theorem parallel (id : ClientId) : Parallel id Resembles where
  session h := h.session? id
  config h := h.config
  authorizer h := h.authorizer
  messages h := by
    obtain ⟨_, _, rfl⟩ := h
    rfl
  callOut h callout := h.callOut callout
  connection h k change := h.modifyConnection k change
  note h episode := h.note id episode
  setSession h session := h.setSession id session
  dropSession h := h.dropSession id
  directory h change := by
    rw [h.directory]
    exact h.setDirectory _
  save h _ := h.setStored _ _
  delete h := h.setStored _ _

end registry

section routing

lemma tryDeliver (h : Resembles b c) (session : Session) (publish : Publish) :
    Agree (b.tryDeliver session publish) (c.tryDeliver session publish) := by
  unfold Broker.tryDeliver
  split
  · exact .mk _ h
  next k _ =>
    obtain ⟨result, b', c', hb, hc, h⟩ := h.onConnection k (·.deliver publish)
    rw [hb, hc]
    obtain error | _ := result <;> exact .mk _ h

lemma route (h : Resembles b c) (id : ClientId) (publish : Publish) :
    Agree (b.route id publish) (c.route id publish) := by
  unfold Broker.route
  rw [h.session?]
  cases b.session? id with
  | none => exact .mk _ h
  | some session =>
    obtain ⟨delivered, b', c', hb, hc, h⟩ := h.tryDeliver session publish
    dsimp only
    rw [hb, hc]
    cases delivered with
    | true => exact .mk _ (h.note id _)
    | false =>
      dsimp only
      split
      · exact .mk _ (h.note id _)
      · rw [h.config]
        exact .mk _ ((h.setSession id _).note id _)

lemma fanOut (h : Resembles b c) (publish : Publish) (targets : List (ClientId × QoS)) :
    Agree (fanOut publish targets b) (fanOut publish targets c) := by
  induction targets generalizing b c with
  | nil => exact .mk _ h
  | cons target targets ih =>
    obtain ⟨route, b', c', hb, hc, h⟩ := h.route target.1 (publish.copyFor target.2)
    obtain ⟨count, b'', c'', hb', hc', h⟩ := ih h
    unfold Broker.fanOut
    dsimp only
    rw [hb, hc]
    dsimp only
    rw [hb', hc']
    exact .mk _ h

/-- The retained messages change alike; whether that was written is not looked at. -/
lemma retain (h : Resembles b c) (publish : Publish) :
    Resembles (b.retain publish) (c.retain publish) := by
  obtain ⟨stored, repository, rfl⟩ := h
  unfold Broker.retain RetainedStore.apply
  split
  · split
    · exact ⟨stored, _, rfl⟩
    · exact ⟨stored, _, rfl⟩
  · exact ⟨stored, repository, rfl⟩

lemma publish (h : Resembles b c) (publish : Publish) :
    Agree (b.publish publish) (c.publish publish) := by
  have hr := h.retain publish
  unfold Broker.publish
  dsimp only
  rw [hr.directory]
  exact hr.fanOut publish _

lemma publishFrom (h : Resembles b c) (client : ClientInfo) (publish : Publish) :
    Agree (b.publishFrom client publish) (c.publishFrom client publish) := by
  unfold Broker.publishFrom checkTopicName
  rw [h.config, h.authorizer]
  split
  · exact .mk _ h
  · split
    · obtain ⟨count, b', c', hb, hc, h⟩ := h.publish publish
      rw [hb, hc]
      exact .mk _ h
    · exact .mk _ h

lemma fireWill (h : Resembles b c) (will : Will) : Agree (b.fireWill will) (c.fireWill will) := by
  unfold Broker.fireWill checkTopicName
  rw [h.config]
  split
  · exact .mk _ h
  · exact h.publish will.toPublish

end routing

section ending

lemma closeConnection (h : Resembles b c) (k : ConnectionId) :
    Resembles (b.closeConnection k) (c.closeConnection k) :=
  h.modifyConnection k .close

lemma executeWill (h : Resembles b c) (k : ConnectionId) (will : Option Will) :
    Resembles (b.executeWill k will) (c.executeWill k will) := by
  cases will with
  | none => exact h
  | some will => exact (h.fireWill will).snd.modifyConnection k (·.noteFired will)

lemma connectionLost (h : Resembles b c) (k : ConnectionId) :
    Resembles (b.connectionLost k) (c.connectionLost k) := by
  have hclosed := h.closeConnection k
  unfold Broker.connectionLost
  dsimp only
  rw [hclosed.connection]
  split
  · exact hclosed
  next client _ =>
    obtain ⟨will, b', c', hb, hc, h⟩ :=
      (parallel client.id).takeWill
        (hclosed.modifyConnection k fun c => { c with client := none }) k
    rw [hb, hc]
    have hw := h.executeWill k will
    dsimp only
    rw [hw.connection]
    exact ((parallel client.id).unbind hw k _).snd

lemma onDisconnect (h : Resembles b c) (client : ClientInfo) (k : ConnectionId) :
    Resembles (b.onDisconnect client k) (c.onDisconnect client k) := by
  have hclosed := ((parallel client.id).takeWill h k).snd.closeConnection k
  unfold Broker.onDisconnect
  dsimp only
  rw [hclosed.connection]
  exact ((parallel client.id).unbind hclosed k _).snd

end ending

section admission

lemma refuse (h : Resembles b c) (k : ConnectionId) : Agree (b.refuse k) (c.refuse k) :=
  .mk _ (h.closeConnection k)

lemma reject (h : Resembles b c) (k : ConnectionId) (code : ConnackCode) :
    Agree (b.reject k code) (c.reject k code) :=
  .mk _ ((h.onConnection k (·.send (.connack false code))).snd.closeConnection k)

lemma authenticate (h : Resembles b c) (connect : Connect) (id : ClientId) :
    Agree (b.authenticate .quiet connect id) (c.authenticate .quiet connect id) := by
  unfold Broker.authenticate
  rw [h.config]
  split
  · exact .mk _ h
  · split
    next username password _ _ =>
      obtain ⟨⟨verdict, role⟩, b', c', hb, hc, h⟩ :=
        h.askAuthenticator ⟨id, some username, some password⟩
      rw [hb, hc]
      exact .mk _ h
    · exact .mk _ h

lemma establish (h : Resembles b c) (k : ConnectionId) (client : ClientInfo)
    (outcome : BindOutcome) :
    Agree (b.establish k client outcome) (c.establish k client outcome) := by
  obtain ⟨result, b', c', hb, hc, h⟩ := h.onConnection k
    (·.establish (.connack outcome.resumed .accepted) outcome.replay)
  unfold Broker.establish
  rw [hb, hc]
  obtain unsent | _ := result
  · exact .mk _ (((parallel client.id).requeue h k unsent).snd.connectionLost k)
  · exact .mk _ h

lemma countIdentified (h : Resembles b c) (isGiven : Bool) :
    Resembles (if isGiven then { b with identified := b.identified + 1 } else b)
      (if isGiven then { c with identified := c.identified + 1 } else c) := by
  obtain ⟨stored, repository, rfl⟩ := h
  cases isGiven with
  | true => exact ⟨stored, repository, rfl⟩
  | false => exact ⟨stored, repository, rfl⟩

lemma bindAndEstablish {connect : Connect} {client : ClientInfo}
    (h : Agree (b.findOrCreate client.id connect.clean client)
      (c.findOrCreate client.id connect.clean client)) (k : ConnectionId) (isGiven : Bool) :
    Agree (b.bindAndEstablish .quiet k connect client isGiven)
      (c.bindAndEstablish .quiet k connect client isGiven) := by
  obtain ⟨bound, b', c', hb, hc, h⟩ := (parallel client.id).bind h k
  unfold Broker.bindAndEstablish
  rw [hb, hc]
  cases bound with
  | error error => exact h.reject k .serverUnavailable
  | ok outcome =>
    have hw := ((parallel client.id).setWill (h.countIdentified isGiven) k connect.will).snd
    exact (hw.modifyConnection k fun c =>
      { c with client := some client, clean := connect.clean }).establish k client outcome

/-- Before a session is bound nothing is asked of the storage. -/
lemma authenticateAndBind_or (h : Resembles b c) (k : ConnectionId) (connect : Connect)
    (id : ClientId) (isGiven : Bool) :
    Agree (b.authenticateAndBind .quiet k connect id isGiven)
        (c.authenticateAndBind .quiet k connect id isGiven) ∨
      ∃ b' c' client, Resembles b' c' ∧ b'.stored = b.stored ∧ c'.stored = c.stored ∧
        b.authenticateAndBind .quiet k connect id isGiven =
          b'.bindAndEstablish .quiet k connect client isGiven ∧
        c.authenticateAndBind .quiet k connect id isGiven =
          c'.bindAndEstablish .quiet k connect client isGiven := by
  obtain ⟨answer, b', c', hb, hc, h'⟩ := h.authenticate connect id
  have hsb : b'.stored = b.stored := by
    obtain ⟨⟨calls, he⟩, -⟩ := b.authenticate_quiet connect id
    rw [hb] at he
    rw [show b' = _ from he]
    rfl
  have hsc : c'.stored = c.stored := by
    obtain ⟨⟨calls, he⟩, -⟩ := c.authenticate_quiet connect id
    rw [hc] at he
    rw [show c' = _ from he]
    rfl
  unfold Broker.authenticateAndBind
  rw [hb, hc]
  cases answer with
  | error code => exact .inl (h'.reject k code)
  | ok client =>
    have hstate : ∀ d : Broker, ((d.setState k .authenticating .binding).2).stored = d.stored :=
      fun _ => rfl
    have hsb' := (hstate b').trans hsb
    have hsc' := (hstate c').trans hsc
    obtain ⟨changed, b'', c'', hb', hc', h''⟩ :=
      h'.onConnection k (·.transition .authenticating .binding)
    dsimp only
    unfold Broker.setState at hsb' hsc' ⊢
    rw [hb'] at hsb' ⊢
    rw [hc'] at hsc' ⊢
    cases changed with
    | false => exact .inl (h''.reject k .serverUnavailable)
    | true => exact .inr ⟨b'', c'', client, h'', hsb', hsc', rfl, rfl⟩

lemma processConnect_or (h : Resembles b c) (k : ConnectionId) (connect : Connect) :
    Agree (b.processConnect .quiet k connect) (c.processConnect .quiet k connect) ∨
      ∃ b' c' client isGiven, Resembles b' c' ∧ b'.stored = b.stored ∧ c'.stored = c.stored ∧
        b.processConnect .quiet k connect =
          b'.bindAndEstablish .quiet k connect client isGiven ∧
        c.processConnect .quiet k connect =
          c'.bindAndEstablish .quiet k connect client isGiven := by
  have hwill : c.willAllowed connect = b.willAllowed connect := by
    unfold willAllowed checkTopicName
    rw [h.config]
  have hid : c.resolveId connect = b.resolveId connect := by
    obtain ⟨_, _, rfl⟩ := h
    rfl
  unfold Broker.processConnect
  rw [h.connection, hwill, hid]
  split
  · exact .inl (h.refuse k)
  split
  · exact .inl (h.reject k _)
  split
  · exact .inl (h.refuse k)
  cases b.resolveId connect with
  | error code => exact .inl (h.reject k code)
  | ok resolved =>
    obtain ⟨id, isGiven⟩ := resolved
    have hstate : ∀ d : Broker, ((d.setState k .idle .authenticating).2).stored = d.stored :=
      fun _ => rfl
    have hsb := hstate b
    have hsc := hstate c
    obtain ⟨changed, b', c', hb, hc, h'⟩ := h.onConnection k (·.transition .idle .authenticating)
    dsimp only
    unfold Broker.setState at hsb hsc ⊢
    rw [hb] at hsb ⊢
    rw [hc] at hsc ⊢
    cases changed with
    | false => exact .inl (h'.refuse k)
    | true =>
      obtain ha | ⟨b'', c'', client, h'', hsb', hsc', hbind⟩ :=
        h'.authenticateAndBind_or k connect id isGiven
      · exact .inl ha
      · exact .inr ⟨b'', c'', client, isGiven, h'', hsb'.trans hsb, hsc'.trans hsc, hbind⟩

end admission

section events

lemma continueIf {x y : Except WriteError Unit × Broker} (h : Agree x y) (k : ConnectionId) :
    Agree (continueIf k x) (continueIf k y) := by
  obtain ⟨result, b, c, rfl, rfl, h⟩ := h
  obtain error | _ := result
  · exact .mk _ (h.connectionLost k)
  · exact .mk _ h

lemma reply (h : Resembles b c) (k : ConnectionId) (packet : Packet) :
    Agree (b.reply k packet) (c.reply k packet) :=
  continueIf (h.onConnection k (·.send packet)) k

lemma subscribeAll (h : Resembles b c) (client : ClientInfo) (k : ConnectionId)
    (requests : List (String × QoS)) :
    Agree (subscribeAll .quiet client k requests b) (subscribeAll .quiet client k requests c) := by
  induction requests generalizing b c with
  | nil => exact .mk _ h
  | cons request requests ih =>
    obtain ⟨result, b', c', hb, hc, h⟩ :=
      (parallel client.id).subscribe h k request.1 request.2
    obtain ⟨answers, b'', c'', hb', hc', h⟩ := ih h
    unfold Broker.subscribeAll
    dsimp only
    rw [hb, hc]
    dsimp only
    rw [hb', hc']
    cases result with
    | ok grant => exact .mk _ h
    | error error => exact .mk _ h

lemma deliverAll (h : Resembles b c) (k : ConnectionId) (publishes : List Publish) :
    Agree (deliverAll k publishes b) (deliverAll k publishes c) := by
  induction publishes generalizing b c with
  | nil => exact .mk _ h
  | cons publish publishes ih =>
    obtain ⟨result, b', c', hb, hc, h⟩ := h.onConnection k (·.deliver publish)
    unfold Broker.deliverAll
    rw [hb, hc]
    obtain error | _ := result
    · exact .mk _ h
    · exact ih h

lemma onSubscribe (h : Resembles b c) (client : ClientInfo) (k : ConnectionId) (id : PacketId)
    (requests : List (String × QoS)) : Agree (b.onSubscribe .quiet client k id requests)
      (c.onSubscribe .quiet client k id requests) := by
  obtain ⟨⟨codes, retained⟩, b', c', hb, hc, h⟩ := h.subscribeAll client k requests
  obtain ⟨result, b'', c'', hb', hc', h⟩ := h.onConnection k (·.send (.suback id codes))
  unfold Broker.onSubscribe
  rw [hb, hc]
  dsimp only
  rw [hb', hc']
  obtain error | _ := result
  · exact .mk _ (h.connectionLost k)
  · exact continueIf (h.deliverAll k retained) k

lemma onUnsubscribe (h : Resembles b c) (client : ClientInfo) (k : ConnectionId) (id : PacketId)
    (filters : List String) : Agree (b.onUnsubscribe .quiet client k id filters)
      (c.onUnsubscribe .quiet client k id filters) := by
  have hf : Resembles
      (filters.foldl (fun b filter => (b.unsubscribe .quiet client.id k filter).2) b)
      (filters.foldl (fun b filter => (b.unsubscribe .quiet client.id k filter).2) c) := by
    induction filters generalizing b c with
    | nil => exact h
    | cons filter filters ih => exact ih ((parallel client.id).unsubscribe h k filter).snd
  exact hf.reply k (.unsuback id)

lemma onPublish (h : Resembles b c) (client : ClientInfo) (k : ConnectionId) (publish : Publish) :
    Agree (b.onPublish client k publish) (c.onPublish client k publish) := by
  obtain ⟨result, b', c', hb, hc, h⟩ := h.publishFrom client publish
  unfold Broker.onPublish
  rw [hb, hc]
  obtain ⟨cause | topic⟩ | count := result
  · exact .mk _ (h.connectionLost k)
  -- a publish that is not authorized is acknowledged like any other
  all_goals
    dsimp only
    cases acknowledgement publish with
    | none => exact .mk _ h
    | some packet => exact h.reply k packet

lemma onPacket (h : Resembles b c) (client : ClientInfo) (k : ConnectionId) (packet : Packet) :
    Agree (b.onPacket .quiet client k packet) (c.onPacket .quiet client k packet) := by
  cases packet with
  | subscribe id requests => exact h.onSubscribe client k id requests
  | unsubscribe id filters => exact h.onUnsubscribe client k id filters
  | publish publish => exact h.onPublish client k publish
  | pubrel | pingreq => exact h.reply k _
  | puback | pubrec | pubcomp => exact .mk _ h
  | disconnect => exact .mk _ (h.onDisconnect client k)
  | connect | connack | suback | unsuback | pingresp => exact .mk _ (h.connectionLost k)

/-- Only a first CONNECT may ask the storage for something. -/
lemma handle_or (h : Resembles b c) (k : ConnectionId) (event : Event) :
    Agree (b.handle .quiet k event) (c.handle .quiet k event) ∨ ∃ connect,
      (b.handle .quiet k event = ((b.processConnect .quiet k connect).1.isAccepted,
        (b.processConnect .quiet k connect).2)) ∧
      (c.handle .quiet k event = ((c.processConnect .quiet k connect).1.isAccepted,
        (c.processConnect .quiet k connect).2)) := by
  cases event with
  | transportClosed => exact .inl (.mk _ (h.connectionLost k))
  | evicted => exact .inl (.mk _ h)
  | packet packet =>
    unfold Broker.handle
    dsimp only
    rw [h.connection]
    cases (b.connection k).client with
    | some client =>
      dsimp only
      split
      · exact .inl (h.onPacket client k packet)
      · exact .inl (.mk _ (h.connectionLost k))
    | none =>
      cases packet with
      | connect connect => exact .inr ⟨connect, rfl, rfl⟩
      | _ => exact .inl (.mk _ (h.closeConnection k))

end events
end Resembles
end MqttBroker.Broker
