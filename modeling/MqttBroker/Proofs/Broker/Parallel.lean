import MqttBroker.Proofs.Broker.Routing

/-!
Two brokers that are asked the same for one client.  Where a relation between them is kept by every
single thing that may be done to the session of the client, it is kept by every operation on that
session, and the operation has the same result on both sides.
-/
namespace MqttBroker.Broker
open Subscription

/-- The same result, and brokers that are related. -/
def Paired (R : Broker → Broker → Prop) {α : Type} (x y : α × Broker) : Prop :=
  ∃ result b c, x = (result, b) ∧ y = (result, c) ∧ R b c

/-- The brokers agree on the session of the client and on the rules, and stay related when the same
is done for the client on both sides. -/
structure Parallel (id : ClientId) (R : Broker → Broker → Prop) : Prop where
  session {b c : Broker} (h : R b c) : c.session? id = b.session? id
  config {b c : Broker} (h : R b c) : c.config = b.config
  authorizer {b c : Broker} (h : R b c) : c.authorizer = b.authorizer
  messages {b c : Broker} (h : R b c) : c.retained.messages = b.retained.messages
  callOut {b c : Broker} (h : R b c) (callout : Callout) :
    R (b.callOut .quiet callout) (c.callOut .quiet callout)
  connection {b c : Broker} (h : R b c) (k : ConnectionId) (change : Connection → Connection) :
    R (b.modifyConnection k change) (c.modifyConnection k change)
  note {b c : Broker} (h : R b c) (episode : Episode) : R (b.note id episode) (c.note id episode)
  setSession {b c : Broker} (h : R b c) (session : Session) :
    R (b.setSession id session) (c.setSession id session)
  dropSession {b c : Broker} (h : R b c) : R (b.dropSession id) (c.dropSession id)
  directory {b c : Broker} (h : R b c) (change : Directory → Directory) :
    R { b with directory := change b.directory } { c with directory := change c.directory }
  save {b c : Broker} (h : R b c) (record : StoredSession) :
    R { b with stored := (b.stored.save id record).2 } { c with stored := (c.stored.save id record).2 }
  delete {b c : Broker} (h : R b c) : R (b.deleteStored id) (c.deleteStored id)

variable {R : Broker → Broker → Prop} {b c : Broker} {id : ClientId} {k : ConnectionId}
  {session : Session} {α : Type}

namespace Paired
variable {x y : α × Broker}

lemma mk (result : α) (h : R b c) : Paired R (result, b) (result, c) :=
  ⟨result, b, c, rfl, rfl, h⟩

/-- Where both brokers take the same branch. -/
lemma branch {x' y' : α × Broker} (h : Paired R x y) (p : Prop) [Decidable p]
    (h' : Paired R x' y') : Paired R (if p then x' else x) (if p then y' else y) := by
  split
  · exact h'
  · exact h

lemma fst (h : Paired R x y) : y.1 = x.1 := by
  obtain ⟨result, b, c, rfl, rfl, -⟩ := h
  rfl

lemma snd (h : Paired R x y) : R x.2 y.2 := by
  obtain ⟨result, b, c, rfl, rfl, h⟩ := h
  exact h

end Paired

namespace Parallel
variable (p : Parallel id R)
include p

lemma boundSession? (h : R b c) (k : ConnectionId) :
    c.boundSession? id k = b.boundSession? id k := by
  rw [Broker.boundSession?, p.session h, Broker.boundSession?]

lemma askRead (h : R b c) (client : ClientInfo) (filter : String) :
    Paired R (b.askRead .quiet client filter) (c.askRead .quiet client filter) := by
  have hcalled := p.callOut h .read
  unfold Broker.askRead
  dsimp only
  rw [p.authorizer hcalled]
  exact .mk _ hcalled

section binding

lemma evictOther (h : R b c) (session : Session) (k : ConnectionId) :
    R (b.evictOther session k) (c.evictOther session k) := by
  unfold Broker.evictOther
  split
  · split
    · exact h
    · exact p.connection h _ _
  · exact h

lemma deniedFilters (h : R b c) (client : ClientInfo) (filters : List String) :
    Paired R (deniedFilters .quiet client filters b) (deniedFilters .quiet client filters c) := by
  induction filters generalizing b c with
  | nil => exact .mk _ h
  | cons filter filters ih =>
    obtain ⟨allowed, b', c', hb, hc, h⟩ := p.askRead h client filter
    obtain ⟨denied, b'', c'', hb', hc', h⟩ := ih h
    unfold Broker.deniedFilters
    rw [hb, hc]
    dsimp only
    rw [hb', hc']
    exact .mk _ h

lemma reauthorize (h : R b c) (session : Session) :
    Paired R (b.reauthorize .quiet id session) (c.reauthorize .quiet id session) := by
  obtain ⟨denied, b', c', hb, hc, h⟩ :=
    p.deniedFilters h session.client session.subscriptions.keys
  unfold Broker.reauthorize
  rw [hb, hc]
  dsimp only
  split
  · exact .mk _ (p.directory h fun d => (d.removeAll id denied).2)
  · exact .mk _ h

lemma detach (h : R b c) (session : Session) :
    R (b.detach id session) (c.detach id session) := by
  unfold Broker.detach
  split
  · exact p.directory h fun d => (d.removeAll id session.subscriptions.keys).2
  · exact h

lemma attach (h : R b c) (session : Session) :
    R (b.attach id session) (c.attach id session) := by
  unfold Broker.attach
  split
  · exact h
  · exact p.directory h (·.addAll id session.subscriptions.toList)

lemma trim (h : R b c) (clean : Bool) (client : ClientInfo) (session : Session) :
    Paired R (b.trim .quiet id clean client session) (c.trim .quiet id clean client session) := by
  have hd : R (if session.isReset clean then b.detach id session else b)
      (if session.isReset clean then c.detach id session else c) := by
    split
    · exact p.detach h session
    · exact h
  unfold Broker.trim
  dsimp only
  generalize (if session.isReset clean then b.detach id session else b) = b' at hd ⊢
  generalize (if session.isReset clean then c.detach id session else c) = c' at hd ⊢
  have hs : R (if clean && !(session.existed && session.clean) then b'.deleteStored id else b')
      (if clean && !(session.existed && session.clean) then c'.deleteStored id else c') := by
    split
    · exact p.delete hd
    · exact hd
  rw [p.config hs]
  exact (Paired.mk _ hs).branch _ (p.reauthorize hs _)

/-- The record of a persistent session is written. -/
lemma saveUnless (h : R b c) (clean : Bool) (session : Session) :
    R (if clean then b else b.saveSession .quiet id session)
      (if clean then c else c.saveSession .quiet id session) := by
  split
  · exact h
  · exact p.save (p.callOut h .save) session.toStored

lemma bindSession (h : R b c) (clean : Bool) (k : ConnectionId) (client : ClientInfo)
    (session : Session) : Paired R (b.bindSession .quiet id clean k client session)
      (c.bindSession .quiet id clean k client session) := by
  obtain ⟨kept, b', c', hb, hc, h⟩ := p.trim (p.evictOther h session k) clean client session
  have hbound := fun next => p.connection (p.setSession (p.attach h kept) next) k (·.setClientId id)
  unfold Broker.bindSession
  dsimp only
  rw [hb, hc]
  dsimp only
  exact .mk _ (p.saveUnless (p.note (hbound _) _) clean _)

/-- Binding goes the same way once the same session is found. -/
lemma bind {clean : Bool} {client : ClientInfo}
    (h : Paired R (b.findOrCreate id clean client) (c.findOrCreate id clean client))
    (k : ConnectionId) :
    Paired R (b.bind .quiet id clean k client) (c.bind .quiet id clean k client) := by
  obtain ⟨found, b', c', hb, hc, h⟩ := h
  unfold Broker.bind
  rw [hb, hc]
  cases found with
  | error error => exact .mk _ h
  | ok session =>
    obtain ⟨outcome, b'', c'', hb', hc', h⟩ := p.bindSession h clean k client session
    dsimp only
    rw [hb', hc']
    exact .mk _ h

end binding

section letting

lemma teardown (h : R b c) (session : Session) :
    R (b.teardown id session) (c.teardown id session) := by
  have hd := p.dropSession (p.detach h session)
  unfold Broker.teardown
  dsimp only
  split
  · exact hd
  · exact p.delete hd

lemma unbind (h : R b c) (k : ConnectionId) (remove : Bool) :
    Paired R (b.unbind id k remove) (c.unbind id k remove) := by
  unfold Broker.unbind
  rw [p.boundSession? h]
  cases b.boundSession? id k with
  | none => exact .mk _ h
  | some session =>
    dsimp only
    split
    · exact .mk _ (p.teardown h session)
    · exact .mk _ (p.setSession h _)

lemma expire (h : R b c) : Paired R (b.expire id) (c.expire id) := by
  unfold Broker.expire
  rw [p.session h]
  cases b.session? id with
  | none => exact .mk _ h
  | some session =>
    dsimp only
    split
    · exact .mk _ (p.teardown (p.connection h _ _) session)
    · exact .mk _ (p.teardown h session)

end letting

section wills

lemma setWill (h : R b c) (k : ConnectionId) (will : Option Will) :
    Paired R (b.setWill id k will) (c.setWill id k will) := by
  unfold Broker.setWill
  rw [p.boundSession? h]
  cases b.boundSession? id k with
  | none => exact .mk _ h
  | some session => exact .mk _ (p.setSession h _)

lemma clearWill (h : R b c) : R (b.clearWill id) (c.clearWill id) := by
  unfold Broker.clearWill
  rw [p.session h]
  cases b.session? id with
  | none => exact h
  | some session => exact p.setSession h _

lemma takeWill (h : R b c) (k : ConnectionId) :
    Paired R (b.takeWill id k) (c.takeWill id k) := by
  unfold Broker.takeWill
  rw [p.boundSession? h]
  cases b.boundSession? id k with
  | none => exact .mk _ h
  | some session => exact .mk _ (p.setSession h _)

end wills

lemma requeue (h : R b c) (k : ConnectionId) (unsent : List Publish) :
    Paired R (b.requeue id k unsent) (c.requeue id k unsent) := by
  unfold Broker.requeue
  rw [p.boundSession? h]
  cases b.boundSession? id k with
  | none => exact .mk _ h
  | some session =>
    dsimp only
    split
    · exact .mk _ h
    · exact .mk _ (p.setSession h _)

section subscriptions

/-- The retained messages for a new subscription are those in memory. -/
lemma retainedFor (h : R b c) (filter : String) (granted : QoS) :
    c.retainedFor filter granted = b.retainedFor filter granted := by
  rw [Broker.retainedFor, RetainedStore.matching, p.messages h, Broker.retainedFor,
    RetainedStore.matching]

lemma enterSubscription (h : R b c) (k : ConnectionId) (filter : String) (granted : QoS) :
    Paired R (b.enterSubscription .quiet id k filter granted)
      (c.enterSubscription .quiet id k filter granted) := by
  unfold Broker.enterSubscription
  rw [p.boundSession? h]
  cases b.boundSession? id k with
  | none => exact .mk _ h
  | some session =>
    have hd := p.directory h fun d => (d.add filter id granted).2
    exact .mk _ (p.saveUnless (p.setSession hd _) session.clean _)

lemma unsubscribe (h : R b c) (k : ConnectionId) (filter : String) :
    Paired R (b.unsubscribe .quiet id k filter) (c.unsubscribe .quiet id k filter) := by
  unfold Broker.unsubscribe
  rw [p.boundSession? h]
  cases b.boundSession? id k with
  | none => exact .mk _ h
  | some session =>
    have hd := p.directory h fun d => (d.remove filter id).2
    dsimp only
    split
    · exact .mk _ (p.saveUnless (p.setSession hd _) session.clean _)
    · exact .mk _ h

omit p in
lemma subscribe {client : ClientInfo} (p : Parallel client.id R) (h : R b c) (k : ConnectionId)
    (filter : String) (qos : QoS) : Paired R (b.subscribe .quiet client k filter qos)
      (c.subscribe .quiet client k filter qos) := by
  unfold Broker.subscribe checkFilter
  rw [p.config h]
  cases Topic.checkFilter b.config.mqtt.topicLimits filter with
  | error cause => exact .mk _ h
  | ok =>
    obtain ⟨allowed, b', c', hb, hc, h⟩ := p.askRead h client filter
    dsimp only
    rw [hb, hc]
    cases allowed with
    | false => exact .mk _ h
    | true =>
      dsimp only
      rw [p.config h]
      obtain ⟨entered, b'', c'', hb', hc', h⟩ := p.enterSubscription h k filter
        (min qos b'.config.mqtt.qosLimit)
      rw [hb', hc']
      cases entered with
      | false => exact .mk _ h
      | true =>
        dsimp only
        rw [p.retainedFor h]
        exact .mk _ h

end subscriptions
end Parallel
end MqttBroker.Broker
