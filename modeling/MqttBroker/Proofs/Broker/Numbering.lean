import MqttBroker.Proofs.Broker.Handling
import MqttBroker.Proofs.Broker.Opening
import MqttBroker.Proofs.Broker.Run
import MqttBroker.Proofs.Connection.Numbering

/-!
The packet identifiers of all connections of a broker.  Whoever writes a publish, to whichever
connection, it takes the identifier that is due there, so that every connection has a log from its
beginning.
-/
namespace MqttBroker

/-- Nothing is asked of a connection but what can be logged. -/
def Operation.Traceable : Operation → Prop
  | connection _ change => ∀ c : Connection, c.Traced (change c)
  | _ => True

namespace Broker

variable {b b' : Broker} {j k : ConnectionId} {id : ClientId} {actor : Option ClientId}
  {operation : Operation}

/-- What happened to each connection can be logged. -/
def Traces (b b' : Broker) : Prop := ∀ j, (b.connection j).Traced (b'.connection j)

namespace Traces

section moves

lemma refl (b : Broker) : Traces b b := fun _ => .refl _

lemma trans {b'' : Broker} (h : Traces b b') (h' : Traces b' b'') : Traces b b'' :=
  fun j => (h j).trans (h' j)

lemma of_connection (h : ∀ j, b'.connection j = b.connection j) : Traces b b' := by
  intro j
  rw [h j]
  exact .refl _

lemma modifyConnection {change : Connection → Connection}
    (h : (b.connection k).Traced (change (b.connection k))) :
    Traces b (b.modifyConnection k change) :=
  modifyConnection_rel .refl h

lemma chore (h : Chore k b b') : Traces b b' := by
  cases h with
  | books => exact of_connection fun _ => rfl
  | send h => exact modifyConnection (Connection.traced_control h _)
  | close => exact modifyConnection (Connection.traced_aside rfl rfl)
  | advance =>
    rw [setState_snd]
    exact modifyConnection (Connection.traced_transition _ _ _)

lemma chores (h : Chores k b b') : Traces b b' := by
  induction h with
  | refl => exact refl b
  | tail _ h ih => exact ih.trans (chore h)

lemma service (h : Service k actor b b') : Traces b b' := by
  cases h with
  | chore h => exact chore h
  | deliver => exact modifyConnection (Connection.traced_deliver _ _)
  | route id publish granted =>
    exact fun j => route_rel _ .refl j fun _ _ _ => Connection.traced_deliver _ _
  | retain | subscribe | unsubscribe => exact of_connection (by simp)

lemma services (h : Services k actor b b') : Traces b b' := by
  induction h with
  | refl => exact refl b
  | tail _ h ih => exact ih.trans (service h)

lemma moves (h : Moves k actor b b') : Traces b b' := by
  induction h with
  | refl => exact refl b
  | tail _ h ih =>
    refine ih.trans ?_
    cases h with
    | serve h => exact service h
    | forget | noteFired => exact modifyConnection (Connection.traced_aside rfl rfl)
    | takeWill | unbind => exact of_connection (by simp)

end moves

section admission

lemma setWill (b : Broker) (id : ClientId) (k : ConnectionId) (will : Option Will) :
    Traces b (b.setWill id k will).2 := by
  obtain he | ⟨session, -, he⟩ := setWill_cases b id k will <;> rw [he]
  · exact refl b
  · exact of_connection fun _ => rfl

lemma clearWill (b : Broker) (id : ClientId) : Traces b (b.clearWill id) := by
  obtain he | ⟨session, -, he⟩ := clearWill_cases b id <;> rw [he]
  · exact refl b
  · exact of_connection fun _ => rfl

lemma requeue (b : Broker) (id : ClientId) (k : ConnectionId) (unsent : List Publish) :
    Traces b (b.requeue id k unsent).2 := by
  obtain he | ⟨session, -, he⟩ := requeue_cases b id k unsent <;> rw [he]
  · exact refl b
  · exact of_connection fun _ => rfl

/-- A connection that takes a session over evicts another one at most. -/
lemma rebind (b : Broker) (id : ClientId) (clean : Bool) (k : ConnectionId) (client : ClientInfo)
    (session : Session) (lost : List String) :
    Traces b (b.rebind id clean k client session lost) := by
  have hevicted : Traces b (b.evictOther session k) := by
    obtain he | ⟨old, -, -, he⟩ := b.evictOther_cases session k <;> rw [he]
    · exact refl b
    · exact modifyConnection (Connection.traced_aside rfl rfl)
  have hentered : Traces (b.evictOther session k)
      (((b.evictOther session k).redirect id session lost).setSession id
        ((session.trimmed clean client lost).rebound clean k)) := of_connection fun _ => rfl
  have hnamed : ∀ b : Broker, Traces b (b.modifyConnection k (·.setClientId id)) := fun b =>
    modifyConnection (Connection.traced_aside rfl rfl)
  have hnoted : ∀ b : Broker, Traces b (b.note id (.bound k)) := fun b => of_connection fun _ => rfl
  exact ((hevicted.trans hentered).trans (hnamed _)).trans (hnoted _)

lemma bind (b : Broker) (id : ClientId) (clean : Bool) (k : ConnectionId) (client : ClientInfo) :
    Traces b (b.bind .quiet id clean k client).2 := by
  obtain ⟨calls, stored, -, ⟨error, -, he⟩ | ⟨session, lost, -, -, he⟩⟩ :=
    b.bind_cases id clean k client <;> rw [he]
  · exact of_connection fun _ => rfl
  · exact (rebind b id clean k client session lost).trans (of_connection fun _ => connection_withBooks)

lemma recordClient (b : Broker) (k : ConnectionId) (client : ClientInfo) (clean : Bool) :
    Traces b (b.recordClient k client clean) :=
  modifyConnection (Connection.traced_aside rfl rfl)

lemma establish (b : Broker) (k : ConnectionId) (client : ClientInfo) (outcome : BindOutcome) :
    Traces b (b.establish k client outcome).2 := by
  have hopen : Traces b (b.modifyConnection k fun c =>
      (c.establish (.connack outcome.resumed .accepted) outcome.replay).2) :=
    modifyConnection (Connection.traced_establish rfl outcome.replay _)
  cases he : ((b.connection k).establish (.connack outcome.resumed .accepted) outcome.replay).1 with
  | ok =>
    rw [establish_of_ok he]
    exact hopen
  | error unsent =>
    rw [establish_of_error he]
    refine (hopen.trans (requeue _ client.id k unsent)).trans ?_
    exact moves (connectionLost_moves (speaksFor_speaker _ k))

lemma bindAndEstablish (b : Broker) (k : ConnectionId) (connect : Connect) (client : ClientInfo)
    (isGiven : Bool) : Traces b (b.bindAndEstablish .quiet k connect client isGiven).2 := by
  have hbind := bind b client.id connect.clean k client
  unfold Broker.bindAndEstablish
  generalize b.bind .quiet client.id connect.clean k client = result at hbind ⊢
  obtain ⟨error | outcome, b'⟩ := result
  · exact hbind.trans (chores (turnedAway_reject (by simp) b' k).refused.chores)
  · have hgiven : Traces b'
        (if isGiven then { b' with identified := b'.identified + 1 } else b') := by
      split
      · exact of_connection fun _ => rfl
      · exact refl b'
    have hwill := (hbind.trans hgiven).trans (setWill _ client.id k connect.will)
    exact (hwill.trans (recordClient _ k client connect.clean)).trans (establish _ k client outcome)

lemma processConnect (b : Broker) (k : ConnectionId) (connect : Connect) :
    Traces b (b.processConnect .quiet k connect).2 := by
  obtain hr | ⟨client, isGiven, calls, hs, -, -, -, he⟩ := b.processConnect_cases k connect
  · exact chores hr.chores
  · rw [he]
    exact (chores (awaiting_chores hs calls)).trans (bindAndEstablish _ k connect client isGiven)

lemma handle (b : Broker) (k : ConnectionId) (event : Event) :
    Traces b (b.handle .quiet k event).2 := by
  obtain hm | ⟨connect, -, -, he⟩ := b.handle_moves k event
  · exact moves hm
  · rw [he]
    exact processConnect b k connect

end admission

/-- A connection that is accepted is as good as one that never was, as far as publishes go. -/
lemma accept (b : Broker) : Traces b b.accept.2 := by
  intro j
  rw [connection_accept]
  split
  next hj =>
    subst hj
    rw [connection_of_not_lt (Nat.lt_irrefl _)]
    exact Connection.traced_aside rfl rfl
  next => exact .refl _

lemma expire (b : Broker) (id : ClientId) : Traces b (b.expire id).2 :=
  expire_induction (P := Traces b) (refl b) id
    (fun _ => modifyConnection (Connection.traced_aside rfl rfl)) fun _ session h _ _ =>
      h.trans (of_connection fun _ => connection_teardown session)

/-- One operation, whoever asks for it. -/
theorem perform (b : Broker) (h : operation.Traceable) : Traces b (b.perform operation) := by
  cases operation with
  | accept => exact accept b
  | connect k connect => exact processConnect b k connect
  | event k event => exact handle b k event
  | expire id => exact expire b id
  | fault k fault =>
    refine modifyConnection (Connection.traced_aside rfl ?_)
    cases fault <;> rfl
  | bind id clean k client => exact bind b id clean k client
  | unbind id k remove => exact of_connection fun _ => connection_unbind remove
  | subscribe client k filter qos => exact of_connection fun _ => connection_subscribe filter client qos
  | unsubscribe id k filter => exact of_connection fun _ => connection_unsubscribe filter
  | publish publish => exact services (publish_services b publish : Services 0 none b _)
  | publishFrom client publish =>
    exact services (publishFrom_services b client publish : Services 0 none b _)
  | setWill id k will => exact setWill b id k will
  | clearWill id => exact clearWill b id
  | takeWill id k => exact of_connection fun _ => connection_takeWill
  | fireWill will => exact services (fireWill_services b will : Services 0 none b _)
  | requeue id k unsent => exact requeue b id k unsent
  | connection k change => exact modifyConnection (h _)

/-- A whole run. -/
theorem after {operations : List Operation} (h : ∀ operation ∈ operations, operation.Traceable) :
    Traces b (b.after operations) := by
  induction operations generalizing b with
  | nil => exact refl b
  | cons operation operations ih =>
    obtain ⟨ho, hr⟩ := List.forall_mem_cons.mp h
    exact (perform b ho).trans (ih hr)

end Traces

/-- Every connection of a broker has a log from its beginning. -/
lemma logged_of_opened (h : b.Opened) {operations : List Operation}
    (ha : ∀ operation ∈ operations, operation.Traceable) (k : ConnectionId) :
    ∃ log, Connection.fresh.Logged log ((b.after operations).connection k) := by
  have hbegin : Connection.fresh.Traced (b.connection k) := by
    rw [h.connection]
    exact Connection.traced_aside rfl rfl
  exact hbegin.trans (Traces.after ha k)

open Connection (Entry ids) in
/-- An allocation reads the counter twice at most, and the identifiers that a connection allocates
from its beginning are `1, …, 65535, 1, …`: never zero, and all different in a round, wherever it
begins.  This is so in whatever order publishes are delivered, replayed and fail to be written, so
that a publish is written with an identifier exactly if it is sent at least once, and two of these
have different ones if fewer than 65535 identifiers were taken after the first one, up to the
second.  Every connection of a broker is such a one, whatever is asked of the broker. -/
theorem packet_ids_cycle :
    (∀ c : Connection, c.fetchId.1 ≠ 0 ∧ c.allocateId = c.fetchId ∨
      c.fetchId.1 = 0 ∧ c.fetchId.2.fetchId.1 ≠ 0 ∧ c.allocateId = c.fetchId.2.fetchId) ∧
    (∀ k, ((fun c : Connection => c.allocateId.2)^[k] .fresh).allocateId.1.toNat =
      k % 65535 + 1) ∧
    (∀ log c, Connection.fresh.Logged log c →
      (∀ k id, (ids log)[k]? = some id → id.toNat = k % 65535 + 1) ∧
      0 ∉ ids log ∧
      (∀ start, (((ids log).drop start).take 65535).Nodup) ∧
      c.transport.publishes = log.filterMap Entry.arrived? ∧
      (∀ publish ∈ c.transport.publishes, publish.id.isSome ↔ publish.qos ≠ .atMostOnce) ∧
      ∀ before first arrived between second reached after,
        log = before ++ .attempted first arrived :: (between ++ .attempted second reached :: after) →
        first.qos ≠ .atMostOnce → second.qos ≠ .atMostOnce →
        (ids between).length + 1 < 65535 → first.id ≠ second.id) ∧
    ∀ (b : Broker) (operations : List Operation), b.Opened →
      (∀ operation ∈ operations, operation.Traceable) →
      ∀ k, ∃ log, Connection.fresh.Logged log ((b.after operations).connection k) := by
  refine ⟨Connection.allocateId_rounds, fun k => ?_, fun log c h => ?_,
    fun b operations h ha k => logged_of_opened h ha k⟩
  · exact (Connection.due_iterate k).allocateId.1
  · obtain ⟨hcyclic, -⟩ := h.counts Connection.due_fresh
    have hwritten : c.transport.publishes = log.filterMap Entry.arrived? := h.publishes
    refine ⟨hcyclic, hcyclic.zero_notMem, hcyclic.nodup, hwritten, fun publish hp => ?_, ?_⟩
    · rw [hwritten] at hp
      exact h.stamped (Connection.attempted_of_arrived hp)
    · rintro before first arrived between second reached after rfl hf - hlt
      have hm : Entry.attempted first arrived ∈ before ++ .attempted first arrived ::
          (between ++ .attempted second reached :: after) := by simp
      exact hcyclic.apart hlt ((h.stamped hm).mpr hf)

/-- The write that fails takes the second identifier. -/
theorem packet_ids_cycle_failed_write :
    let operations : List Operation := [.accept,
      .connect 0 ⟨"MQTT", 4, true, "c", none, none, none⟩,
      .event 0 (.packet (.subscribe 1 [("a", .atLeastOnce)])),
      .publish ⟨"a", [1], .atLeastOnce, false, false, none⟩,
      .fault 0 (.breaks fun n => n == 3),
      .publish ⟨"a", [2], .atLeastOnce, false, false, none⟩,
      .publish ⟨"a", [3], .atLeastOnce, false, false, none⟩]
    let final := (lenient {} .empty).after operations
    (final.connection 0).transport.publishes.map (·.id) = [some 1, some 3] ∧
      ∃ log, Connection.fresh.Logged log (final.connection 0) := by
  intro operations final
  have ha : ∀ operation ∈ operations, operation.Traceable := by
    simp [operations, Operation.Traceable]
  exact ⟨by decide +kernel, packet_ids_cycle.2.2.2 _ _ (opened_lenient _ _) ha 0⟩

end Broker
end MqttBroker
