import MqttBroker.Proofs.Broker.Registry
import MqttBroker.Proofs.Broker.Routing
import MqttBroker.Proofs.Connection.Stamping
import MqttBroker.Proofs.Storage.Repository

/-!
The elementary moves of which the work of a connection's actor is made: it serves its client, and
at last lets go of it.  An invariant of these moves is an invariant of all that the actor does.
-/
namespace MqttBroker.Broker

/-- What an actor does that concerns its own connection and the books alone. -/
inductive Chore (k : ConnectionId) : Broker → Broker → Prop
  | books {b} (calls) {stored} (h : b.stored.Consulted stored) (identified) :
    Chore k b (b.withBooks calls stored identified)
  | send {b packet} (h : packet.publish? = none) :
    Chore k b (b.modifyConnection k fun c => (c.send packet).2)
  | close {b} : Chore k b (b.closeConnection k)
  | advance {b source target} (h : source ≠ .established ∧ source ≠ .closed)
    (ht : target ≠ .established) : Chore k b (b.setState k source target).2

/-- A sequence of chores. -/
abbrev Chores (k : ConnectionId) : Broker → Broker → Prop := Relation.ReflTransGen (Chore k)

/-- The elementary calls by which the actor of connection `k` serves its client, whose identifier
is given where it matters. -/
inductive Service (k : ConnectionId) : Option ClientId → Broker → Broker → Prop
  | chore {actor b b'} (h : Chore k b b') : Service k actor b b'
  | deliver {id b publish} (h : publish.retain = true) :
    Service k (some id) b (b.modifyConnection k fun c => (c.deliver publish).2)
  | retain {actor b} (publish) : Service k actor b (b.retain publish)
  | route {actor b} (id publish granted) :
    Service k actor b (b.route id (Publish.copyFor publish granted)).2
  | subscribe {b} (client filter qos) :
    Service k (some client.id) b (b.subscribe .quiet client k filter qos).2
  | unsubscribe {b} (id filter) : Service k (some id) b (b.unsubscribe .quiet id k filter).2

/-- A sequence of services. -/
abbrev Services (k : ConnectionId) (actor : Option ClientId) : Broker → Broker → Prop :=
  Relation.ReflTransGen (Service k actor)

/-- The elementary calls of an actor: it serves its client, or lets go of it. -/
inductive Move (k : ConnectionId) : Option ClientId → Broker → Broker → Prop
  | serve {actor b b'} (h : Service k actor b b') : Move k actor b b'
  | forget {actor b} : Move k actor b (b.modifyConnection k fun c => { c with client := none })
  | noteFired {actor b} (will) : Move k actor b (b.modifyConnection k (·.noteFired will))
  | takeWill {b} (id) : Move k (some id) b (b.takeWill id k).2
  | unbind {b} (id) : Move k (some id) b (b.unbind id k (b.connection k).clean).2

/-- A sequence of moves. -/
abbrev Moves (k : ConnectionId) (actor : Option ClientId) : Broker → Broker → Prop :=
  Relation.ReflTransGen (Move k actor)

/-- After its client was served an actor goes on, or its connection is lost. -/
inductive Served (k : ConnectionId) (serving : Broker → Broker → Prop) (b : Broker) :
    Bool × Broker → Prop
  | goesOn {m} (h : serving b m) : Served k serving b (true, m)
  | lost {m} (h : serving b m) : Served k serving b (false, m.connectionLost k)

/-- Nobody but the actor's client was admitted on its connection. -/
def SpeaksFor (b : Broker) (k : ConnectionId) (actor : Option ClientId) : Prop :=
  ∀ info, (b.connection k).client = some info → actor = some info.id

/-- The client that is admitted on a connection. -/
def speaker (b : Broker) (k : ConnectionId) : Option ClientId := (b.connection k).client.map (·.id)

variable {b b' : Broker} {k : ConnectionId} {actor : Option ClientId} {client : ClientInfo}
  {result : Bool × Broker} {serving : Broker → Broker → Prop}

lemma speaksFor_speaker (b : Broker) (k : ConnectionId) : b.SpeaksFor k (b.speaker k) := by
  intro info hi
  rw [speaker, hi, Option.map_some]

lemma Chores.services (h : Chores k b b') : Services k actor b b' := by
  induction h with
  | refl => exact .refl
  | tail _ hs ih => exact ih.tail (.chore hs)

lemma Chore.retained_eq (h : Chore k b b') : b'.retained = b.retained := by
  cases h with
  | books | send | close | advance => rfl

lemma Chores.retained_eq (h : Chores k b b') : b'.retained = b.retained := by
  induction h with
  | refl => rfl
  | tail _ hc ih => exact hc.retained_eq.trans ih

lemma Services.moves (h : Services k actor b b') : Moves k actor b b' := by
  induction h with
  | refl => exact .refl
  | tail _ hs ih => exact ih.tail (.serve hs)

section publish

lemma fanOut_services (publish : Publish) (targets : List (ClientId × QoS)) (b : Broker) :
    Services k actor b (b.fanOut publish targets).2 := by
  induction targets generalizing b with
  | nil => exact .refl
  | cons target rest ih => exact .head (.route _ publish _) (ih _)

lemma publish_services (b : Broker) (publish : Publish) :
    Services k actor b (b.publish publish).2 :=
  .head (.retain publish) (fanOut_services publish _ _)

lemma fireWill_services (b : Broker) (will : Will) : Services k actor b (b.fireWill will).2 := by
  unfold fireWill
  split
  · exact .refl
  · exact publish_services b _

lemma publishFrom_services (b : Broker) (client : ClientInfo) (publish : Publish) :
    Services k actor b (b.publishFrom client publish).2 := by
  unfold publishFrom
  split
  · exact .refl
  · split
    · exact publish_services b publish
    · exact .refl

end publish

section kept

lemma steady_route (id : ClientId) (publish : Publish) (j : ConnectionId) :
    (b.connection j).Steady ((b.route id publish).2.connection j) :=
  route_rel publish .refl j fun _ _ _ => Connection.steady_deliver _ _

lemma Chore.steady (h : Chore k b b') (j : ConnectionId) :
    (b.connection j).Steady (b'.connection j) := by
  cases h with
  | books => exact .refl _
  | send h => exact modifyConnection_rel .refl (Connection.wrote_control h _).steady j
  | close => exact modifyConnection_rel .refl (Connection.steady_close _) j
  | advance h ht =>
    rw [setState_snd]
    exact modifyConnection_rel .refl (Connection.steady_transition h ht _) j

/-- No chore hands anything over. -/
lemma Chore.emitted {source : Publish → Prop} (h : Chore k b b') (j : ConnectionId) :
    (b.connection j).Emitted source (b'.connection j) := by
  cases h with
  | books => exact .refl _
  | send h => exact modifyConnection_rel .refl (Connection.emitted_control h _) j
  | close => exact modifyConnection_rel .refl (Connection.emitted_of_eq rfl) j
  | advance =>
    rw [setState_snd]
    refine modifyConnection_rel .refl (Connection.emitted_of_eq ?_) j
    unfold Connection.transition
    split <;> rfl

/-- What serving a client does to any connection. -/
lemma Service.steady (h : Service k actor b b') (j : ConnectionId) :
    (b.connection j).Steady (b'.connection j) := by
  cases h with
  | chore h => exact h.steady j
  | deliver => exact modifyConnection_rel .refl (Connection.steady_deliver _ _) j
  | route id publish granted => exact steady_route id _ j
  | retain | subscribe | unsubscribe => simp [Connection.Steady.refl]

/-- Nothing is handed to a closed connection. -/
lemma Service.mute {j : ConnectionId} (h : Service k actor b b')
    (hj : (b.connection j).state = .closed) :
    (b.connection j).Emitted (fun _ => False) (b'.connection j) := by
  have hd : ∀ publish, ((b.connection j).deliver publish).2 = b.connection j := by
    intro publish
    simp only [Connection.deliver, hj]
  cases h with
  | chore h => exact h.emitted j
  | @deliver id _ publish h =>
    refine modifyConnection_rel_of .refl j fun _ => ?_
    rw [hd]
    exact .refl _
  | route id publish granted =>
    refine route_rel _ .refl j fun _ _ _ => ?_
    rw [hd]
    exact .refl _
  | retain | subscribe | unsubscribe => simp [Connection.Emitted.refl]

lemma Move.kept (h : Move k actor b b') (j : ConnectionId) :
    (b.connection j).Kept (b'.connection j) := by
  cases h with
  | serve h => exact (h.steady j).toKept
  | forget => exact modifyConnection_rel .refl (Connection.onward_forget _).toKept j
  | noteFired will => exact modifyConnection_rel .refl (Connection.onward_noteFired will _).toKept j
  | takeWill | unbind => simp [Connection.Kept.refl]

lemma Moves.kept (h : Moves k actor b b') (j : ConnectionId) :
    (b.connection j).Kept (b'.connection j) := by
  induction h with
  | refl => exact .refl _
  | tail _ h ih => exact ih.trans (h.kept j)

lemma Moves.mute {j : ConnectionId} (h : Moves k actor b b')
    (hj : (b.connection j).state = .closed) :
    (b.connection j).Emitted (fun _ => False) (b'.connection j) := by
  induction h with
  | refl => exact .refl _
  | tail hs hm ih =>
    refine ih.trans ?_
    cases hm with
    | serve hm => exact hm.mute ((Moves.kept hs j).closed hj)
    | forget | noteFired => exact modifyConnection_rel .refl (Connection.emitted_of_eq rfl) j
    | takeWill | unbind => simp [Connection.Emitted.refl]

lemma Chore.size_eq (h : Chore k b b') : b'.connections.size = b.connections.size := by
  cases h with
  | books => rfl
  | send | close => exact size_modifyConnection _
  | advance =>
    rw [setState_snd]
    exact size_modifyConnection _

/-- No connection is accepted by an actor. -/
lemma Service.size_eq (h : Service k actor b b') :
    b'.connections.size = b.connections.size := by
  cases h with
  | chore h => exact h.size_eq
  | deliver => exact size_modifyConnection _
  | route id publish granted => exact size_route _ b id
  | retain | subscribe | unsubscribe => simp

lemma Moves.size_eq (h : Moves k actor b b') : b'.connections.size = b.connections.size := by
  induction h with
  | refl => rfl
  | tail _ hm ih =>
    rw [← ih]
    cases hm with
    | serve hs => exact hs.size_eq
    | forget | noteFired => exact size_modifyConnection _
    | takeWill | unbind => simp

lemma SpeaksFor.moves (hs : b.SpeaksFor k actor) (h : Moves k actor b b') :
    b'.SpeaksFor k actor := fun info hi => hs info ((h.kept k).client info hi)

end kept

section ending

lemma executeWill_moves (b : Broker) (k : ConnectionId) (will : Option Will) :
    Moves k actor b (b.executeWill k will) := by
  cases will with
  | none => exact .refl
  | some will => exact (fireWill_services b will).moves.tail (.noteFired will)

/-- Whoever was admitted on the connection, its end is a matter of its actor. -/
lemma connectionLost_moves (hs : b.SpeaksFor k actor) : Moves k actor b (b.connectionLost k) := by
  have hclose : Move k actor b (b.closeConnection k) := .serve (.chore .close)
  unfold connectionLost
  dsimp only
  refine .head hclose ?_
  split
  · exact .refl
  next client hc =>
    cases hs.moves (.single hclose) client hc
    refine .head .forget (.head (.takeWill client.id) ?_)
    exact (executeWill_moves _ k _).tail (.unbind client.id)

/-- While nobody is admitted, a connection is lost by closing it. -/
lemma connectionLost_of_client (h : (b.connection k).client = none) :
    b.connectionLost k = b.closeConnection k := by
  have hm : Move k none b (b.closeConnection k) := .serve (.chore .close)
  have hc : ((b.closeConnection k).connection k).client = none := by
    refine Option.eq_none_iff_forall_ne_some.mpr fun info hi => ?_
    rw [(hm.kept k).client info hi] at h
    cases h
  unfold connectionLost
  dsimp only
  rw [hc]

/-- It does not matter whether a lost connection was closed before. -/
lemma connectionLost_closeConnection (b : Broker) (k : ConnectionId) :
    (b.closeConnection k).connectionLost k = b.connectionLost k := by
  have hclose : (b.closeConnection k).closeConnection k = b.closeConnection k := by
    rw [closeConnection, closeConnection, modifyConnection_modifyConnection]
    rfl
  unfold connectionLost
  rw [hclose]

/-- A connection gets nothing more when it is lost, not even its own will. -/
lemma connectionLost_mute (b : Broker) (k : ConnectionId) :
    (b.connection k).Emitted (fun _ => False) ((b.connectionLost k).connection k) := by
  have hb : (b.connection k).Emitted (fun _ => False) ((b.closeConnection k).connection k) :=
    Chore.emitted (.close : Chore k b _) k
  refine hb.trans ?_
  rw [← connectionLost_closeConnection]
  exact (connectionLost_moves (speaksFor_speaker _ k)).mute (b.state_closeConnection k)

lemma onDisconnect_moves (b : Broker) (client : ClientInfo) (k : ConnectionId) :
    Moves k (some client.id) b (b.onDisconnect client k) :=
  .head (.takeWill client.id) (.head (.serve (.chore .close)) (.single (.unbind client.id)))

lemma Served.moves (h : Served k (Services k actor) b result) (hs : b.SpeaksFor k actor) :
    Moves k actor b result.2 := by
  cases h with
  | goesOn h => exact h.moves
  | lost h => exact h.moves.trans (connectionLost_moves (hs.moves h.moves))

/-- Nothing was to be done before. -/
lemma Served.still (h : Served k Eq b result) : Served k (Services k actor) b result := by
  cases h with
  | goesOn h => exact .goesOn (h ▸ .refl)
  | lost h => exact .lost (h ▸ .refl)

lemma Served.mono {other : Broker → Broker → Prop} (h : Served k serving b result)
    (hm : ∀ m, serving b m → other b m) : Served k other b result := by
  cases h with
  | goesOn h => exact .goesOn (hm _ h)
  | lost h => exact .lost (hm _ h)

end ending
end MqttBroker.Broker
