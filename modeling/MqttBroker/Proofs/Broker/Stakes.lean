import MqttBroker.Proofs.Broker.Consistency
import MqttBroker.Proofs.Broker.Ownership

/-!
The will of the session that a connection has, which is published when the connection is lost; and
who leaves it alone.
-/
namespace MqttBroker

/-- The connection that an operation drives. -/
def Operation.drives (b : Broker) : Operation → Option ConnectionId
  | accept => some b.connections.size
  | connect k _ | event k _ | fault k _ => some k
  | _ => none

namespace Broker

/-- The wills of the sessions that a connection still has are what they were. -/
def KeepsWills (k : ConnectionId) (b b' : Broker) : Prop :=
  ∀ id next, b'.session? id = some next → next.connection = some k →
    ∃ session, b.session? id = some session ∧ session.connection = some k ∧
      next.will = session.will

/-- No will was published on behalf of a connection, or put into its session. -/
structure Silent (k : ConnectionId) (b b' : Broker) : Prop where
  fired : (b'.connection k).fired = (b.connection k).fired
  clientId : (b'.connection k).clientId = (b.connection k).clientId
  wills : KeepsWills k b b'

variable {b b' b'' : Broker} {j k : ConnectionId} {id : ClientId} {actor : Option ClientId}
  {session next : Session} {client : ClientInfo}

section keeping

lemma keepsWills_of_same (hs : ∀ id, b'.session? id = b.session? id) : KeepsWills k b b' :=
  fun id next hn hk => ⟨next, hs id ▸ hn, hk, rfl⟩

lemma KeepsWills.refl (b : Broker) : KeepsWills k b b := keepsWills_of_same fun _ => rfl

lemma KeepsWills.trans (h : KeepsWills k b b') (h' : KeepsWills k b' b'') : KeepsWills k b b'' := by
  intro id last hl hk
  obtain ⟨next, hn, hk, hw⟩ := h' id last hl hk
  obtain ⟨session, hs, hk, hw'⟩ := h id next hn hk
  exact ⟨session, hs, hk, hw.trans hw'⟩

/-- A session may change if it keeps its will, or does not belong to the connection. -/
lemma KeepsWills.setSession (h : KeepsWills k b b') (hs : b'.session? id = some session)
    (hn : next.connection = some k → session.connection = some k ∧ next.will = session.will) :
    KeepsWills k b (b'.setSession id next) := by
  refine h.trans fun other found hf hk => ?_
  rw [session?_setSession] at hf
  split at hf
  next ho =>
    cases hf
    exact ⟨session, ho ▸ hs, hn hk⟩
  next => exact ⟨found, hf, hk, rfl⟩

lemma keepsWills_teardown (b : Broker) (id : ClientId) (session : Session) :
    KeepsWills k b (b.teardown id session) := by
  intro other found hf hk
  rw [session?_teardown] at hf
  split at hf
  · cases hf
  · exact ⟨found, hf, hk, rfl⟩

lemma keepsWills_route (b : Broker) (id : ClientId) (publish : Publish) :
    KeepsWills k b (b.route id publish).2 := by
  cases hs : b.session? id with
  | none =>
    rw [route_of_none _ hs]
    exact .refl b
  | some session =>
    have ht : KeepsWills k b (b.tryDeliver session publish).2 :=
      keepsWills_of_same fun _ => session?_tryDeliver publish session
    obtain ⟨-, he⟩ | ⟨-, -, -, max, -, he⟩ := route_cases publish hs <;> rw [he]
    · exact ht
    · exact ht.setSession ((session?_tryDeliver publish session).trans hs) fun hk => ⟨hk, rfl⟩

lemma Service.keepsWills (h : Service j actor b b') : KeepsWills k b b' := by
  cases h with
  | chore h =>
    cases h with
    | books | send | close | advance => exact keepsWills_of_same fun _ => rfl
  | deliver => exact keepsWills_of_same fun _ => rfl
  | retain publish => exact keepsWills_of_same fun _ => session?_retain publish
  | route id publish granted => exact keepsWills_route b id _
  | subscribe client filter qos =>
    obtain ⟨calls, he | ⟨session, granted, hs, -, -, he⟩⟩ :=
      subscribe_cases filter b client j qos <;> rw [he]
    · exact keepsWills_of_same fun _ => rfl
    · have hn : KeepsWills k b (b.setSession client.id { session with
          subscriptions := session.subscriptions.insert filter granted }) :=
        (KeepsWills.refl b).setSession hs fun hk => ⟨hk, rfl⟩
      exact hn
  | unsubscribe id filter =>
    obtain he | ⟨session, calls, hs, -, he⟩ := unsubscribe_cases filter b id j <;> rw [he]
    · exact .refl b
    · have hn : KeepsWills k b (b.setSession id { session with
          subscriptions := session.subscriptions.erase filter }) :=
        (KeepsWills.refl b).setSession hs fun hk => ⟨hk, rfl⟩
      exact hn

/-- No service publishes a will. -/
lemma Service.fired_eq (h : Service j actor b b') :
    (b'.connection k).fired = (b.connection k).fired := by
  cases h with
  | chore h =>
    cases h with
    | books => rfl
    | send | close =>
      exact modifyConnection_rel (P := fun c d => d.fired = c.fired) (fun _ => rfl) rfl k
    | advance =>
      rw [setState_snd]
      refine modifyConnection_rel (P := fun c d => d.fired = c.fired) (fun _ => rfl) ?_ k
      unfold Connection.transition
      split <;> rfl
  | deliver =>
    exact modifyConnection_rel (P := fun c d => d.fired = c.fired) (fun _ => rfl)
      (Connection.fired_deliver _ _) k
  | route id publish granted =>
    exact route_rel _ (P := fun c d => d.fired = c.fired) (fun _ => rfl) k
      fun _ _ _ => Connection.fired_deliver _ _
  | retain | subscribe | unsubscribe => simp

end keeping

namespace Silent

lemma refl (b : Broker) : Silent k b b := ⟨rfl, rfl, .refl b⟩

lemma trans (h : Silent k b b') (h' : Silent k b' b'') : Silent k b b'' :=
  ⟨h'.fired.trans h.fired, h'.clientId.trans h.clientId, h.wills.trans h'.wills⟩

lemma services (h : Services j actor b b') : Silent k b b' := by
  induction h with
  | refl => exact .refl b
  | tail _ hs ih => exact ih.trans ⟨hs.fired_eq, (hs.steady k).clientId, hs.keepsWills⟩

/-- Nothing that an actor does to another connection, or to the session of that, matters. -/
lemma move (hj : j ≠ k) (h : Move j actor b b') : Silent k b b' := by
  cases h with
  | serve h => exact services (.single h)
  | forget | noteFired =>
    refine ⟨?_, ?_, keepsWills_of_same fun _ => rfl⟩ <;> rw [connection_modifyConnection_of_ne _ hj]
  | takeWill id =>
    refine ⟨by rw [connection_takeWill], by rw [connection_takeWill], ?_⟩
    unfold takeWill
    split
    · exact .refl b
    next session hs =>
      obtain ⟨hs, hb⟩ := boundSession?_eq_some.mp hs
      refine (KeepsWills.refl b).setSession hs fun hk => absurd ?_ hj
      exact Option.some.inj (hb.symm.trans hk)
  | unbind id =>
    refine ⟨by rw [connection_unbind], by rw [connection_unbind], ?_⟩
    obtain ⟨-, he⟩ | ⟨session, hs, -, he⟩ := unbind_cases b id j (b.connection j).clean <;> rw [he]
    · exact .refl b
    · split
      · exact keepsWills_teardown b id session
      · exact (KeepsWills.refl b).setSession hs nofun

lemma moves (hj : j ≠ k) (h : Moves j actor b b') : Silent k b b' := by
  induction h with
  | refl => exact .refl b
  | tail _ hm ih => exact ih.trans (move hj hm)

/-- The admission of a client on another connection at most evicts this one. -/
lemma joined {clean : Bool} {will : Option Will} {sent unsent : List Publish} (hj : j ≠ k)
    (h : Joined b b' j client clean will sent unsent) : Silent k b b' := by
  have hc : (b'.connection k).fired = (b.connection k).fired ∧
      (b'.connection k).clientId = (b.connection k).clientId := by
    obtain he | he := h.admitted.others_cases hj <;> rw [he] <;> exact ⟨rfl, rfl⟩
  obtain ⟨bound, hb, -, hk', -⟩ := h.admitted.session
  refine ⟨hc.1, hc.2, fun id next hn hk => ?_⟩
  by_cases hi : id = client.id
  · subst hi
    obtain rfl : next = bound := Option.some.inj (hn.symm.trans hb)
    exact absurd (Option.some.inj (hk'.symm.trans hk)) hj
  · exact ⟨next, (h.admitted.sessions id hi).symm.trans hn, hk, rfl⟩

lemma processConnect (hc : b.Consistent) (hj : j ≠ k) (connect : Connect) :
    Silent k b (b.processConnect .quiet j connect).2 := by
  obtain hr | ⟨client, isGiven, sent, unsent, b', hs, -, -, hjoin, hd⟩ :=
    b.admission_cases j connect (hc.regular j).held hc.clientId_of_idle
  · exact services (hr.services : Services j none b _)
  · exact (joined hj hjoin).trans (moves hj (hd.served.still.moves hjoin.speaksFor))

lemma handle (hc : b.Consistent) (hj : j ≠ k) (event : Event) :
    Silent k b (b.handle .quiet j event).2 := by
  obtain hm | ⟨connect, -, -, he⟩ := b.handle_moves j event
  · exact moves hj hm
  · rw [he]
    exact processConnect hc hj connect

lemma expire (b : Broker) (id : ClientId) : Silent k b (b.expire id).2 := by
  refine expire_induction (P := Silent k b) (refl b) id (fun j => ?_) fun b' session h _ _ => ?_
  · have hs : Services j none b (b.closeConnection j) := .single (.chore .close)
    exact services hs
  · refine h.trans ⟨?_, ?_, keepsWills_teardown b' id session⟩ <;> rw [connection_teardown]

lemma accept (b : Broker) : Silent k b b.accept.2 := by
  have hc : (b.accept.2.connection k).fired = (b.connection k).fired ∧
      (b.accept.2.connection k).clientId = (b.connection k).clientId := by
    rw [connection_accept]
    split
    next hk =>
      rw [connection_of_not_lt hk.not_lt]
      exact ⟨rfl, rfl⟩
    next => exact ⟨rfl, rfl⟩
  exact ⟨hc.1, hc.2, keepsWills_of_same fun _ => rfl⟩

lemma fault (b : Broker) (j : ConnectionId) (fault : Fault) :
    Silent k b (b.perform (.fault j fault)) := by
  have hc : ((b.perform (.fault j fault)).connection k).fired = (b.connection k).fired ∧
      ((b.perform (.fault j fault)).connection k).clientId = (b.connection k).clientId :=
    modifyConnection_rel (P := fun c d => d.fired = c.fired ∧ d.clientId = c.clientId)
      (fun _ => ⟨rfl, rfl⟩) ⟨rfl, rfl⟩ k
  exact ⟨hc.1, hc.2, keepsWills_of_same fun _ => rfl⟩

/-- Nothing that is done elsewhere publishes the will of a connection. -/
lemma perform {operation : Operation} (hc : b.Consistent) (hd : operation.IsDriven b)
    (hk : operation.drives b ≠ some k) : Silent k b (b.perform operation) := by
  cases operation with
  | accept => exact accept b
  | connect j connect => exact processConnect hc (fun hj => hk (congrArg some hj)) connect
  | event j event => exact handle hc (fun hj => hk (congrArg some hj)) event
  | expire id => exact expire b id
  | fault j fault => exact Silent.fault b j fault
  | _ => exact hd.elim

end Silent

section ending

/-- The will that is published if a connection is lost. -/
def stake (b : Broker) (k : ConnectionId) : Option Will :=
  (b.connection k).client.bind fun client => (b.boundSession? client.id k).bind (·.will)

lemma stake_eq_none (h : ∀ id session, b.boundSession? id k ≠ some session) :
    b.stake k = none := by
  unfold stake
  cases (b.connection k).client with
  | none => rfl
  | some client =>
    rw [Option.bind_some, Option.eq_none_iff_forall_ne_some.mpr (h client.id), Option.bind_none]

/-- It stays the same while clients are served. -/
lemma stake_services (h : Services j actor b b') : b'.stake k = b.stake k := by
  have hs : Silent k b b' := .services h
  unfold stake
  rw [h.client_eq k]
  refine congrArg _ (funext fun client => ?_)
  cases hn : b'.boundSession? client.id k with
  | some next =>
    obtain ⟨hn, hk⟩ := boundSession?_eq_some.mp hn
    obtain ⟨session, hb, hk, hw⟩ := hs.wills client.id next hn hk
    rw [boundSession?_eq_some.mpr ⟨hb, hk⟩, Option.bind_some, Option.bind_some, hw]
  | none =>
    have hb : b.boundSession? client.id k = none := by
      refine Option.eq_none_iff_forall_ne_some.mpr fun session hb => ?_
      obtain ⟨hb, hk⟩ := boundSession?_eq_some.mp hb
      obtain ⟨next, hn', ha⟩ := h.undisturbed.exists_after hb
      rw [boundSession?_eq_some.mpr ⟨hn', ha.connection.trans hk⟩] at hn
      cases hn
    rw [hb]

lemma takeWill_fst (b : Broker) (id : ClientId) (k : ConnectionId) :
    (b.takeWill id k).1 = (b.boundSession? id k).bind (·.will) := by
  unfold takeWill
  cases b.boundSession? id k <;> rfl

lemma fired_executeWill (hk : k < b.connections.size) (will : Option Will) :
    ((b.executeWill k will).connection k).fired = (b.connection k).fired ++ will.toList := by
  cases will with
  | none => exact (List.append_nil _).symm
  | some will =>
    have hs : Services k none b (b.fireWill will).2 := fireWill_services b will
    have hk' : k < (b.fireWill will).2.connections.size := hs.moves.size_eq ▸ hk
    rw [executeWill, connection_modifyConnection _ hk', if_pos rfl, Connection.noteFired,
      (Silent.services hs).fired]
    rfl

/-- A connection that was closed, once its client was forgotten and the client's will taken. -/
def bereft (b : Broker) (id : ClientId) (k : ConnectionId) : Broker :=
  (((b.closeConnection k).modifyConnection k fun c => { c with client := none }).takeWill id k).2

lemma bereft_moves (b : Broker) (id : ClientId) (k : ConnectionId) :
    Moves k (some id) b (b.bereft id k) :=
  .head (.serve (.chore .close)) (.head .forget (.single (.takeWill id)))

/-- No session is let go yet. -/
lemma undisturbed_bereft (b : Broker) (id : ClientId) (k : ConnectionId) :
    Undisturbed b (b.bereft id k) := by
  have hclose : Undisturbed b (b.closeConnection k) := (Chore.close : Chore k b _).undisturbed
  have hforget : Undisturbed (b.closeConnection k)
      ((b.closeConnection k).modifyConnection k fun c => { c with client := none }) :=
    undisturbed_of_same (fun _ => rfl) rfl
  exact (hclose.trans hforget).trans (undisturbed_takeWill _ id k)

/-- When a connection is lost, what its session has at stake is published before the session is let
go. -/
lemma connectionLost_eq (hc : (b.connection k).client = some client) : ∃ remove,
    b.connectionLost k =
      (((b.bereft client.id k).executeWill k (b.stake k)).unbind client.id k remove).2 := by
  have hclose : ((b.closeConnection k).connection k).client = some client :=
    ((Chore.close : Chore k b _).steady k).sameClient.trans hc
  have hw : (((b.closeConnection k).modifyConnection k fun c =>
      { c with client := none }).takeWill client.id k).1 = b.stake k := by
    rw [takeWill_fst, stake, hc]
    rfl
  unfold connectionLost
  simp only [hclose, hw]
  exact ⟨_, rfl⟩

lemma fired_connectionLost (hk : k < b.connections.size) :
    ((b.connectionLost k).connection k).fired = (b.connection k).fired ++ (b.stake k).toList := by
  have hclose : Services k none b (b.closeConnection k) := .single (.chore .close)
  cases hc : (b.connection k).client with
  | none =>
    rw [connectionLost_of_client hc, (Silent.services hclose).fired, stake, hc]
    exact (List.append_nil _).symm
  | some client =>
    obtain ⟨remove, he⟩ := connectionLost_eq hc
    rw [he, connection_unbind, fired_executeWill ((b.bereft_moves client.id k).size_eq ▸ hk),
      bereft, connection_takeWill, connection_modifyConnection _ (hclose.moves.size_eq ▸ hk),
      if_pos rfl, (Silent.services hclose).fired]

lemma Spent.boundSession?_eq_none (h : b.Spent k) (id : ClientId) :
    b.boundSession? id k = none := by
  refine Option.eq_none_iff_forall_ne_some.mpr fun session hb => ?_
  obtain ⟨hs, hk⟩ := boundSession?_eq_some.mp hb
  exact h.unbound id session hs hk

lemma Spent.keepsWills (h : b'.Spent k) : KeepsWills k b b' :=
  fun id next hn hk => absurd hk (h.unbound id next hn)

namespace Owned
variable (ho : b.Owned none) (hc : b.Consistent)
include ho hc

/-- A session is bound to a connection that its client was admitted on. -/
lemma stake_eq (hb : b.boundSession? id k = some session) :
    (b.connection k).client = some session.client ∧ (b.connection k).clientId = some id ∧
      b.stake k = session.will := by
  obtain ⟨hs, hk⟩ := boundSession?_eq_some.mp hb
  have hcl := (ho.admitted id session k hs hk).2.resolve_left nofun
  have hi := hc.bound id session k hs hk
  have he : session.client.id = id :=
    Option.some.inj (((hc.regular k).admitted _ hcl).symm.trans hi)
  refine ⟨hcl, hi, ?_⟩
  rw [stake, hcl, Option.bind_some, he, hb, Option.bind_some]

/-- While nobody is admitted on a connection it has no session. -/
lemma boundSession?_eq_none (hn : (b.connection k).client = none) (id : ClientId) :
    b.boundSession? id k = none := by
  refine Option.eq_none_iff_forall_ne_some.mpr fun session hb => ?_
  rw [(ho.stake_eq hc hb).1] at hn
  cases hn

/-- A leave publishes nothing. -/
lemma silent_onDisconnect (hi : (b.connection k).clientId = some client.id) :
    Silent k b (b.onDisconnect client k) := by
  refine ⟨?_, ((onDisconnect_moves b client k).kept k).clientId,
    (ho.onDisconnect hc hi).2.keepsWills⟩
  have hs : Services k none (b.takeWill client.id k).2
      ((b.takeWill client.id k).2.closeConnection k) := .single (.chore .close)
  change (((((b.takeWill client.id k).2.closeConnection k).unbind client.id k
    (((b.takeWill client.id k).2.closeConnection k).connection k).clean).2).connection k).fired = _
  rw [connection_unbind, (Silent.services hs).fired, connection_takeWill]

end Owned
end ending

end Broker
end MqttBroker
