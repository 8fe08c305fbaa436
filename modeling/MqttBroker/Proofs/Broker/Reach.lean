import MqttBroker.Proofs.Broker.Lasting

/-!
How far the operations on the session of one client reach.  Beside that session, its place in the
directory and what is stored of it, they touch at most the connection that has the session and the
one that it is bound to.
-/
namespace MqttBroker

namespace Operation

/-- The operation is asked for the session of the client. -/
def IsFor (id : ClientId) : Operation → Prop
  | bind other _ _ _ | unbind other _ _ | expire other | unsubscribe other _ _ | setWill other _ _
  | clearWill other | takeWill other _ | requeue other _ _ => other = id
  | subscribe client _ _ _ => client.id = id
  | _ => False

/-- The connection that a session is to be bound to. -/
def target? : Operation → Option ConnectionId
  | bind _ _ k _ => some k
  | _ => none

/-- What becomes of connection `j`, if the session in question is bound to the owner. -/
def effect (operation : Operation) (owner : Option ConnectionId) (j : ConnectionId)
    (c : Connection) : Connection :=
  match operation with
  | bind id _ k _ => if k = j then c.setClientId id else if owner = some j then c.evict else c
  | expire _ => if owner = some j then c.close else c
  | _ => c

/-- Any other connection is left alone. -/
lemma effect_eq_self {operation : Operation} {owner : Option ConnectionId} {j : ConnectionId}
    (ht : operation.target? ≠ some j) (ho : owner ≠ some j) (c : Connection) :
    operation.effect owner j c = c := by
  cases operation with
  | bind id clean k client =>
    have hk : k ≠ j := fun he => ht (congrArg some he)
    rw [effect, if_neg hk, if_neg ho]
  | expire id => exact if_neg ho
  | _ => rfl

end Operation

namespace Broker

/-- The connection that has the session of a client. -/
def owner? (b : Broker) (id : ClientId) : Option ConnectionId :=
  (b.session? id).bind (·.connection)

variable {b b' : Broker} {id : ClientId} {k : ConnectionId} {session : Session}

lemma owner?_eq_some : b.owner? id = some k ↔
    ∃ session, b.session? id = some session ∧ session.connection = some k :=
  Option.bind_eq_some_iff

/-- The session that a client finds is bound to whatever connection has it. -/
lemma Found.owner?_eq {clean : Bool} {client : ClientInfo} (h : b.Found id clean client session) :
    b.owner? id = session.connection := by
  obtain hs | ⟨hs, -, hc, -⟩ := h.own_or_new
  · rw [owner?, hs, Option.bind_some]
  · rw [owner?, hs, hc, Option.bind_none]

/-- Nothing changed but the session of one client, its place in the directory, what is stored of it,
and connections in a certain way. -/
structure Spares (id : ClientId) (effect : ConnectionId → Connection → Connection)
    (b b' : Broker) : Prop where
  sessions : ∀ other, id ≠ other → b'.session? other = b.session? other
  records : ∀ other, id ≠ other → b'.stored.records[other]? = b.stored.records[other]?
  retained : b'.retained = b.retained
  size : b'.connections.size = b.connections.size
  connections : ∀ j, j < b.connections.size → b'.connection j = effect j (b.connection j)

namespace Spares

lemma of_connections (hs : ∀ other, id ≠ other → b'.session? other = b.session? other)
    (hr : ∀ other, id ≠ other → b'.stored.records[other]? = b.stored.records[other]?)
    (ht : b'.retained = b.retained) (hc : b'.connections = b.connections) :
    Spares id (fun _ c => c) b b' :=
  ⟨hs, hr, ht, congrArg Array.size hc, fun j _ => by rw [connection, hc, connection]⟩

lemma withBooks (id : ClientId) (b : Broker) (calls : CallCounts) (identified : Nat) :
    Spares id (fun _ c => c) b (b.withBooks calls b.stored identified) :=
  .of_connections (fun _ _ => rfl) (fun _ _ => rfl) rfl rfl

lemma setSession (b : Broker) (id : ClientId) (next : Session) :
    Spares id (fun _ c => c) b (b.setSession id next) :=
  .of_connections (fun other ho => by rw [session?_setSession, if_neg ho]) (fun _ _ => rfl) rfl rfl

/-- At most one session is changed in memory. -/
lemma of_change {next : Session → Session} (h : b' = b ∨ ∃ session, b.session? id = some session ∧
    b' = b.setSession id (next session)) : Spares id (fun _ c => c) b b' := by
  obtain rfl | ⟨session, -, rfl⟩ := h
  · exact withBooks id b' b'.calls b'.identified
  · exact setSession b id (next session)

/-- A session is changed and saved, and the directory with it. -/
lemma saved (hr : b.stored.Reliable) (id : ClientId) (clean : Bool) (next : Session)
    (directory : Subscription.Directory) (calls : CallCounts) (identified : Nat) :
    Spares id (fun _ c => c) b (({ b with directory }.setSession id next).withBooks calls
      (b.saved id clean next) identified) := by
  refine .of_connections (fun other ho => ?_) (fun other ho => ?_) rfl rfl
  · rw [session?_withBooks, session?_setSession, if_neg ho]
    rfl
  · exact (getElem?_saved hr id other clean next).trans (if_neg fun hn => ho hn.2)

lemma subscribe (hr : b.stored.Reliable) (client : ClientInfo) (k : ConnectionId)
    (filter : String) (qos : QoS) :
    Spares client.id (fun _ c => c) b (b.subscribe .quiet client k filter qos).2 := by
  obtain ⟨calls, he | ⟨session, granted, -, -, -, he⟩⟩ := subscribe_cases filter b client k qos <;>
    rw [he]
  · exact withBooks client.id b calls b.identified
  · exact saved hr client.id session.clean _ _ calls b.identified

lemma unsubscribe (hr : b.stored.Reliable) (id : ClientId) (k : ConnectionId) (filter : String) :
    Spares id (fun _ c => c) b (b.unsubscribe .quiet id k filter).2 := by
  obtain he | ⟨session, calls, -, -, he⟩ := unsubscribe_cases filter b id k <;> rw [he]
  · exact withBooks id b b.calls b.identified
  · exact saved hr id session.clean _ _ calls b.identified

lemma teardown (hr : b.stored.Reliable) (id : ClientId) (session : Session) :
    Spares id (fun _ c => c) b (b.teardown id session) := by
  refine .of_connections (fun other ho => ?_) (fun other ho => ?_) ?_ (connections_teardown session)
  · rw [session?_teardown, if_neg ho]
  · rw [teardown_eq]
    exact (getElem?_cleared hr id other _).trans (if_neg fun hn => ho hn.2)
  · obtain ⟨directory, hd⟩ := b.detach_eq id session
    rw [teardown_eq, hd]
    rfl

lemma unbind (hr : b.stored.Reliable) (id : ClientId) (k : ConnectionId) (remove : Bool) :
    Spares id (fun _ c => c) b (b.unbind id k remove).2 := by
  obtain ⟨-, he⟩ | ⟨session, -, -, he⟩ := unbind_cases b id k remove <;> rw [he]
  · exact withBooks id b b.calls b.identified
  · split
    · exact teardown hr id session
    · exact setSession b id _

/-- The connection that has the session is closed. -/
lemma expire (hr : b.stored.Reliable) (id : ClientId) :
    Spares id ((Operation.expire id).effect (b.owner? id)) b (b.expire id).2 := by
  obtain ⟨he, hs⟩ | ⟨session, hs, ⟨hk, he⟩ | ⟨k, hk, he⟩⟩ := expire_cases b id <;> rw [he]
  · have hn : b.owner? id = none := by rw [owner?, hs, Option.bind_none]
    rw [hn]
    exact withBooks id b b.calls b.identified
  · have hn : b.owner? id = none := by rw [owner?, hs, Option.bind_some, hk]
    rw [hn]
    exact teardown hr id session
  · have ho : b.owner? id = some k := owner?_eq_some.mpr ⟨session, hs, hk⟩
    have hclosed : (b.closeConnection k).stored.Reliable := hr
    have ht : Spares id (fun _ c => c) (b.closeConnection k)
        ((b.closeConnection k).teardown id session) := teardown hclosed id session
    refine ⟨ht.sessions, ht.records, ht.retained,
      ht.size.trans (size_modifyConnection _), fun j hj => ?_⟩
    rw [connection_teardown, closeConnection, ho]
    by_cases hkj : k = j
    · subst hkj
      rw [connection_modifyConnection _ hj, if_pos rfl, Operation.effect, if_pos rfl]
    · rw [connection_modifyConnection_of_ne _ hkj]
      exact (if_neg fun he => hkj (Option.some.inj he)).symm

/-- The connection that has the session is evicted, and the new one gets its identifier. -/
lemma bind (hr : b.stored.Reliable) (id : ClientId) (clean : Bool) (k : ConnectionId)
    (client : ClientInfo) : Spares id ((Operation.bind id clean k client).effect (b.owner? id)) b
      (b.bind .quiet id clean k client).2 := by
  obtain ⟨calls, stored, hc, ⟨error, ho, -⟩ | ⟨session, lost, hf, -, he⟩⟩ :=
    b.bind_cases id clean k client
  · cases (hr _ _).symm.trans ho
  rw [he]
  refine ⟨fun other ho => ?_, fun other ho => ?_, ?_, size_rebind lost, fun j hj => ?_⟩
  · rw [session?_withBooks, session?_rebind, if_neg ho]
  · rw [← hc.records]
    exact (getElem?_filed (hr.congr hc.failure) id other _ _ _).trans (if_neg fun hn => ho hn.1)
  · rw [retained_withBooks, retained_rebind]
  · rw [connection_withBooks, hf.owner?_eq, Operation.effect]
    by_cases hkj : k = j
    · subst hkj
      rw [if_pos rfl, connection_rebind_self lost hj]
    · rw [if_neg hkj, connection_rebind_of_ne lost hkj]
      simp only [hj, and_true]

end Spares

/-- One operation on the session of a client. -/
theorem spares_perform (hr : b.stored.Reliable) {operation : Operation} (hi : operation.IsFor id) :
    Spares id (operation.effect (b.owner? id)) b (b.perform operation) := by
  cases operation with
  | bind other clean k client =>
    obtain rfl : other = id := hi
    exact .bind hr other clean k client
  | unbind other k remove =>
    obtain rfl : other = id := hi
    exact .unbind hr other k remove
  | expire other =>
    obtain rfl : other = id := hi
    exact .expire hr other
  | subscribe client k filter qos =>
    obtain rfl : client.id = id := hi
    exact .subscribe hr client k filter qos
  | unsubscribe other k filter =>
    obtain rfl : other = id := hi
    exact .unsubscribe hr other k filter
  | setWill other k will =>
    obtain rfl : other = id := hi
    exact Spares.of_change (setWill_cases b other k will)
  | clearWill other =>
    obtain rfl : other = id := hi
    exact Spares.of_change (clearWill_cases b other)
  | takeWill other k =>
    obtain rfl : other = id := hi
    exact Spares.of_change (takeWill_cases b other k)
  | requeue other k unsent =>
    obtain rfl : other = id := hi
    exact Spares.of_change (requeue_cases b other k unsent)
  | _ => exact False.elim hi

end Broker
end MqttBroker
