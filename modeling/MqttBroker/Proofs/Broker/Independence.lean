import MqttBroker.Proofs.Broker.FanOut
import MqttBroker.Proofs.Broker.Failures
import MqttBroker.Proofs.Broker.Reach
import MqttBroker.Proofs.Subscription.Canonicity

/-!
Operations on the sessions of different clients.  What is asked for one client depends on its own
session, on what is stored of it, and on rules that nothing changes, and reaches no other client.
So two such operations come to the same in either order.
-/
namespace MqttBroker.Broker
open Subscription

/-- The brokers do not differ in what the operations on the session of a client depend on, and
their storage works. -/
structure SameFor (id : ClientId) (b c : Broker) : Prop where
  session : c.session? id = b.session? id
  record : c.stored.records[id]? = b.stored.records[id]?
  config : c.config = b.config
  authorizer : c.authorizer = b.authorizer
  retained : c.retained = b.retained
  reliable : b.stored.Reliable ∧ c.stored.Reliable

variable {b b' c : Broker} {id other : ClientId} {k : ConnectionId}

namespace SameFor

lemma symm (h : SameFor id b c) : SameFor id c b :=
  ⟨h.session.symm, h.record.symm, h.config.symm, h.authorizer.symm, h.retained.symm,
    h.reliable.symm⟩

lemma trans (h : SameFor id b b') (h' : SameFor id b' c) : SameFor id b c :=
  ⟨h'.session.trans h.session, h'.record.trans h.record, h'.config.trans h.config,
    h'.authorizer.trans h.authorizer, h'.retained.trans h.retained, h.reliable.1, h'.reliable.2⟩

lemma owner? (h : SameFor id b c) : c.owner? id = b.owner? id := by
  rw [Broker.owner?, h.session, Broker.owner?]

/-- The records of other clients do not matter. -/
lemma setStored (h : SameFor id b c) {stored stored' : Repository StoredSession}
    (hr : stored'.records[id]? = stored.records[id]?) (hs : stored.failure = b.stored.failure)
    (hs' : stored'.failure = c.stored.failure) :
    SameFor id { b with stored } { c with stored := stored' } :=
  ⟨h.session, hr, h.config, h.authorizer, h.retained, h.reliable.1.congr hs,
    h.reliable.2.congr hs'⟩

/-- What is done for the client on both sides leaves them the same for it. -/
theorem parallel (id : ClientId) : Parallel id (SameFor id) where
  session h := h.session
  config h := h.config
  authorizer h := h.authorizer
  messages h := congrArg RetainedStore.messages h.retained
  callOut h _ := ⟨h.session, h.record, h.config, h.authorizer, h.retained, h.reliable⟩
  connection h _ _ := ⟨h.session, h.record, h.config, h.authorizer, h.retained, h.reliable⟩
  note h _ := ⟨h.session, h.record, h.config, h.authorizer, h.retained, h.reliable⟩
  setSession h _ := by
    refine ⟨?_, h.record, h.config, h.authorizer, h.retained, h.reliable⟩
    rw [session?_setSession, session?_setSession, if_pos rfl, if_pos rfl]
  dropSession h := by
    refine ⟨?_, h.record, h.config, h.authorizer, h.retained, h.reliable⟩
    rw [session?_dropSession, session?_dropSession, if_pos rfl, if_pos rfl]
  directory h _ := ⟨h.session, h.record, h.config, h.authorizer, h.retained, h.reliable⟩
  save h _ := by
    refine h.setStored ?_ (Repository.failure_request _ _ _) (Repository.failure_request _ _ _)
    rw [h.reliable.1.getElem?_save, h.reliable.2.getElem?_save, if_pos rfl, if_pos rfl]
  delete h := by
    refine h.setStored ?_ (Repository.failure_request _ _ _) (Repository.failure_request _ _ _)
    rw [h.reliable.1.getElem?_delete, h.reliable.2.getElem?_delete, if_pos rfl, if_pos rfl]

/-- The same session is found, in memory or in storage. -/
lemma findOrCreate (h : SameFor id b c) (clean : Bool) (client : ClientInfo) :
    Paired (SameFor id) (b.findOrCreate id clean client) (c.findOrCreate id clean client) := by
  have hload : ∀ b : Broker, b.stored.Reliable →
      b.stored.load id = (.ok b.stored.records[id]?, (b.stored.load id).2) := fun b hr => by
    have ho : b.stored.obstacle (.load id) = none := hr _ _
    refine Prod.ext ?_ rfl
    rw [Repository.load_fst, ho]
  have hloaded : SameFor id { b with stored := (b.stored.load id).2 }
      { c with stored := (c.stored.load id).2 } := by
    refine h.setStored ?_ (Repository.failure_request _ _ _) (Repository.failure_request _ _ _)
    rw [Repository.records_load, Repository.records_load, h.record]
  unfold Broker.findOrCreate
  rw [h.session]
  cases b.session? id with
  | some session => exact .mk _ h
  | none =>
    cases clean with
    | true => exact .mk _ h
    | false =>
      dsimp only
      rw [if_neg nofun, if_neg nofun, hload b h.reliable.1, hload c h.reliable.2, h.record]
      cases b.stored.records[id]? with
      | none => exact .mk _ hloaded
      | some record => exact .mk _ hloaded

/-- An operation for the client has the same result, and leaves the same for it. -/
theorem execute (h : SameFor id b c) {operation : Operation} (hi : operation.IsFor id) :
    Paired (SameFor id) (b.execute operation) (c.execute operation) := by
  have p := parallel id
  cases operation with
  | bind other clean k client =>
    obtain rfl : other = id := hi
    exact p.bind (h.findOrCreate clean client) k
  | unbind other k remove =>
    obtain rfl : other = id := hi
    exact p.unbind h k remove
  | expire other =>
    obtain rfl : other = id := hi
    exact p.expire h
  | subscribe client k filter qos =>
    obtain rfl : client.id = id := hi
    exact p.subscribe h k filter qos
  | unsubscribe other k filter =>
    obtain rfl : other = id := hi
    exact p.unsubscribe h k filter
  | setWill other k will =>
    obtain rfl : other = id := hi
    exact p.setWill h k will
  | clearWill other =>
    obtain rfl : other = id := hi
    exact .mk _ (p.clearWill h)
  | takeWill other k =>
    obtain rfl : other = id := hi
    exact p.takeWill h k
  | requeue other k unsent =>
    obtain rfl : other = id := hi
    exact p.requeue h k unsent
  | _ => exact False.elim hi

lemma perform (h : SameFor id b c) {operation : Operation} (hi : operation.IsFor id) :
    SameFor id (b.perform operation) (c.perform operation) := by
  rw [← execute_snd, ← execute_snd]
  exact (h.execute hi).snd

/-- An operation for another client makes no difference. -/
lemma performOther (h : b.Faithful) {operation : Operation} (hi : operation.IsFor other)
    (ho : other ≠ id) : SameFor id b (b.perform operation) where
  session := (spares_perform h.reliable hi).sessions id ho
  record := (spares_perform h.reliable hi).records id ho
  config := ((upheld_rules b).perform ⟨rfl, rfl⟩ operation).1
  authorizer := ((upheld_rules b).perform ⟨rfl, rfl⟩ operation).2
  retained := (spares_perform h.reliable hi).retained
  reliable := ⟨h.reliable, (Faithful.upheld.perform h operation).reliable⟩

end SameFor

section order

/-- The connection that a session is to be bound to is used for no other client: nobody else has it,
and the other operation does not ask for it. -/
def Reserved (b : Broker) (id : ClientId) (operation rival : Operation) : Prop :=
  ∀ k, operation.target? = some k →
    rival.target? ≠ some k ∧ ∀ someone, b.owner? someone = some k → someone = id

/-- Nothing changed for the client: neither its session, its place in the directory and what is
stored of it, nor the connection that has the session. -/
structure Untouched (id : ClientId) (b b' : Broker) : Prop where
  session : b'.session? id = b.session? id
  subscriptions : ∀ filter, b'.directory.find? filter id = b.directory.find? filter id
  record : b'.stored.records[id]? = b.stored.records[id]?
  connection : ∀ k, b.owner? id = some k → b'.connection k = b.connection k

variable {x y : ClientId} {first second : Operation}

lemma Unshared.owner_unique (hu : b.Unshared) (hx : b.owner? x = some k)
    (hy : b.owner? y = some k) : x = y := by
  obtain ⟨session, hs, hk⟩ := owner?_eq_some.mp hx
  obtain ⟨session', hs', hk'⟩ := owner?_eq_some.mp hy
  exact hu x y session session' k hs hs' hk hk'

/-- At most one of two operations for different clients does something to a connection. -/
lemma effect_eq_self_or (hu : b.Unshared) (hxy : x ≠ y) (hfirst : b.Reserved x first second)
    (hsecond : b.Reserved y second first) (j : ConnectionId) :
    (∀ c, first.effect (b.owner? x) j c = c) ∨ ∀ c, second.effect (b.owner? y) j c = c := by
  by_cases ht : first.target? = some j
  · obtain ⟨hother, howner⟩ := hfirst j ht
    exact .inr fun c => Operation.effect_eq_self hother (fun ho => hxy (howner y ho).symm) c
  by_cases ho : b.owner? x = some j
  · refine .inr fun c => Operation.effect_eq_self (fun ht => ?_) (fun hy => ?_) c
    · exact hxy ((hsecond j ht).2 x ho)
    · exact hxy (hu.owner_unique ho hy)
  · exact .inl fun c => Operation.effect_eq_self ht ho c

variable (h : b.Faithful) (hx : first.IsFor x) (hy : second.IsFor y) (hxy : x ≠ y)
include h hx hy hxy

/-- No client can tell in which order the operations took place. -/
lemma sameFor_either_order (id : ClientId) :
    SameFor id ((b.perform first).perform second) ((b.perform second).perform first) := by
  have h₁ := Faithful.upheld.perform h first
  have h₂ := Faithful.upheld.perform h second
  by_cases hix : x = id
  · subst hix
    have hfirst : SameFor x (b.perform first) ((b.perform second).perform first) :=
      (SameFor.performOther h hy hxy.symm).perform hx
    exact (SameFor.performOther h₁ hy hxy.symm).symm.trans hfirst
  by_cases hiy : y = id
  · subst hiy
    have hsecond : SameFor y (b.perform second) ((b.perform first).perform second) :=
      (SameFor.performOther h hx hxy).perform hy
    exact hsecond.symm.trans (SameFor.performOther h₂ hx hxy)
  · have hforth : SameFor id b ((b.perform first).perform second) :=
      (SameFor.performOther h hx hix).trans (SameFor.performOther h₁ hy hiy)
    have hback : SameFor id b ((b.perform second).perform first) :=
      (SameFor.performOther h hy hiy).trans (SameFor.performOther h₂ hx hix)
    exact hforth.symm.trans hback

/-- No connection shows in which order the operations took place. -/
lemma connections_either_order (hu : b.Unshared) (hfirst : b.Reserved x first second)
    (hsecond : b.Reserved y second first) :
    ((b.perform second).perform first).connections =
      ((b.perform first).perform second).connections := by
  have hr := h.reliable
  have hr₁ := (Faithful.upheld.perform h first).reliable
  have hr₂ := (Faithful.upheld.perform h second).reliable
  have hs₁ := spares_perform hr hx
  have hs₂ := spares_perform hr hy
  have hs₁₂ := spares_perform hr₁ hy
  have hs₂₁ := spares_perform hr₂ hx
  rw [(SameFor.performOther h hx hxy).owner?] at hs₁₂
  rw [(SameFor.performOther h hy hxy.symm).owner?] at hs₂₁
  refine Array.ext ?_ fun j hj hj' => ?_
  · rw [hs₂₁.size, hs₂.size, hs₁₂.size, hs₁.size]
  have hj₂ : j < (b.perform second).connections.size := hs₂₁.size ▸ hj
  have hj₁ : j < (b.perform first).connections.size := hs₁₂.size ▸ hj'
  have hj₀ : j < b.connections.size := hs₁.size ▸ hj₁
  have hback : ((b.perform second).perform first).connection j = first.effect (b.owner? x) j
      (second.effect (b.owner? y) j (b.connection j)) := by
    rw [hs₂₁.connections j hj₂, hs₂.connections j hj₀]
  have hforth : ((b.perform first).perform second).connection j = second.effect (b.owner? y) j
      (first.effect (b.owner? x) j (b.connection j)) := by
    rw [hs₁₂.connections j hj₁, hs₁.connections j hj₀]
  have hsame : ((b.perform second).perform first).connection j =
      ((b.perform first).perform second).connection j := by
    rw [hback, hforth]
    obtain he | he := effect_eq_self_or hu hxy hfirst hsecond j
    · rw [he, he]
    · rw [he, he]
  simpa [connection, hj, hj'] using hsame

end order

/-- Directories that mirror the same sessions are the same. -/
lemma Mirrored.directory_eq (h : b.Mirrored) (h' : b'.Mirrored)
    (hs : ∀ id, b'.session? id = b.session? id) : b'.directory = b.directory := by
  refine Directory.eq_of_find?_eq h'.wellFormed h.wellFormed ?_
  funext filter id
  rw [h'.routed, h.routed, held?, held?, hs]

/-- An operation for one client leaves everybody else alone. -/
lemma Faithful.untouched (h : b.Faithful) (hm : b.Mirrored) (hu : b.Unshared) {x y : ClientId}
    (hxy : x ≠ y) {operation rival : Operation} (hx : operation.IsFor x)
    (hfree : b.Reserved x operation rival) : Untouched y b (b.perform operation) where
  session := (spares_perform h.reliable hx).sessions y hxy
  subscriptions filter := by
    rw [(Mirrored.upheld.perform hm operation).routed, hm.routed, held?, held?,
      (spares_perform h.reliable hx).sessions y hxy]
  record := (spares_perform h.reliable hx).records y hxy
  connection k hk := by
    have hs := spares_perform h.reliable hx
    by_cases hj : k < b.connections.size
    · rw [hs.connections k hj]
      refine Operation.effect_eq_self (fun ht => ?_) (fun ho => ?_) _
      · exact hxy ((hfree k ht).2 y hk).symm
      · exact hxy (hu.owner_unique ho hk)
    · rw [connection_of_not_lt hj, connection_of_not_lt (hs.size ▸ hj)]

/-- Operations on the sessions of different clients commute, as long as no connection has two
sessions and storage works.  Either has the same result whether the other one went before it or
not, and both orders lead to the same sessions, the same directory down to the nodes of its tree,
the same connections with all that was written to their transports, and the same records in
storage.  Neither touches the session of the other client, its place in the directory, its record
or its connection. -/
theorem operations_of_different_clients_commute (h : b.Opened) (hr : b.stored.Reliable)
    (operations : List Operation) (hu : (b.after operations).Unshared) {x y : ClientId}
    (hxy : x ≠ y) {first second : Operation} (hx : first.IsFor x) (hy : second.IsFor y)
    (hfirst : (b.after operations).Reserved x first second)
    (hsecond : (b.after operations).Reserved y second first) :
    let start := b.after operations
    let forth := (start.perform first).perform second
    let back := (start.perform second).perform first
    ((start.perform second).execute first).1 = (start.execute first).1 ∧
    ((start.perform first).execute second).1 = (start.execute second).1 ∧
    SameInMemory forth back ∧ back.stored.records = forth.stored.records ∧
    Untouched y start (start.perform first) ∧ Untouched x start (start.perform second) := by
  intro start forth back
  have hstart : start.Faithful := Faithful.upheld.after (.of_opened h hr) operations
  have hm : start.Mirrored := (Mirrored.of_opened h).after operations
  have hforth : forth.Mirrored := hm.after [first, second]
  have hback : back.Mirrored := hm.after [second, first]
  have hsame : ∀ id, SameFor id forth back := sameFor_either_order hstart hx hy hxy
  have hx' : SameFor x start (start.perform second) := .performOther hstart hy hxy.symm
  have hy' : SameFor y start (start.perform first) := .performOther hstart hx hxy
  refine ⟨?_, ?_, ⟨?_, ?_, ?_, ?_⟩, ?_, ?_, ?_⟩
  · exact (hx'.execute hx).fst
  · exact (hy'.execute hy).fst
  · exact Std.ExtTreeMap.ext_getElem? fun {id} => (hsame id).session
  · exact hforth.directory_eq hback fun id => (hsame id).session
  · exact congrArg RetainedStore.messages (hsame x).retained
  · exact connections_either_order hstart hx hy hxy hu hfirst hsecond
  · exact Std.ExtTreeMap.ext_getElem? fun {id} => (hsame id).record
  · exact hstart.untouched hm hu hxy hx hfirst
  · exact hstart.untouched hm hu hxy.symm hy hsecond

/-- One client is bound anew, and loses a filter that the other one gives up as well.  The node that
both had a place at is gone whoever comes first, and the one above it stays. -/
theorem operations_of_different_clients_commute_shared_node :
    let operations : List Operation := [.accept, .accept, .accept,
      .connect 0 ⟨"MQTT", 4, false, "a", none, none, none⟩,
      .event 0 (.packet (.subscribe 1 [("x/y/z", .atLeastOnce)])),
      .connect 1 ⟨"MQTT", 4, false, "d", none, none, none⟩,
      .event 1 (.packet (.subscribe 1 [("x/y", .atLeastOnce), ("x/y/z", .exactlyOnce)]))]
    let start := (lenient {} .empty).after operations
    let first : Operation := .bind "a" true 2 (.anonymous "a")
    let second : Operation := .unsubscribe "d" 1 "x/y/z"
    let forth := (start.perform first).perform second
    let back := (start.perform second).perform first
    start.Unshared ∧ start.Reserved "a" first second ∧ start.Reserved "d" second first ∧
      ((start.perform second).execute first).1 = (start.execute first).1 ∧
      ((start.perform first).execute second).1 = (start.execute second).1 ∧
      SameInMemory forth back ∧ back.stored.records = forth.stored.records ∧
      Untouched "d" start (start.perform first) ∧ start.directory.size = 3 ∧
      forth.directory.nodes.length = 2 ∧ (back.connection 0).state = .closed ∧
      (back.stored.records["a"]?).isNone := by
  intro operations start first second forth back
  have hp : (lenient {} .empty).Opened := opened_lenient {} .empty
  have ha : (lenient {} .empty).Allows (fun b operation => operation.IsDriven b) operations := by
    refine ⟨trivial, trivial, trivial, trivial, ?_, trivial, ?_, trivial⟩ <;> nofun
  have hc : start.Consistent := (hp.owned ha).1
  have hfirst : start.Reserved "a" first second := by
    rintro k hk
    obtain rfl : 2 = k := Option.some.inj hk
    refine ⟨nofun, fun someone ho => ?_⟩
    obtain ⟨session, hs, hk⟩ := owner?_eq_some.mp ho
    have hbound := hc.bound someone session 2 hs hk
    have hfree : (start.connection 2).clientId = none := by decide +kernel
    rw [hfree] at hbound
    cases hbound
  have hsecond : start.Reserved "d" second first := nofun
  have hx : first.IsFor "a" := rfl
  have hy : second.IsFor "d" := rfl
  obtain ⟨hresult, hresult', hmemory, hrecords, huntouched, -⟩ :=
    operations_of_different_clients_commute hp (fun _ _ => rfl) operations hc.unshared
      (by decide : "a" ≠ "d") hx hy hfirst hsecond
  refine ⟨hc.unshared, hfirst, hsecond, hresult, hresult', hmemory, hrecords, huntouched, ?_, ?_,
    ?_, ?_⟩
  · decide +kernel
  · decide +kernel
  · decide +kernel
  · decide +kernel

end MqttBroker.Broker
