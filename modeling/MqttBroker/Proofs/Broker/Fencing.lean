import MqttBroker.Proofs.Broker.SingleOwner

/-!
A connection that does not have a session has no say in it, and once it has lost its session or
its actor was stopped it changes nothing any more.
-/
namespace MqttBroker.Broker

variable {b b' : Broker} {j k : ConnectionId} {id : ClientId}

section calls

/-- Nobody can subscribe a client over a connection that lost its session while the authorizer was
asked, whatever happened meanwhile. -/
lemma subscribe_fenced (meanwhile : Interlude) {client : ClientInfo}
    (h : (b.callOut meanwhile .read).boundSession? client.id k = none) (filter : String)
    (qos : QoS) : ∃ error, b.subscribe meanwhile client k filter qos = (.error error, b) ∨
      b.subscribe meanwhile client k filter qos = (.error error, b.callOut meanwhile .read) := by
  unfold subscribe askRead
  cases b.checkFilter filter with
  | error cause => exact ⟨_, .inl rfl⟩
  | ok =>
    dsimp only
    cases hr : (b.callOut meanwhile .read).authorizer.canRead client filter with
    | false => exact ⟨_, .inr rfl⟩
    | true =>
      refine ⟨.noSession client.id, .inr ?_⟩
      simp only [enterSubscription, h]

/-- No call of the registry does anything for a connection that the session is not bound to. -/
lemma registry_fenced (h : b.boundSession? id k = none) :
    (∀ meanwhile filter, b.unsubscribe meanwhile id k filter = (false, b)) ∧
      (∀ will, b.setWill id k will = (false, b)) ∧ b.takeWill id k = (none, b) ∧
      (∀ unsent, b.requeue id k unsent = (0, b)) ∧ ∀ remove, b.unbind id k remove = (false, b) := by
  refine ⟨fun meanwhile filter => ?_, fun will => ?_, ?_, fun unsent => ?_, fun remove => ?_⟩
  · simp only [unsubscribe, h]
  · simp only [setWill, h]
  · simp only [takeWill, h]
  · simp only [requeue, h]
  · simp only [unbind, h]

end calls

section abiding

/-- A connection was accepted, and is past its admission. -/
structure Past (b : Broker) (k : ConnectionId) : Prop where
  accepted : k < b.connections.size
  begun : (b.connection k).Begun

/-- Connections past their admission are not admitted again. -/
structure Abides (b b' : Broker) : Prop where
  size : b.connections.size ≤ b'.connections.size
  kept : ∀ k, b.Past k → (b.connection k).Kept (b'.connection k)
  unbound : ∀ k, b.Past k → ∀ id session, b'.session? id = some session →
    session.connection = some k → ∃ old, b.session? id = some old ∧ old.connection = some k

namespace Abides

lemma past (h : Abides b b') (hk : b.Past k) : b'.Past k :=
  ⟨hk.accepted.trans_le h.size, (h.kept k hk).begun hk.begun⟩

lemma refl (b : Broker) : Abides b b :=
  ⟨Nat.le_refl _, fun _ _ => .refl _, fun _ _ _ session hs hk => ⟨session, hs, hk⟩⟩

lemma trans {b'' : Broker} (h : Abides b b') (h' : Abides b' b'') : Abides b b'' where
  size := h.size.trans h'.size
  kept k hk := (h.kept k hk).trans (h'.kept k (h.past hk))
  unbound k hk id session hs hb := by
    obtain ⟨old, ho, hb'⟩ := h'.unbound k (h.past hk) id session hs hb
    exact h.unbound k hk id old ho hb'

lemma of_unbound (hu : Unbound b b') (hz : b'.connections.size = b.connections.size)
    (hc : ∀ k, (b.connection k).Kept (b'.connection k)) : Abides b b' where
  size := hz.ge
  kept k _ := hc k
  unbound k _ id session hs hk := by
    obtain ⟨old, ho, -, hb⟩ := hu.sessions id session hs
    exact ⟨old, ho, hb k hk⟩

lemma moves {actor : Option ClientId} (h : Moves j actor b b') : Abides b b' :=
  of_unbound h.unbound h.size_eq h.kept

/-- The admission of another connection closes at most one of them. -/
lemma joined {client : ClientInfo} {clean : Bool} {will : Option Will} {sent unsent : List Publish}
    (hs : (b.connection j).state = .idle) (hj : Joined b b' j client clean will sent unsent) :
    Abides b b' := by
  have hne : ∀ k, b.Past k → j ≠ k := by
    rintro k hk rfl
    have hb := hk.begun
    rw [Connection.Begun, hs] at hb
    obtain hb | hb := hb <;> cases hb
  obtain ⟨bound, hbound, -, hk', -⟩ := hj.admitted.session
  refine ⟨hj.admitted.size.ge, fun k hk => ?_, fun k hk id session hf hb => ?_⟩
  · obtain he | he := hj.admitted.others_cases (hne k hk) <;> rw [he]
    · exact .refl _
    · exact (Connection.onward_evict _).toKept
  · by_cases hi : id = client.id
    · subst hi
      obtain rfl : session = bound := Option.some.inj (hf.symm.trans hbound)
      exact absurd (Option.some.inj (hk'.symm.trans hb)) (hne k hk)
    · exact ⟨session, (hj.admitted.sessions id hi).symm.trans hf, hb⟩

lemma processConnect (hc : b.Consistent) (k : ConnectionId) (connect : Connect) :
    Abides b (b.processConnect .quiet k connect).2 := by
  obtain hr | ⟨client, isGiven, sent, unsent, b', hs, -, -, hj, hd⟩ :=
    b.admission_cases k connect (hc.regular k).held hc.clientId_of_idle
  · exact moves hr.services.moves
  · exact (joined hs hj).trans (moves (hd.served.still.moves hj.speaksFor))

lemma handle (hc : b.Consistent) (k : ConnectionId) (event : Event) :
    Abides b (b.handle .quiet k event).2 := by
  obtain hm | ⟨connect, -, -, he⟩ := b.handle_moves k event
  · exact moves hm
  · rw [he]
    exact processConnect hc k connect

lemma expire (b : Broker) (id : ClientId) : Abides b (b.expire id).2 := by
  refine expire_induction (P := Abides b) (refl b) id (fun k => ?_)
    fun b' session h _ _ => h.trans ?_
  · have hm : Moves k none b (b.closeConnection k) := .single (.serve (.chore .close))
    exact moves hm
  · refine of_unbound (unbound_teardown b' id session) (by rw [connections_teardown]) fun k => ?_
    rw [connection_teardown]
    exact .refl _

lemma accept (b : Broker) : Abides b b.accept.2 where
  size := by
    simp only [Broker.accept, Array.size_push]
    omega
  kept k hk := by
    rw [connection_accept, if_neg hk.accepted.ne]
    exact .refl _
  unbound _ _ _ session hs hk := ⟨session, hs, hk⟩

lemma fault (b : Broker) (k : ConnectionId) (fault : Fault) :
    Abides b (b.perform (.fault k fault)) :=
  of_unbound (unbound_of_same (fun _ => rfl) rfl)
    (size_modifyConnection fun c => { c with transport := c.transport.suffer fault })
    (modifyConnection_rel .refl (Connection.onward_suffer fault _).toKept)

/-- What an operation of the actors leaves of the connections past their admission. -/
theorem perform (hc : b.Consistent) {operation : Operation} (ho : operation.IsDriven b) :
    Abides b (b.perform operation) := by
  cases operation with
  | accept => exact accept b
  | connect k connect => exact processConnect hc k connect
  | event k event => exact handle hc k event
  | expire id => exact expire b id
  | fault k news => exact fault b k news
  | _ => exact ho.elim

/-- What a run leaves of them. -/
theorem after (hc : b.Consistent) {operations : List Operation}
    (ha : b.Allows (fun b operation => operation.IsDriven b) operations) :
    Abides b (b.after operations) := by
  induction operations generalizing b with
  | nil => exact refl b
  | cons operation operations ih =>
    obtain ⟨ho, ha⟩ := ha
    exact (perform hc ho).trans (ih (hc.perform ho) ha)

end Abides
end abiding

section spent

/-- A connection at its end stays there. -/
lemma Spent.abides (h : b.Spent k) (hk : k < b.connections.size) (ha : Abides b b') :
    b'.Spent k where
  closed := (ha.kept k ⟨hk, .inr h.closed⟩).closed h.closed
  unbound id session hs hb := by
    obtain ⟨old, ho, hb'⟩ := ha.unbound k ⟨hk, .inr h.closed⟩ id session hs hb
    exact h.unbound id old ho hb'

/-- A connection that was bound to a session once and is not any more is at its end. -/
lemma Owned.spent (h : b.Owned none) (hc : b.Consistent)
    (hi : (b.connection k).clientId = some id) (hn : b.boundSession? id k = none) :
    b.Spent k := by
  have hbound : ∀ other session, b.session? other = some session →
      session.connection ≠ some k := by
    intro other session hs hk
    obtain rfl : other = id := Option.some.inj ((hc.bound other session k hs hk).symm.trans hi)
    rw [boundSession?_eq_some.mpr ⟨hs, hk⟩] at hn
    cases hn
  refine ⟨(hc.begun hi).resolve_left fun he => ?_, hbound⟩
  obtain ⟨session, hs, hk⟩ := h.established k id he hi
  exact hbound id session hs hk

/-- Nothing was written to any transport, and sessions, subscriptions, retained messages and what is
stored are as before. -/
structure Inert (b b' : Broker) : Prop where
  written : ∀ j, (b'.connection j).transport.written = (b.connection j).transport.written
  sessions : b'.sessions = b.sessions
  directory : b'.directory = b.directory
  retained : b'.retained = b.retained
  stored : b'.stored = b.stored

lemma Inert.refl (b : Broker) : Inert b b := ⟨fun _ => rfl, rfl, rfl, rfl, rfl⟩

lemma inert_modifyConnection {change : Connection → Connection}
    (h : ∀ c, (change c).transport.written = c.transport.written) :
    Inert b (b.modifyConnection k change) where
  written := modifyConnection_rel (P := fun c d => d.transport.written = c.transport.written)
    (fun _ => rfl) (h _)
  sessions := rfl
  directory := rfl
  retained := rfl
  stored := rfl

/-- There is neither a will to publish nor a session to let go. -/
lemma Spent.connectionLost (h : b.Spent k) : Inert b (b.connectionLost k) := by
  unfold Broker.connectionLost
  dsimp only
  split
  · exact inert_modifyConnection fun _ => rfl
  next client hc =>
    have hn : ((b.closeConnection k).modifyConnection k fun c =>
        { c with client := none }).boundSession? client.id k = none := by
      refine Option.eq_none_iff_forall_ne_some.mpr fun session hs => ?_
      obtain ⟨hs, hb⟩ := boundSession?_eq_some.mp hs
      exact h.unbound client.id session hs hb
    obtain ⟨-, -, htake, -, hunbind⟩ := registry_fenced hn
    rw [htake]
    dsimp only [executeWill]
    rw [hunbind, closeConnection, modifyConnection_modifyConnection]
    have hi : Inert b (b.modifyConnection k fun c => { c.close with client := none }) :=
      inert_modifyConnection fun _ => rfl
    exact hi

/-- Whatever the actor of a connection at its end is told, it stops, and nothing comes of it. -/
lemma Spent.handle (h : b.Spent k) (meanwhile : Interlude) (event : Event) :
    (b.handle meanwhile k event).1 = false ∧ Inert b (b.handle meanwhile k event).2 := by
  have hclose : Inert b (b.closeConnection k) := inert_modifyConnection fun _ => rfl
  cases event with
  | transportClosed => exact ⟨rfl, h.connectionLost⟩
  | evicted => exact ⟨rfl, .refl b⟩
  | packet packet =>
    unfold Broker.handle
    dsimp only
    split
    · cases packet with
      | connect connect =>
        have hr : b.processConnect meanwhile k connect = b.refuse k := by
          unfold Broker.processConnect
          rw [if_pos]
          rw [h.closed]
          nofun
        unfold onFirstPacket
        dsimp only
        rw [hr]
        exact ⟨rfl, hclose⟩
      | _ => exact ⟨rfl, hclose⟩
    · rw [if_neg]
      · exact ⟨rfl, h.connectionLost⟩
      · rw [Connection.isOpen, h.closed]
        simp

end spent

/-- The actor of a connection is done: its connection has lost the session it was bound to, be it
within one step, or it did not go on after some event. -/
inductive Dismissed (b : Broker) (k : ConnectionId) : List Operation → Prop
  | lost {before between : List Operation} {id : ClientId}
    (h : (b.after before).boundSession? id k ≠ none)
    (hn : (b.after (before ++ between)).boundSession? id k = none) :
    Dismissed b k (before ++ between)
  | failed {operations : List Operation} {id : ClientId}
    (h : .bound k ∈ (b.after operations).history id)
    (hn : (b.after operations).boundSession? id k = none) : Dismissed b k operations
  | stopped {before : List Operation} {event : Event}
    (hk : k < (b.after before).connections.size)
    (h : ((b.after before).handle .quiet k event).1 = false) :
    Dismissed b k (before ++ [.event k event])

/-- Whoever is done is at the end of its connection. -/
lemma Dismissed.spent {operations : List Operation} (hd : b.Dismissed k operations)
    (h : b.Opened) (ha : b.Allows (fun b operation => operation.IsDriven b) operations) :
    (b.after operations).Spent k ∧ k < (b.after operations).connections.size := by
  obtain ⟨hc, ho⟩ := h.owned ha
  cases hd with
  | @lost before between id hb hn =>
    obtain ⟨hbefore, hbetween⟩ := allows_append.mp ha
    obtain ⟨hc', -⟩ := h.owned hbefore
    obtain ⟨session, hs⟩ := Option.ne_none_iff_exists'.mp hb
    obtain ⟨hs, hk⟩ := boundSession?_eq_some.mp hs
    have hi := hc'.bound id session k hs hk
    have hp : (b.after before).Past k := ⟨lt_size_of_clientId hi, hc'.begun hi⟩
    have hkept := (Abides.after hc' hbetween).kept k hp
    rw [← after_append] at hkept
    have hi' := hkept.clientId.trans hi
    exact ⟨ho.spent hc hi' hn, lt_size_of_clientId hi'⟩
  | @failed _ id hb hn =>
    have hi := hc.noted id k hb
    exact ⟨ho.spent hc hi hn, lt_size_of_clientId hi⟩
  | @stopped before event hk hf =>
    obtain ⟨hbefore, hevent⟩ := allows_append.mp ha
    obtain ⟨hc', ho'⟩ := h.owned hbefore
    have hsize := (Abides.handle hc' k event).size
    rw [after_append]
    exact ⟨(ho'.handle hc' k hevent.1).2 hf, hk.trans_le hsize⟩

/-- A call for a client's session in the name of a connection that the session is not bound to
fails and changes nothing; a subscription fails even if the connection loses the session while the
authorizer is asked, by whatever happens meanwhile.  And in a run in which connections are driven
by their actors, once a connection has lost its session or its actor was told to stop, every event
stops it again, and nothing comes of it. -/
theorem fenced_connections_change_nothing (h : b.Opened) {operations later : List Operation}
    (ha : b.Allows (fun b operation => operation.IsDriven b) (operations ++ later)) :
    (∀ (b : Broker) (id : ClientId) (k : ConnectionId), b.boundSession? id k = none →
      (∀ client filter qos, client.id = id →
        (∃ error, (b.subscribe .quiet client k filter qos).1 = .error error) ∧
          Inert b (b.subscribe .quiet client k filter qos).2) ∧
      (∀ meanwhile filter, b.unsubscribe meanwhile id k filter = (false, b)) ∧
      (∀ will, b.setWill id k will = (false, b)) ∧ b.takeWill id k = (none, b) ∧
      (∀ unsent, b.requeue id k unsent = (0, b)) ∧
      ∀ remove, b.unbind id k remove = (false, b)) ∧
    (∀ (b : Broker) (meanwhile : Interlude) (client : ClientInfo) (k : ConnectionId),
      (b.callOut meanwhile .read).boundSession? client.id k = none → ∀ filter qos, ∃ error,
        b.subscribe meanwhile client k filter qos = (.error error, b) ∨
          b.subscribe meanwhile client k filter qos =
            (.error error, b.callOut meanwhile .read)) ∧
    ∀ k, b.Dismissed k operations → ∀ meanwhile event,
      let final := b.after (operations ++ later)
      (final.handle meanwhile k event).1 = false ∧
        Inert final (final.handle meanwhile k event).2 := by
  refine ⟨fun b id k hn => ⟨?_, registry_fenced hn⟩,
    fun b meanwhile client k hn => subscribe_fenced meanwhile hn, fun k hd meanwhile event => ?_⟩
  · rintro client filter qos rfl
    obtain ⟨error, he | he⟩ := subscribe_fenced (b := b) .quiet hn filter qos <;> rw [he]
    · exact ⟨⟨error, rfl⟩, .refl b⟩
    · exact ⟨⟨error, rfl⟩, fun _ => rfl, rfl, rfl, rfl, rfl⟩
  · obtain ⟨hoperations, hlater⟩ := allows_append.mp ha
    obtain ⟨hc, -⟩ := h.owned hoperations
    obtain ⟨hp, hk⟩ := hd.spent h hoperations
    have hf := hp.abides hk (Abides.after hc hlater)
    rw [← after_append] at hf
    exact hf.handle meanwhile event

/-- Another connection takes over while a client is about to subscribe.  What the client publishes
after that goes nowhere. -/
theorem fenced_connections_change_nothing_takeover :
    let connect : Connect := ⟨"MQTT", 4, false, "c", none, none, none⟩
    let before : List Operation := [.accept, .accept, .connect 0 connect]
    let final := (lenient {} .empty).after (before ++ [.connect 1 connect])
    let event : Event := .packet (.publish ⟨"a", [1], .atLeastOnce, true, false, some 1⟩)
    let meanwhile : Interlude := fun _ _ b => b.perform (.connect 1 connect)
    (lenient {} .empty).Opened ∧
      (lenient {} .empty).Allows (fun b operation => operation.IsDriven b)
        (before ++ [.connect 1 connect]) ∧
      (lenient {} .empty).Dismissed 0 (before ++ [.connect 1 connect]) ∧
      (final.handle .quiet 0 event).1 = false ∧ Inert final (final.handle .quiet 0 event).2 ∧
      ∃ error, (((lenient {} .empty).after before).subscribe meanwhile (.anonymous "c") 0 "a"
        .atLeastOnce).1 = .error error := by
  intro connect before final event meanwhile
  have hp : (lenient {} .empty).Opened := opened_lenient {} .empty
  have ha : (lenient {} .empty).Allows (fun b operation => operation.IsDriven b)
      (before ++ [.connect 1 connect] ++ []) :=
    ⟨trivial, trivial, trivial, trivial, trivial⟩
  have hb : (((lenient {} .empty).after before).boundSession? "c" 0).isSome = true := by
    decide +kernel
  have hn : (final.boundSession? "c" 0).isNone = true := by decide +kernel
  have hm : ((((lenient {} .empty).after before).callOut meanwhile .read).boundSession?
      "c" 0).isNone = true := by decide +kernel
  have hd : (lenient {} .empty).Dismissed 0 (before ++ [.connect 1 connect]) :=
    .lost (Option.isSome_iff_ne_none.mp hb) (Option.isNone_iff_eq_none.mp hn)
  obtain ⟨-, hsubscribe, hstop⟩ := fenced_connections_change_nothing hp ha
  obtain ⟨hstopped, hinert⟩ := hstop 0 hd .quiet event
  rw [List.append_nil] at hstopped hinert
  refine ⟨hp, ha, hd, hstopped, hinert, ?_⟩
  obtain ⟨error, he | he⟩ := hsubscribe ((lenient {} .empty).after before) meanwhile
    (.anonymous "c") 0 (Option.isNone_iff_eq_none.mp hm) "a" .atLeastOnce
  · exact ⟨error, congrArg Prod.fst he⟩
  · exact ⟨error, congrArg Prod.fst he⟩

end MqttBroker.Broker
