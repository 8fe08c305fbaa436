import MqttBroker.Proofs.Broker.Delivery

/-!
A persistent client loses no copy over its connections, gets none twice, and gets them in the order
in which they were routed to it.
-/
namespace MqttBroker

namespace Operation

/-- A client stays persistent: it only connects with a session that is kept, over a transport that
never works again once it has failed, and its session does not expire. -/
structure Sustains (id : ClientId) (b : Broker) (operation : Operation) : Prop where
  driven : operation.IsDriven b
  connects : ∀ k connect isGiven, operation.Presents k connect → (b.connection k).state = .idle →
    b.resolveId connect = .ok (id, isGiven) →
      connect.clean = false ∧ (b.connection k).transport.Permanent
  kept : operation ≠ .expire id
  failing : ∀ k fault, operation = .fault k fault → (b.connection k).clientId = some id →
    ((b.connection k).transport.suffer fault).Permanent

namespace Sustains
variable {id : ClientId} {b : Broker} {k : ConnectionId}

lemma accept : Operation.accept.Sustains id b := by
  refine ⟨trivial, ?_, nofun, nofun⟩
  rintro k connect isGiven (h | h) <;> cases h

lemma event {packet : Packet} (hp : ∀ connect, packet ≠ .connect connect) :
    (Operation.event k (.packet packet)).Sustains id b := by
  refine ⟨nofun, ?_, nofun, nofun⟩
  rintro j connect isGiven (h | h) <;> cases h
  exact absurd rfl (hp connect)

lemma connect {connect : Connect}
    (hc : ∀ isGiven, b.resolveId connect = .ok (id, isGiven) →
      connect.clean = false ∧ (b.connection k).transport.Permanent) :
    (Operation.connect k connect).Sustains id b := by
  refine ⟨trivial, ?_, nofun, nofun⟩
  rintro j other isGiven (h | h) - hi <;> cases h
  exact hc isGiven hi

lemma fault {fault : Fault} (hi : (b.connection k).clientId ≠ some id) :
    (Operation.fault k fault).Sustains id b := by
  refine ⟨trivial, ?_, nofun, ?_⟩
  · rintro j connect isGiven (h | h) <;> cases h
  · rintro j other h hj
    cases h
    exact absurd hj hi

end Sustains

end Operation

namespace Broker

/-- A transport that was not used yet may break at any write, as long as it stays broken. -/
lemma permanent_breaks {b : Broker} {k : ConnectionId} {schedule : Nat → Bool}
    (hk : k < b.connections.size) (hn : (b.connection k).transport.attempts = 0)
    (hs : ∀ n, schedule n → schedule (n + 1)) :
    ((b.perform (.fault k (.breaks schedule))).connection k).transport.Permanent := by
  rw [perform, connection_modifyConnection _ hk, if_pos rfl]
  refine ⟨fun n _ => hs n, fun hb => ?_⟩
  change _ < (b.connection k).transport.attempts at hb
  rw [hn] at hb
  exact absurd hb (Nat.not_lt_zero _)

variable {b b' : Broker} {id : ClientId} {past : List Publish} {k : ConnectionId}

namespace Flow

section admission
variable {client : ClientInfo} {clean : Bool} {will : Option Will}
  {sent unsent queue : List Publish}

/-- The other connections are at most evicted. -/
lemma others_onward (ha : Admitted b b' k client clean queue) {j : ConnectionId} (hj : k ≠ j) :
    (b.connection j).Onward (b'.connection j) ∧
      ((b.connection j).transport.Permanent → (b'.connection j).transport.Permanent) := by
  rcases ha.others_cases hj with he | he <;> rw [he]
  · exact ⟨.refl _, fun hp => hp⟩
  · exact ⟨Connection.onward_evict _, fun hp => hp.close⟩

/-- The admission of another client. -/
lemma joinOther (h : b.Flow id past) (hc : b.Consistent) (hs : (b.connection k).state = .idle)
    (hi : client.id ≠ id) (hj : Joined b b' k client clean will sent unsent) : b'.Flow id past := by
  have ha := hj.admitted
  refine h.onward hc ?_ (leavesQueue_of_eq (ha.sessions id hi.symm)) (fun j hj' => ?_)
    fun j hj' => others_onward ha (hc.ne_of_idle hs hj')
  · rw [ha.history, if_neg hi.symm]
  · by_cases hkj : k = j
    · subst hkj
      rw [hj.wrote.kept.clientId] at hj'
      exact absurd (Option.some.inj hj') hi
    · rwa [(others_onward ha hkj).1.clientId] at hj'

/-- What a persistent client finds in its session is replayed. -/
lemma replay_eq_queueOf (h : b.Flow id past) {session : Session}
    (hf : b.Found id false client session) :
    (if session.isReset false then [] else session.queue) = b.queueOf id :=
  hf.replay_eq.trans (backlog_eq_queueOf h.persistent)

section self
variable (hc : b.Consistent) (hs : (b.connection k).state = .idle)
  (ha : Admitted b b' k client false unsent)
  (hw : Connection.Wrote sent
    { b.connection k with
      state := .established, held := [], clientId := some client.id, client := some client
      clean := false } (b'.connection k))

include ha in
lemma connectionsOf_admission : b'.connectionsOf client.id = b.connectionsOf client.id ++ [k] := by
  rw [connectionsOf, ha.history, if_pos rfl, List.filterMap_append]
  rfl

include hc hs ha hw in
lemma deliveredTo_admission : b'.deliveredTo client.id = b.deliveredTo client.id ++ sent := by
  have hf : (b.connectionsOf client.id).flatMap (fun j => (b'.connection j).transport.copies) =
      b.deliveredTo client.id := by
    refine List.flatMap_congr fun j hj => (others_onward ha ?_).1.copies
    exact hc.ne_of_idle hs (hc.noted client.id j (mem_connectionsOf.mp hj))
  have hn : (b.connection k).transport.copies = [] :=
    ((hc.regular k).waiting (by simp [Connection.Begun, hs])).2
  rw [deliveredTo, connectionsOf_admission ha, List.flatMap_append, hf]
  simp [hw.copies, hn]

include hc hs ha hw in
/-- The new connection is the newest, and stopped unless the whole queue was sent. -/
lemma lane_admission (h : b.Lane client.id) (hp : (b.connection k).transport.Permanent)
    (hu : ∀ publish ∈ unsent, publish.IsCopy)
    (hb : unsent ≠ [] → (b.connection k).transport.Sound → (b'.connection k).transport.Broken) :
    b'.Lane client.id := by
  obtain ⟨bound, hbound, -, hbk, hclean, hqueue⟩ := ha.session
  refine ⟨fun session hs' => ?_, ?_, fun hs' => ?_, fun j hj => ?_, fun session j hs' hj => ?_,
    fun session j hs' hj hne => ?_⟩
  · rw [hbound] at hs'
    cases hs'
    exact hclean
  · rw [queueOf_of_session? hbound, hqueue]
    exact hu
  · rw [hbound] at hs'
    cases hs'
  · by_cases hkj : k = j
    · subst hkj
      exact ⟨hw.kept.clean, hw.permanent hp⟩
    · obtain ⟨ho, hpj⟩ := others_onward ha hkj
      obtain ⟨hcj, hpj'⟩ := h.steady j (ho.clientId ▸ hj)
      exact ⟨ho.clean.trans hcj, hpj hpj'⟩
  · rw [hbound] at hs'
    cases hs'
    rw [hbk] at hj
    cases hj
    refine ⟨b.connectionsOf client.id, connectionsOf_admission ha, fun hm => ?_⟩
    exact hc.ne_of_idle hs (hc.noted client.id k (mem_connectionsOf.mp hm)) rfl
  · rw [hbound] at hs'
    cases hs'
    rw [hbk] at hj
    cases hj
    rw [hqueue] at hne
    exact .inr (hb hne (hc.regular k).sound)

end self

/-- The admission of the client itself: what is not sent stays queued, ahead of whatever comes. -/
lemma joinSelf (h : b.Flow client.id past) (hc : b.Consistent)
    (hs : (b.connection k).state = .idle) (hp : (b.connection k).transport.Permanent)
    (hj : Joined b b' k client false will sent unsent) : b'.Flow client.id past := by
  obtain ⟨session, hf, hq⟩ := hj.found
  have ha := hj.admitted
  have hw := hj.wrote
  rw [h.replay_eq_queueOf hf] at hq
  have hcopies : ∀ publish ∈ sent ++ unsent, publish.IsCopy := hq ▸ h.copies
  rw [List.forall_mem_append] at hcopies
  rw [if_neg nofun, Session.keepable_eq_self hcopies.2] at ha
  rw [Publish.filterMap_copy? hcopies.1] at hw
  have hd := deliveredTo_admission hc hs ha hw
  refine ⟨lane_admission hc hs ha hw h.toLane hp hcopies.2 hj.broken, ?_, ?_⟩
  · rw [hd]
    exact h.grown.trans (List.prefix_append _ _)
  obtain ⟨bound, hbound, -, -, -, hqueue⟩ := ha.session
  obtain ⟨settled, hr, hi⟩ := h.balanced
  refine ⟨settled ++ sent, ?_, ?_⟩
  · rw [queueOf_of_session? hbound, hqueue, List.append_assoc, ← hq, ← hr, routedTo, ha.history,
      if_pos rfl, List.filterMap_append]
    exact List.append_nil _
  · rw [hd, displacedFrom, ha.history, if_pos rfl, List.filterMap_append]
    exact hi.append (interleaves_left sent)

end admission

theorem processConnect (h : b.Flow id past) (hc : b.Consistent) {connect : Connect}
    (hl : ∀ isGiven, (b.connection k).state = .idle → b.resolveId connect = .ok (id, isGiven) →
      connect.clean = false ∧ (b.connection k).transport.Permanent) :
    (b.processConnect .quiet k connect).2.Flow id past := by
  obtain hr | ⟨client, isGiven, sent, unsent, b', hs, -, hi, hj, hd⟩ :=
    b.admission_cases k connect (hc.regular k).held hc.clientId_of_idle
  · exact h.moves hc hr.services.moves nofun
  · have hf : b'.Flow id past := by
      by_cases hid : client.id = id
      · subst hid
        obtain ⟨hclean, hp⟩ := hl isGiven hs hi
        rw [hclean] at hj
        exact h.joinSelf hc hs hp hj
      · exact h.joinOther hc hs hid hj
    refine hf.moves (hc.joined hs hj) (hd.served.still.moves hj.speaksFor) fun other ho => ?_
    cases ho
    exact hj.wrote.kept.clientId

theorem expire (h : b.Flow id past) (hc : b.Consistent) {other : ClientId} (ho : other ≠ id) :
    (b.expire other).2.Flow id past := by
  refine (expire_induction (P := fun b => b.Consistent ∧ b.Flow id past) ⟨hc, h⟩ other
    (fun k => ⟨hc.close k, ?_⟩) fun b session ⟨hc, h⟩ _ _ => ⟨hc.teardown other session, ?_⟩).2
  · have hm : Move k none b (b.closeConnection k) := .serve (.chore .close)
    exact h.move hc hm nofun
  · refine h.sameConnections hc (by rw [history_teardown]) (leavesQueue_of_eq ?_)
      fun _ => connection_teardown session
    rw [session?_teardown, if_neg ho]

theorem accept (h : b.Flow id past) (hc : b.Consistent) : b.accept.2.Flow id past := by
  have hk : ∀ k, (b.connection k).clientId = some id → b.accept.2.connection k = b.connection k :=
    fun k hk => by rw [connection_accept, if_neg (lt_size_of_clientId hk).ne]
  refine h.onward hc rfl (leavesQueue_of_eq rfl) (fun k hi => ?_) fun k hi => ?_
  · rw [connection_accept] at hi
    split at hi
    · cases hi
    · exact hi
  · rw [hk k hi]
    exact ⟨.refl _, fun hp => hp⟩

/-- What any operation keeps under which the client stays persistent. -/
theorem perform (h : b.Flow id past) (hc : b.Consistent) {operation : Operation}
    (ho : operation.Sustains id b) : (b.perform operation).Flow id past := by
  cases operation with
  | accept => exact h.accept hc
  | connect k connect =>
    exact h.processConnect hc fun isGiven => ho.connects k connect isGiven (.inl rfl)
  | event k event =>
    obtain hm | ⟨connect, rfl, -, he⟩ := b.handle_moves k event
    · exact h.moves hc hm fun other hi => hc.speaker hi
    · change (b.handle .quiet k (.packet (.connect connect))).2.Flow id past
      rw [he]
      exact h.processConnect hc fun isGiven => ho.connects k connect isGiven (.inr rfl)
  | expire other => exact h.expire hc fun he => ho.kept (he ▸ rfl)
  | fault k fault =>
    have hm : (b.modifyConnection k fun c =>
        { c with transport := c.transport.suffer fault }).Flow id past :=
      h.modifyConnection hc (Connection.onward_suffer fault _) fun hi _ =>
        ho.failing k fault rfl hi
    exact hm
  | _ => exact ho.driven.elim

/-- What a whole run keeps under which the client stays persistent. -/
theorem after (h : b.Flow id past) (hc : b.Consistent) {operations : List Operation}
    (ha : b.Allows (Operation.Sustains id) operations) :
    (b.after operations).Consistent ∧ (b.after operations).Flow id past :=
  after_induction (P := fun b => b.Consistent ∧ b.Flow id past)
    (fun _ _ ho ⟨hc, hf⟩ => ⟨hc.perform ho.driven, hf.perform hc ho⟩) ha ⟨hc, h⟩

/-- All that was delivered so far may be taken for the past. -/
lemma restart (h : b.Flow id past) : b.Flow id (b.deliveredTo id) :=
  { h with grown := List.prefix_refl _ }

theorem of_opened (h : b.Opened) (id : ClientId) : b.Flow id [] where
  persistent session hs := by
    rw [h.session?] at hs
    cases hs
  copies publish hp := by
    rw [queueOf, h.session?] at hp
    cases hp
  unseen _ := h.history id
  steady k hi := by
    rw [h.connection] at hi
    cases hi
  newest session k hs := by
    rw [h.session?] at hs
    cases hs
  stalled session k hs := by
    rw [h.session?] at hs
    cases hs
  grown := List.nil_prefix
  balanced := by
    refine ⟨[], ?_, ?_⟩
    · rw [routedTo, queueOf, h.history, h.session?]
      rfl
    · rw [deliveredTo, connectionsOf, displacedFrom, h.history]
      exact .nil

end Flow

/-- Throughout a run in which a client stays persistent, the copies written to its transports,
followed by those in its queue, are the copies routed to it but for those pushed out of the queue,
in the order in which they were routed.  They are listed in the order in which they were written:
what was written earlier in the run stays at the front.  While a connection of the client works,
nothing waits in the queue. -/
theorem persistent_client_loses_nothing (h : b.Opened) {operations : List Operation}
    (ha : b.Allows (Operation.Sustains id) operations) :
    let final := b.after operations
    (final.deliveredTo id ++ final.queueOf id).Sublist (final.routedTo id) ∧
      Interleaves (final.deliveredTo id ++ final.queueOf id) (final.displacedFrom id)
        (final.routedTo id) ∧
      (∀ earlier, earlier <+: operations →
        (b.after earlier).deliveredTo id <+: final.deliveredTo id) ∧
      ∀ session k, final.session? id = some session → session.connection = some k →
        ¬ (final.connection k).Stopped → final.queueOf id = [] := by
  intro final
  have hf : final.Flow id [] := ((Flow.of_opened h id).after (.of_opened h) ha).2
  obtain ⟨settled, hr, hd⟩ := hf.balanced
  have hi := hd.append (interleaves_left (final.queueOf id))
  rw [List.append_nil, ← hr] at hi
  refine ⟨hi.sublist, hi, ?_, fun session k hs hk hn => ?_⟩
  · rintro earlier ⟨later, rfl⟩
    obtain ⟨hearlier, hlater⟩ := allows_append.mp ha
    obtain ⟨hc, hp⟩ := (Flow.of_opened h id).after (.of_opened h) hearlier
    have hg := (hp.restart.after hc hlater).2
    rw [← after_append] at hg
    exact hg.grown
  · exact (queueOf_of_session? hs).trans (hf.queue_eq_nil hs hk hn)

/-- A client misses three messages while its transport is broken.  The queue has room for two of
them, and when the client comes back its transport breaks again before it has got both. -/
theorem persistent_client_loses_nothing_reconnect :
    let config : Config := { session := { maxQueuedMessages := 2 } }
    let message (n : UInt8) (id : Option PacketId) : Publish :=
      ⟨"a", [n], .atLeastOnce, false, false, id⟩
    let operations : List Operation := [.accept, .accept, .fault 0 (.breaks (3 ≤ ·)),
      .connect 0 ⟨"MQTT", 4, false, "c", none, none, none⟩,
      .event 0 (.packet (.subscribe 1 [("a", .exactlyOnce)])),
      .connect 1 ⟨"MQTT", 4, true, "p", none, none, none⟩,
      .event 1 (.packet (.publish (message 1 (some 7)))),
      .event 1 (.packet (.publish (message 2 (some 8)))),
      .event 1 (.packet (.publish (message 3 (some 9)))),
      .event 1 (.packet (.publish (message 4 (some 7)))), .accept, .fault 2 (.breaks (2 ≤ ·)),
      .connect 2 ⟨"MQTT", 4, false, "c", none, none, none⟩]
    let final := (lenient config .empty).after operations
    (lenient config .empty).Opened ∧
      (lenient config .empty).Allows (Operation.Sustains "c") operations ∧
      final.routedTo "c" = [message 1 none, message 2 none, message 3 none, message 4 none] ∧
      Interleaves [message 1 none, message 3 none, message 4 none] [message 2 none]
        (final.routedTo "c") ∧
      final.queueOf "c" = [message 4 none] := by
  intro config message operations final
  have ha : (lenient config .empty).Allows (Operation.Sustains "c") operations := by
    refine ⟨.accept, .accept, .fault (by decide +kernel), .connect fun _ _ => ⟨rfl, ?_⟩,
      .event nofun, .connect fun _ h => ?_, .event nofun, .event nofun, .event nofun,
      .event nofun, .accept, .fault (by decide +kernel), .connect fun _ _ => ⟨rfl, ?_⟩, trivial⟩
    · refine permanent_breaks (by decide +kernel) (by decide +kernel) fun n h => ?_
      exact decide_eq_true ((of_decide_eq_true h).trans (Nat.le_succ n))
    · simp [resolveId] at h
    · refine permanent_breaks (by decide +kernel) (by decide +kernel) fun n h => ?_
      exact decide_eq_true ((of_decide_eq_true h).trans (Nat.le_succ n))
  obtain ⟨-, hi, -⟩ := persistent_client_loses_nothing (opened_lenient config .empty) ha
  have hd : final.deliveredTo "c" = [message 1 none, message 3 none] := by decide +kernel
  have hq : final.queueOf "c" = [message 4 none] := by decide +kernel
  have hp : final.displacedFrom "c" = [message 2 none] := by decide +kernel
  rw [hd, hq, hp] at hi
  exact ⟨opened_lenient config .empty, ha, by decide +kernel, hi, hq⟩

end Broker
end MqttBroker
