import MqttBroker.Proofs.Broker.Accounting
import MqttBroker.Proofs.Broker.Topics

/-!
Overlapping admissions of one client, whatever is published and whichever transports fail
meanwhile: no copy is lost but those that the queue has no room for, and those that come back from
a connection after the session was bound to another one.
-/
namespace MqttBroker

namespace Broker.Admitted

variable {b b' : Broker} {j k : ConnectionId} {client : ClientInfo} {clean : Bool}
  {queue : List Publish}

lemma rests (h : Admitted b b' k client clean queue) (hkj : k ≠ j) :
    (b.connection j).Rests (b'.connection j) := by
  obtain he | he := h.others_cases hkj <;> rw [he]
  · exact .refl _
  · exact Connection.rests_evict _

lemma queueOf_eq (h : Admitted b b' k client clean queue) : b'.queueOf client.id = queue := by
  obtain ⟨session, hs, -, -, -, hq⟩ := h.session
  exact (queueOf_of_session? hs).trans hq

/-- An admission routes nothing. -/
lemma routedTo_eq (h : Admitted b b' k client clean queue) :
    b'.routedTo client.id = b.routedTo client.id := by
  rw [routedTo, h.history, if_pos rfl, List.filterMap_append]
  exact List.append_nil _

lemma displacedFrom_eq (h : Admitted b b' k client clean queue) :
    b'.displacedFrom client.id = b.displacedFrom client.id := by
  rw [displacedFrom, h.history, if_pos rfl, List.filterMap_append]
  exact List.append_nil _

end Broker.Admitted

namespace Admissions

variable {a : Admissions} {id : ClientId} {k : ConnectionId} {b : Broker}

section steps

/-- Whoever lets go of a persistent session leaves its queue. -/
lemma Orderly.connectionLost (h : Orderly id a) (hc : (a.broker.connection k).clean = false) :
    Conserves id a { a with broker := a.broker.connectionLost k } := by
  have hp : Broker.Pauses id a.broker (a.broker.closeConnection k) := Broker.pauses_close a.broker k
  have hclosed := h.conserves hp
  have hclean := (hp.connections k).clean hc
  unfold Broker.connectionLost
  generalize a.broker.closeConnection k = closed at hclosed hclean
  dsimp only
  split
  · exact hclosed
  next client _ =>
    have hforget : Broker.Pauses id closed
        (closed.modifyConnection k fun c => { c with client := none }) :=
      Broker.pauses_modifyConnection (Connection.rests_forget _)
    have hforgotten := hclosed.pauses hforget
    have hclean := (hforget.connections k).clean hclean
    generalize closed.modifyConnection k (fun c => { c with client := none }) = forgotten
      at hforgotten hclean
    have htake : Broker.Pauses id forgotten (forgotten.takeWill client.id k).2 :=
      Broker.pauses_takeWill forgotten client.id k
    have htaken := hforgotten.pauses htake
    have hclean := (htake.connections k).clean hclean
    generalize forgotten.takeWill client.id k = taken at htaken hclean
    have hfired := htaken.trans (htaken.orderly.executeWill k taken.1)
    have hm : Broker.Moves k none taken.2 (taken.2.executeWill k taken.1) :=
      Broker.executeWill_moves taken.2 k taken.1
    change Conserves id a { a with broker := ((taken.2.executeWill k taken.1).unbind client.id k
      ((taken.2.executeWill k taken.1).connection k).clean).2 }
    rw [(hm.kept k).clean, hclean]
    exact hfired.pauses (Broker.pauses_unbind _ client.id k)

/-- An actor that could not open its connection lets go of the session. -/
lemma Orderly.leave (h : Orderly id a) (hs : a.stage k = .restored) :
    Conserves id a (a.proceed k .done (a.broker.connectionLost k)) := by
  obtain ⟨hi, hc⟩ := (h.fits k).served (by rw [hs]; nofun) (by rw [hs]; nofun)
  exact (h.connectionLost hc).finish (Broker.lt_size_of_clientId hi) (by rw [hs]; rfl)
    (by rw [hs]; nofun)

/-- A connection is opened, or what was not written is in the hands of its actor. -/
lemma Orderly.establish (h : Orderly id a) {outcome : BindOutcome}
    (hs : a.stage k = .bound outcome) : Conserves id a (a.establish k outcome) := by
  have hb := h.fits k
  rw [hs] at hb
  set act := fun c : Connection =>
    c.establish (.connack outcome.resumed .accepted) outcome.replay with hact
  have he : a.establish k outcome =
      a.proceed k (Stage.opened (act (a.broker.connection k)).1)
        (a.broker.modifyConnection k fun c => (act c).2) := by
    unfold Admissions.establish
    rw [← Broker.onConnection_fst, ← Broker.onConnection_snd]
    rcases a.broker.onConnection k act with ⟨_ | _, b⟩ <;> rfl
  obtain ⟨hf, hi, hg, hp⟩ :=
    hb.establish (rfl : (Packet.connack outcome.resumed .accepted).publish? = none)
  rw [he]
  suffices hc : Orderly id _ ∧ Shifts id [] [] a _ from ⟨hc.1, hc.2.accounts_same rfl rfl rfl⟩
  refine h.modifyConnection (Broker.lt_size_of_clientId (hb.served nofun nofun).1) rfl hi hf hg ?_
  rwa [List.append_nil, List.append_nil, hs]

/-- The session of the client is bound to a connection that waits for it. -/
lemma Orderly.await (h : Orderly id a) (hs : a.stage k = .waiting)
    (hi : (a.broker.connection k).state = .idle) :
    Conserves id a { a with
      broker := a.broker.modifyConnection k fun c => { c with state := .binding } } := by
  have hw := h.fits k
  rw [hs] at hw
  rw [← proceed_same, hs]
  suffices hc : Orderly id _ ∧ Shifts id [] [] a _ from ⟨hc.1, hc.2.accounts_same rfl rfl rfl⟩
  refine h.modifyConnection (Broker.lt_size_of_idle hi) rfl rfl (hw.await hi) List.prefix_rfl ?_
  rw [hs]
  exact .refl _

/-- Once the session of the client is bound to a connection, that is the one it belongs to, and its
queue is empty. -/
lemma Orderly.entered {client : ClientInfo} (h : Orderly client.id a)
    (ha : Broker.Admitted a.broker b k client false [])
    (hn : (a.broker.connection k).clientId = none) {stage : Stage}
    (hf : stage.Fits client.id (b.connection k))
    (hi : (b.connection k).clientId = some client.id) :
    Orderly client.id (a.proceed k stage b) where
  bound other found j hs hj := by
    change (b.connection j).clientId = some other
    by_cases ho : other = client.id
    · subst ho
      obtain ⟨session, hsession, -, hbound, -⟩ := ha.session
      obtain rfl := Option.some.inj (hs.symm.trans hsession)
      obtain rfl := Option.some.inj (hj.symm.trans hbound)
      exact hi
    · have hother := h.bound other found j ((ha.sessions other ho).symm.trans hs) hj
      by_cases hkj : k = j
      · subst hkj
        rw [hn] at hother
        cases hother
      · rw [(ha.rests hkj).clientId, hother]
  persistent found hs := by
    obtain ⟨session, hsession, -, -, hclean, -⟩ := ha.session
    obtain rfl := Option.some.inj (hs.symm.trans hsession)
    exact hclean
  queued copy hm := by
    change copy ∈ b.queueOf client.id at hm
    rw [ha.queueOf_eq] at hm
    cases hm
  fits j := by
    change ((a.proceed k stage b).stage j).Fits client.id (b.connection j)
    by_cases hkj : k = j
    · subst hkj
      rw [stage_proceed_self]
      exact hf
    · rw [a.stage_proceed_of_ne hkj]
      exact (h.fits j).rests (ha.rests hkj)

/-- The queue of the client is in the hands of the actor that bound its session. -/
lemma Orderly.enter (h : Orderly id a) (hs : a.stage k = .waiting)
    (hb : (a.broker.connection k).state = .binding)
    (ht : (a.broker.connection k).transport.copies = []) {client : ClientInfo}
    (hc : client.id = id) (ha : Broker.Admitted a.broker b k client false [])
    (hd : b.connection k = { (a.broker.connection k).setClientId client.id with
      client := some client, clean := false })
    {outcome : BindOutcome} (hr : outcome.replay = a.broker.queueOf id) :
    Conserves id a (a.proceed k (.bound outcome) b) := by
  have hw := h.fits k
  rw [hs] at hw
  obtain ⟨hfits, hi, hnone, hp⟩ :=
    hw.enter hb ht hc (hr ▸ fun publish hm => (h.queued publish hm).isFresh) hd
  rw [hr, Publish.filterMap_copy? h.queued] at hp
  subst hc
  have hshift : Shifts client.id [] (a.broker.queueOf client.id) a
      (a.proceed k (.bound outcome) b) := by
    refine shifts_of_connection ha.size (Broker.lt_size_of_state (by simp [hb]))
      (fun j hkj => ⟨a.stage_proceed_of_ne hkj, ha.rests hkj⟩) ?_ ?_
    · rw [hnone]
      exact List.nil_prefix
    · rwa [share, share, stage_proceed_self, hs, List.append_nil]
  refine ⟨h.entered ha ((hw.ready (by simp)).2 hb) hfits hi, hshift.accounts [] [] ?_ ?_ ?_⟩
  · exact ha.routedTo_eq.trans (List.append_nil _).symm
  · exact ha.displacedFrom_eq.trans (List.append_nil _).symm
  · change (_ ++ b.queueOf client.id ++ a.forfeited ++ []).Perm _
    rw [ha.queueOf_eq, List.append_nil, List.append_nil, List.append_nil, List.nil_append]

/-- An answer that does not admit leaves all copies where they are. -/
lemma Conserves.reject (h : Conserves id a { a with broker := b }) (k : ConnectionId)
    (code : ConnackCode) : Conserves id a { a with broker := (b.reject k code).2 } := by
  have hanswer : Broker.Pauses id b
      (b.modifyConnection k fun c => (c.send (.connack false code)).2) :=
    Broker.pauses_modifyConnection (Connection.wrote_control rfl _).rests
  exact (h.pauses hanswer).pauses (Broker.pauses_close _ k)

/-- The session is bound to a connection that waits for it, unless storage fails. -/
lemma Orderly.bind (h : Orderly id a) (hs : a.stage k = .waiting)
    (hi : (a.broker.connection k).state = .idle) {client : ClientInfo} (hc : client.id = id)
    (will : Option Will) : Conserves id a (a.bind k client will) := by
  subst hc
  have hk := Broker.lt_size_of_idle hi
  have ht := ((h.fits k).idle hi).2
  have hawait := h.await hs hi
  unfold Admissions.bind
  dsimp only
  set b := a.broker.modifyConnection k fun c => { c with state := .binding } with hb
  have hself : b.connection k = { a.broker.connection k with state := .binding } := by
    rw [hb, Broker.connection_modifyConnection _ hk, if_pos rfl]
  obtain ⟨calls, stored, -, ⟨error, he⟩ | ⟨session, stored', bound, hf, -, he, hr⟩⟩ :=
    b.bind_enrolls k client false will
  · rw [he]
    have hbooks : Broker.Pauses client.id b (b.withBooks calls stored b.identified) :=
      Broker.pauses_of_same rfl (fun _ => .refl _) (fun _ => rfl) rfl
    exact ((hawait.pauses hbooks).reject k .serverUnavailable).finish hk (by rw [hs]; rfl)
      (by rw [hs]; nofun)
  · rw [he]
    have hreplay : _ = b.queueOf client.id :=
      hf.replay_eq.trans (Broker.backlog_eq_queueOf hawait.orderly.persistent)
    have hk' : k < (b.withBooks b.calls stored b.identified).connections.size :=
      hk.trans_eq hawait.accounts.size.symm
    have ha := (Broker.Admitted.enroll hf k will [] fun c =>
      { c with client := some client, clean := false }).withBooks calls stored' bound.identified
    refine hawait.trans (hawait.orderly.enter hs ?_ ?_ rfl ?_ ?_ hreplay)
    · exact congrArg Connection.state hself
    · exact (congrArg (·.transport.copies) hself).trans ht
    · exact hr bound.identified ▸ ⟨ha.size, ha.others, ha.session, ha.sessions, ha.history⟩
    · rw [hr bound.identified, Broker.connection_withBooks, Broker.connection_enroll_self hk']
      rfl

/-- The copies that were not written are no more in the hands of the actor. -/
lemma Orderly.release (h : Orderly id a) {unsent : List Publish} (hs : a.stage k = .failed unsent) :
    Orderly id (a.proceed k .restored a.broker) ∧
      Shifts id (Session.keepable unsent) [] a (a.proceed k .restored a.broker) ∧
      ∀ copy ∈ Session.keepable unsent, copy.IsCopy := by
  have hfits := h.fits k
  rw [hs] at hfits
  have hi := (hfits.served nofun nofun).1
  have hfresh : ∀ publish ∈ unsent, publish.IsFresh := fun publish hm =>
    hfits.fresh publish (List.mem_append_left _ hm)
  obtain ⟨ho, hshift⟩ : Orderly id (a.proceed k .restored a.broker) ∧
      Shifts id ((a.stage k).inHand.filterMap Publish.copy?) [] a
        (a.proceed k .restored a.broker) :=
    h.letGo (Broker.lt_size_of_clientId hi) (by rw [hs]; nofun) rfl
      fun _ _ => by rw [hs]; exact ⟨nofun, nofun⟩
  rw [hs] at hshift
  change Shifts id (unsent.filterMap Publish.copy?) [] _ _ at hshift
  rw [Session.filterMap_copy?_eq_keepable hfresh] at hshift
  exact ⟨ho, hshift, fun copy => Session.isCopy_of_mem_keepable hfresh⟩

/-- Copies that come back after the session was bound to another connection are forfeited. -/
lemma Orderly.forfeit {kept : List Publish} (h : Orderly id (a.proceed k .restored a.broker))
    (hshift : Shifts id kept [] a (a.proceed k .restored a.broker)) :
    Conserves id a
      { a.proceed k .restored a.broker with forfeited := a.forfeited ++ kept } := by
  have hforfeit : Shifts id kept [] a
      { a.proceed k .restored a.broker with forfeited := a.forfeited ++ kept } :=
    ⟨hshift.size, hshift.grown, hshift.shares⟩
  refine ⟨⟨h.bound, h.persistent, h.queued, h.fits⟩,
    hforfeit.accounts [] [] (List.append_nil _).symm (List.append_nil _).symm ?_⟩
  change ([] ++ a.broker.queueOf id ++ (a.forfeited ++ kept) ++ []).Perm _
  refine List.perm_iff_count.mpr fun copy => ?_
  simp only [List.count_append, List.count_nil]
  omega

/-- Copies that come back while the session is still bound to their connection are at the head of
its queue again. -/
lemma Orderly.restore {kept : List Publish} (h : Orderly id (a.proceed k .restored a.broker))
    (hshift : Shifts id kept [] a (a.proceed k .restored a.broker))
    (hkept : ∀ copy ∈ kept, copy.IsCopy) {session : Session}
    (hs : a.broker.session? id = some session) :
    Conserves id a (a.proceed k .restored
      (a.broker.setSession id { session with queue := kept ++ session.queue })) := by
  have hcopies : ∀ copy ∈ kept ++ session.queue, copy.IsCopy := fun copy hm => by
    rcases List.mem_append.mp hm with hm | hm
    · exact hkept copy hm
    · exact h.queued copy (Broker.queueOf_of_session? hs ▸ hm)
  have hrestored : Orderly id (a.proceed k .restored
      (a.broker.setSession id { session with queue := kept ++ session.queue })) :=
    Orderly.setQueue (a := a.proceed k .restored a.broker) h hs fun _ => hcopies
  have hback : Shifts id kept [] a (a.proceed k .restored
      (a.broker.setSession id { session with queue := kept ++ session.queue })) :=
    ⟨hshift.size, hshift.grown, hshift.shares⟩
  have hnext : (a.broker.setSession id { session with queue := kept ++ session.queue }).session? id =
      some { session with queue := kept ++ session.queue } := by
    rw [Broker.session?_setSession, if_pos rfl]
  refine ⟨hrestored, hback.accounts [] [] (List.append_nil _).symm (List.append_nil _).symm ?_⟩
  change ([] ++ (a.broker.setSession id _).queueOf id ++ a.forfeited ++ []).Perm _
  rw [Broker.queueOf_of_session? hnext, Broker.queueOf_of_session? hs]
  exact .refl _

/-- What was not written goes back to the head of the queue, unless the session has been bound to
another connection. -/
lemma Orderly.requeue (h : Orderly id a) {unsent : List Publish} (hs : a.stage k = .failed unsent) :
    Conserves id a (a.requeue id k unsent) := by
  obtain ⟨ho, hshift, hkept⟩ := h.release hs
  cases hb : a.broker.boundSession? id k with
  | none =>
    rw [a.requeue_of_overtaken id hb]
    exact ho.forfeit hshift
  | some session =>
    obtain ⟨hsession, -⟩ := Broker.boundSession?_eq_some.mp hb
    rw [a.requeue_of_bound id hb (h.persistent session hsession)]
    exact ho.restore hshift hkept hsession

/-- A transport that fails keeps what was written to it. -/
lemma Orderly.suffer (h : Orderly id a) (k : ConnectionId) (fault : Fault) :
    Conserves id a { a with broker := a.broker.perform (.fault k fault) } := by
  have hc : ((a.broker.connection k).transport.suffer fault).copies =
      (a.broker.connection k).transport.copies := by
    cases fault <;> rfl
  have hp : Broker.Pauses id a.broker (a.broker.modifyConnection k fun c =>
      { c with transport := c.transport.suffer fault }) :=
    Broker.pauses_modifyConnection ⟨rfl, fun hn => hn, fun _ => .inl, rfl, hc, .inl rfl⟩
  exact h.conserves hp

/-- What a step keeps, whoever takes it. -/
theorem Orderly.step (h : Orderly id a) (s : AdmissionStep) : Conserves id a (a.step id s) := by
  have hrefl : Conserves id a a := ⟨h, .refl id a⟩
  cases s with
  | bind k client will =>
    cases hs : a.stage k with
    | waiting =>
      simp only [Admissions.step, hs]
      split
      next hi => exact h.bind hs hi.1 hi.2 will
      next => exact hrefl
    | _ => simpa only [Admissions.step, hs] using hrefl
  | establish k =>
    cases hs : a.stage k with
    | bound outcome => simpa only [Admissions.step, hs] using h.establish hs
    | _ => simpa only [Admissions.step, hs] using hrefl
  | requeue k =>
    cases hs : a.stage k with
    | failed unsent => simpa only [Admissions.step, hs] using h.requeue hs
    | _ => simpa only [Admissions.step, hs] using hrefl
  | leave k =>
    cases hs : a.stage k with
    | restored => simpa only [Admissions.step, hs] using h.leave hs
    | _ => simpa only [Admissions.step, hs] using hrefl
  | publish publish => exact h.published publish
  | fault k fault => exact h.suffer k fault

/-- What any interleaving keeps. -/
theorem Orderly.run (h : Orderly id a) (steps : List AdmissionStep) :
    Conserves id a (a.run id steps) := by
  induction steps generalizing a with
  | nil => exact ⟨h, .refl id a⟩
  | cons s steps ih =>
    have hs := h.step s
    exact hs.trans (ih hs.orderly)

end steps

section outcome

/-- Nothing is on its way to a connection that is not being admitted. -/
lemma Orderly.share_eq (h : Orderly id a) (hs : (a.stage k).isUnderWay = false) :
    a.share id k = (a.broker.connection k).copiesFor id := by
  have hfits := h.fits k
  rw [share, Stage.pending]
  generalize a.stage k = stage at hs hfits ⊢
  cases stage with
  | waiting | done =>
    rw [(hfits.ready (by simp)).1]
    exact List.append_nil _
  | bound | failed | restored => cases hs

/-- At first there is order. -/
lemma Orderly.start (hc : b.Consistent) (hq : b.Carries fun _ => True)
    (hp : ∀ session, b.session? id = some session → session.clean = false) :
    Orderly id (start b) where
  bound := hc.bound
  persistent := hp
  queued publish hm := by
    change publish ∈ b.queueOf id at hm
    rw [Broker.queueOf] at hm
    cases hs : b.session? id with
    | none =>
      rw [hs] at hm
      cases hm
    | some session =>
      rw [hs] at hm
      exact ((hq.sessions id session hs).queued publish hm).1
  fits k := by
    have hr := hc.regular k
    have hw : ∀ state, (b.connection k).state = state → state ≠ .established → state ≠ .closed →
        (b.connection k).clientId = none ∧ (b.connection k).transport.copies = [] := by
      rintro state rfl he hc
      exact hr.waiting fun hb => hb.elim he hc
    refine ⟨hr.admitted, fun hs => hw _ hs (by simp) (by simp),
      fun _ => ⟨hr.held, fun hs => (hw _ hs (by simp) (by simp)).1⟩, fun hn => absurd rfl hn,
      fun publish hm => ?_⟩
    change publish ∈ (b.connection k).held at hm
    rw [hr.held] at hm
    cases hm

/-- Once no admission is under way, all copies have been written, or are queued, or are lost. -/
lemma Conserves.of_completed (h : Orderly id (start b)) (ha : Conserves id (start b) a)
    (hc : a.Completed) : ∃ routed displaced, ∃ written : ConnectionId → List Publish,
      a.broker.routedTo id = b.routedTo id ++ routed ∧
      a.broker.displacedFrom id = b.displacedFrom id ++ displaced ∧
      (∀ k, (a.broker.connection k).copiesFor id = (b.connection k).copiesFor id ++ written k) ∧
      (b.queueOf id ++ routed).Perm
        ((List.range b.connections.size).flatMap written ++ a.broker.queueOf id ++ displaced ++
          a.forfeited) := by
  obtain ⟨routed, displaced, hr, hd, hp⟩ := ha.accounts.balanced
  choose written hw using ha.accounts.grown
  refine ⟨routed, displaced, written, hr, hd, fun k => (hw k).symm, ?_⟩
  have hstart : (start b).shares id =
      (List.range b.connections.size).flatMap fun k => (b.connection k).copiesFor id :=
    List.flatMap_congr fun k _ => h.share_eq rfl
  have hend : a.shares id = (List.range b.connections.size).flatMap fun k =>
      (b.connection k).copiesFor id ++ written k := by
    rw [shares]
    have hz : a.broker.connections.size = b.connections.size := ha.accounts.size
    rw [← hz]
    exact List.flatMap_congr fun k hk =>
      (ha.orderly.share_eq (hc k (List.mem_range.mp hk))).trans (hw k).symm
  rw [hstart, hend] at hp
  have hsplit : ((List.range b.connections.size).flatMap (fun k => (b.connection k).copiesFor id) ++
      (List.range b.connections.size).flatMap written).Perm _ :=
    List.flatMap_append_perm _ _ _
  refine List.perm_iff_count.mpr fun copy => ?_
  have hc := hp.count_eq copy
  have hc' := hsplit.count_eq copy
  simp only [start, List.count_append, List.count_nil] at hc hc' ⊢
  omega

end outcome

end Admissions

namespace Broker
variable {b : Broker} {id : ClientId}

/-- However the admissions of a persistent client overlap, once they are completed its queue and
the copies routed to it meanwhile have been written to its connections, after what these had got
before, or are in its queue, or were pushed out of that, or are forfeited.  None are forfeited
unless publishes that were not written came back after another connection had been bound. -/
theorem overlapping_admissions_account_for_copies (h : b.Opened) {operations : List Operation}
    (ha : b.Allows (fun b operation => operation.IsDriven b) operations)
    (hp : ∀ session, (b.after operations).session? id = some session → session.clean = false)
    (steps : List AdmissionStep)
    (hc : ((Admissions.start (b.after operations)).run id steps).Completed) :
    let start := Admissions.start (b.after operations)
    let final := start.run id steps
    (∃ routed displaced, ∃ written : ConnectionId → List Publish,
      final.broker.routedTo id = start.broker.routedTo id ++ routed ∧
      final.broker.displacedFrom id = start.broker.displacedFrom id ++ displaced ∧
      (∀ k, (final.broker.connection k).copiesFor id =
        (start.broker.connection k).copiesFor id ++ written k) ∧
      (start.broker.queueOf id ++ routed).Perm
        ((List.range start.broker.connections.size).flatMap written ++ final.broker.queueOf id ++
          displaced ++ final.forfeited)) ∧
      ((∀ before s later, steps = before ++ s :: later →
        ¬ Admissions.IsOvertaken id (start.run id before) s) → final.forfeited = []) := by
  intro start final
  have hrespects : b.Allows (Operation.Respects fun _ => True) operations :=
    allows_iff.mpr fun before operation later he =>
      ⟨allows_iff.mp ha before operation later he, fun _ _ _ _ _ _ _ _ => trivial,
        fun _ _ _ _ _ _ => trivial⟩
  have hcarries : b.Carries fun _ => True := .of_opened h fun _ _ _ => trivial
  obtain ⟨hconsistent, hqueued⟩ := hcarries.after (.of_opened h) hrespects
  have ho : Admissions.Orderly id start := .start hconsistent hqueued hp
  exact ⟨(ho.run steps).of_completed ho hc, start.forfeited_run id⟩

/-- A client misses a message, and its transport breaks when it comes back.  It comes back once
more before the first connection is given up, and gets what was published in the meantime too. -/
theorem overlapping_admissions_account_for_copies_retry :
    let message (n : UInt8) : Publish := ⟨"a", [n], .atLeastOnce, false, false, none⟩
    let operations : List Operation := [.accept, .connect 0 ⟨"MQTT", 4, false, "c", none, none, none⟩,
      .event 0 (.packet (.subscribe 1 [("a", .atLeastOnce)])), .event 0 .transportClosed, .accept,
      .accept, .fault 1 (.breaks (1 ≤ ·))]
    let steps : List AdmissionStep := [.publish (message 1), .bind 1 (.anonymous "c") none,
      .publish (message 2), .establish 1, .requeue 1, .bind 2 (.anonymous "c") none, .leave 1,
      .establish 2]
    let start := (lenient {} .empty).after operations
    let final := (Admissions.start start).run "c" steps
    (lenient {} .empty).Opened ∧
      (lenient {} .empty).Allows (fun b operation => operation.IsDriven b) operations ∧
      (∀ session, start.session? "c" = some session → session.clean = false) ∧ final.Completed ∧
      final.forfeited = [] ∧
      ∃ written : ConnectionId → List Publish,
        (∀ k, (final.broker.connection k).copiesFor "c" =
          (start.connection k).copiesFor "c" ++ written k) ∧
        [message 1, message 2].Perm ((List.range 3).flatMap written) := by
  intro message operations steps start final
  have hp : (lenient {} .empty).Opened := opened_lenient {} .empty
  have ha : (lenient {} .empty).Allows (fun b operation => operation.IsDriven b) operations :=
    ⟨trivial, trivial, nofun, nofun, trivial, trivial, trivial, trivial⟩
  have hs : ∀ session, start.session? "c" = some session → session.clean = false := by
    have hn : ((start.session? "c").map (·.clean)).getD false = false := by decide +kernel
    intro session hs
    rw [hs] at hn
    exact hn
  have hc : final.Completed := by decide +kernel
  obtain ⟨⟨routed, displaced, written, hr, hd, hw, hcopies⟩, -⟩ :=
    overlapping_admissions_account_for_copies hp ha hs steps hc
  have hrouted : final.broker.routedTo "c" = [message 1, message 2] := by decide +kernel
  have hrouted' : start.routedTo "c" = [] := by decide +kernel
  have hdisplaced : final.broker.displacedFrom "c" = [] := by decide +kernel
  have hq : start.queueOf "c" = [] := by decide +kernel
  have hq' : final.broker.queueOf "c" = [] := by decide +kernel
  have hf : final.forfeited = [] := by decide +kernel
  have hz : start.connections.size = 3 := by decide +kernel
  refine ⟨hp, ha, hs, hc, hf, written, hw, ?_⟩
  rw [hrouted, Admissions.broker_start, hrouted', List.nil_append] at hr
  rw [hdisplaced] at hd
  obtain ⟨-, hd⟩ := List.append_eq_nil_iff.mp hd.symm
  rw [Admissions.broker_start, hq, ← hr, hz, hq', hd, hf] at hcopies
  simpa using hcopies

/-- A client comes back on two connections at once.  The replay was handed to the first one, which
the second one evicts, so it is not written; when it comes back the session is another's. -/
theorem overlapping_admissions_forfeit_copy :
    let message : Publish := ⟨"a", [1], .atLeastOnce, false, false, none⟩
    let operations : List Operation := [.accept, .connect 0 ⟨"MQTT", 4, false, "c", none, none, none⟩,
      .event 0 (.packet (.subscribe 1 [("a", .atLeastOnce)])), .event 0 .transportClosed, .accept,
      .connect 1 ⟨"MQTT", 4, true, "p", none, none, none⟩,
      .event 1 (.packet (.publish { message with id := some 7 })), .accept, .accept]
    let steps : List AdmissionStep := [.bind 2 (.anonymous "c") none,
      .bind 3 (.anonymous "c") none, .establish 2, .requeue 2, .leave 2, .establish 3]
    let start := (lenient {} .empty).after operations
    let final := (Admissions.start start).run "c" steps
    (lenient {} .empty).Allows (fun b operation => operation.IsDriven b) operations ∧
      (start.session? "c").map (·.clean) = some false ∧ final.Completed ∧
      start.queueOf "c" = [message] ∧ final.broker.routedTo "c" = start.routedTo "c" ∧
      final.broker.displacedFrom "c" = [] ∧ final.broker.queueOf "c" = [] ∧
      (∀ k < final.broker.connections.size, (final.broker.connection k).transport.copies = []) ∧
      final.forfeited = [message] := by
  intro message operations steps start final
  refine ⟨⟨trivial, trivial, nofun, nofun, trivial, trivial, nofun, trivial, trivial, trivial⟩, ?_⟩
  decide +kernel

end Broker
end MqttBroker
