import MqttBroker.Proofs.Broker.Consistency
import MqttBroker.Proofs.Session.Queue

/-!
What becomes of the copies that are routed to a persistent client: each is written to one of its
connections, or queued, or pushed out of the queue, and their order is kept.
-/
namespace MqttBroker

namespace Episode

def connection? : Episode → Option ConnectionId
  | bound k => some k
  | routed _ _ => none

/-- Copies that are sent at most once are not counted. -/
def copy? : Episode → Option Publish
  | bound _ => none
  | routed copy _ => if copy.qos = .atMostOnce then none else some copy

def displaced? : Episode → Option Publish
  | bound _ => none
  | routed _ displaced => displaced

end Episode

namespace Broker
variable (b : Broker) (id : ClientId)

/-- The copies routed to a client's session since its first CONNECT. -/
def routedTo : List Publish := (b.history id).filterMap Episode.copy?

/-- The copies pushed out of the queue of a client's session. -/
def displacedFrom : List Publish := (b.history id).filterMap Episode.displaced?

/-- The connections that a client's session was bound to, one after the other. -/
def connectionsOf : List ConnectionId := (b.history id).filterMap Episode.connection?

/-- The copies written to the transports of a client, one transport after the other. -/
def deliveredTo : List Publish :=
  (b.connectionsOf id).flatMap fun k => (b.connection k).transport.copies

def queueOf : List Publish := ((b.session? id).map (·.queue)).getD []

/-- How a persistent client is served. -/
structure Lane : Prop where
  persistent : ∀ session, b.session? id = some session → session.clean = false
  copies : ∀ publish ∈ b.queueOf id, publish.IsCopy
  unseen : b.session? id = none → b.history id = []
  steady : ∀ k, (b.connection k).clientId = some id →
    (b.connection k).clean = false ∧ (b.connection k).transport.Permanent
  newest : ∀ session k, b.session? id = some session → session.connection = some k →
    ∃ earlier, b.connectionsOf id = earlier ++ [k] ∧ k ∉ earlier
  /-- Nothing is queued while the connection works. -/
  stalled : ∀ session k, b.session? id = some session → session.connection = some k →
    session.queue ≠ [] → (b.connection k).Stopped

/-- What was routed to a persistent client and not pushed out of its queue was delivered, in the
same order, before all that is still queued.  It was delivered after what had been in the past. -/
structure Flow (past : List Publish) : Prop extends Lane b id where
  grown : past <+: b.deliveredTo id
  balanced : ∃ settled, b.routedTo id = settled ++ b.queueOf id ∧
    Interleaves (b.deliveredTo id) (b.displacedFrom id) settled

/-- A client's session keeps its queue, if there is one. -/
def LeavesQueue (b b' : Broker) (id : ClientId) : Prop :=
  (b.session? id = none ∧ b'.session? id = none) ∨
    ∃ session next, b.session? id = some session ∧ b'.session? id = some next ∧ session.Left next

variable {b} {b' : Broker} {id} {past : List Publish} {k : ConnectionId} {session : Session}
  {publish : Publish}

lemma queueOf_of_session? (hs : b.session? id = some session) : b.queueOf id = session.queue := by
  rw [queueOf, hs, Option.map_some, Option.getD_some]

/-- All that is queued for a persistent client is replayed if it comes back as one. -/
lemma backlog_eq_queueOf (h : ∀ session, b.session? id = some session → session.clean = false) :
    b.backlog false id = b.queueOf id := by
  unfold backlog queueOf
  cases hs : b.session? id with
  | none => rfl
  | some session =>
    have hr : session.isReset false = false := by
      rw [Session.isReset, h session hs, Bool.or_self, Bool.and_false]
    rw [Option.map_some, Option.map_some, hr, if_neg nofun]

lemma mem_connectionsOf : k ∈ b.connectionsOf id ↔ .bound k ∈ b.history id := by
  simp only [connectionsOf, List.mem_filterMap]
  constructor
  · rintro ⟨_ | _, he, hk⟩ <;> cases hk
    exact he
  · exact fun he => ⟨_, he, rfl⟩

section note
variable (copy : Publish) (displaced : Option Publish)

lemma filterMap_note {α : Type} (f : Episode → Option α) (episode : Episode) :
    ((b.note id episode).history id).filterMap f =
      (b.history id).filterMap f ++ (f episode).toList := by
  rw [history_note, if_pos rfl, List.filterMap_append]
  cases he : f episode <;> simp [he]

lemma routedTo_note : (b.note id (.routed copy displaced)).routedTo id =
    b.routedTo id ++ (if copy.qos = .atMostOnce then none else some copy).toList :=
  filterMap_note _ _

lemma displacedFrom_note : (b.note id (.routed copy displaced)).displacedFrom id =
    b.displacedFrom id ++ displaced.toList :=
  filterMap_note _ _

lemma connectionsOf_note :
    (b.note id (.routed copy displaced)).connectionsOf id = b.connectionsOf id :=
  (filterMap_note _ _).trans (List.append_nil _)

lemma deliveredTo_note :
    (b.note id (.routed copy displaced)).deliveredTo id = b.deliveredTo id := by
  rw [deliveredTo, connectionsOf_note]
  rfl

end note

/-- Copies are only delivered on connections of the client. -/
lemma deliveredTo_congr (hc : b.Consistent) (hh : b'.history id = b.history id)
    (h : ∀ k, (b.connection k).clientId = some id →
      (b'.connection k).transport.copies = (b.connection k).transport.copies) :
    b'.deliveredTo id = b.deliveredTo id := by
  rw [deliveredTo, deliveredTo, connectionsOf, hh]
  exact List.flatMap_congr fun k hk => h k (hc.noted id k (mem_connectionsOf.mp hk))

section leavesQueue

lemma leavesQueue_of_eq (h : b'.session? id = b.session? id) : b.LeavesQueue b' id := by
  unfold LeavesQueue
  rw [h]
  cases b.session? id with
  | none => exact .inl ⟨rfl, rfl⟩
  | some session => exact .inr ⟨session, session, rfl, rfl, .refl session⟩

lemma leavesQueue_setSession {other : ClientId} (hs : b.session? other = some session)
    (next : Session) (hn : session.Left next) (id : ClientId) :
    b.LeavesQueue (b.setSession other next) id := by
  by_cases ho : other = id
  · subst ho
    exact .inr ⟨session, next, hs, by rw [session?_setSession, if_pos rfl], hn⟩
  · refine leavesQueue_of_eq ?_
    rw [session?_setSession, if_neg ho]

lemma LeavesQueue.queueOf_eq (h : b.LeavesQueue b' id) : b'.queueOf id = b.queueOf id := by
  obtain ⟨hn, hn'⟩ | ⟨session, next, hs, hs', hl⟩ := h
  · rw [queueOf, queueOf, hn, hn']
  · rw [queueOf_of_session? hs, queueOf_of_session? hs', hl.queue]

lemma LeavesQueue.exists_left (h : b.LeavesQueue b' id) {next : Session}
    (hn : b'.session? id = some next) : ∃ session, b.session? id = some session ∧
      session.Left next := by
  obtain ⟨-, hn'⟩ | ⟨session, next', hs, hs', hl⟩ := h
  · rw [hn] at hn'
    cases hn'
  · rw [hn] at hs'
    cases hs'
    exact ⟨session, hs, hl⟩

lemma LeavesQueue.eq_none (h : b.LeavesQueue b' id) (hn : b'.session? id = none) :
    b.session? id = none := by
  obtain ⟨hn', -⟩ | ⟨session, next, -, hs, -⟩ := h
  · exact hn'
  · rw [hn] at hs
    cases hs

end leavesQueue

section onward
variable (hc : b.Consistent) (hh : b'.history id = b.history id) (hs : b.LeavesQueue b' id)
  (hk : ∀ k, (b'.connection k).clientId = some id → (b.connection k).clientId = some id)
  (ho : ∀ k, (b.connection k).clientId = some id →
    (b.connection k).Onward (b'.connection k) ∧
      ((b.connection k).transport.Permanent → (b'.connection k).transport.Permanent))
include hc hh hs hk ho

lemma Lane.onward (h : b.Lane id) : b'.Lane id := by
  refine ⟨fun next hn => ?_, ?_, fun hn => ?_, fun k hi => ?_, fun next k hn hi => ?_,
    fun next k hn hi hq => ?_⟩
  · obtain ⟨session, hs, hl⟩ := hs.exists_left hn
    exact hl.clean.trans (h.persistent session hs)
  · rw [hs.queueOf_eq]
    exact h.copies
  · rw [hh]
    exact h.unseen (hs.eq_none hn)
  · have hi := hk k hi
    obtain ⟨hn, hp⟩ := h.steady k hi
    exact ⟨(ho k hi).1.clean.trans hn, (ho k hi).2 hp⟩
  · obtain ⟨session, hs, hl⟩ := hs.exists_left hn
    rw [connectionsOf, hh]
    exact h.newest session k hs (hl.connection k hi)
  · obtain ⟨session, hs, hl⟩ := hs.exists_left hn
    have hi := hl.connection k hi
    rw [hl.queue] at hq
    exact (ho k (hc.bound id session k hs hi)).1.stopped (h.stalled session k hs hi hq)

/-- Steps that touch neither the queue nor the history, and bring connections nearer to their
end. -/
lemma Flow.onward (h : b.Flow id past) : b'.Flow id past where
  toLane := h.toLane.onward hc hh hs hk ho
  grown := by
    rw [deliveredTo_congr hc hh fun k hi => (ho k hi).1.copies]
    exact h.grown
  balanced := by
    obtain ⟨settled, hr, hd⟩ := h.balanced
    refine ⟨settled, ?_, ?_⟩
    · rw [hs.queueOf_eq, routedTo, hh]
      exact hr
    · rw [deliveredTo_congr hc hh fun k hi => (ho k hi).1.copies, displacedFrom, hh]
      exact hd

end onward

namespace Flow

lemma sameConnections (h : b.Flow id past) (hc : b.Consistent) (hh : b'.history id = b.history id)
    (hs : b.LeavesQueue b' id) (he : ∀ k, b'.connection k = b.connection k) : b'.Flow id past := by
  refine h.onward hc hh hs (fun k => ?_) fun k _ => ?_ <;> rw [he]
  · exact fun hi => hi
  · exact ⟨.refl _, fun hp => hp⟩

lemma modifyConnection (h : b.Flow id past) (hc : b.Consistent) {change : Connection → Connection}
    (ho : (b.connection k).Onward (change (b.connection k)))
    (hp : (b.connection k).clientId = some id → (b.connection k).transport.Permanent →
      (change (b.connection k)).transport.Permanent) :
    (b.modifyConnection k change).Flow id past := by
  have hr := modifyConnection_rel (b := b) (k := k) (P := fun c d => c.Onward d ∧
    (c.clientId = some id → c.transport.Permanent → d.transport.Permanent))
    (fun c => ⟨.refl c, fun _ hp => hp⟩) ⟨ho, hp⟩
  refine h.onward hc rfl (leavesQueue_of_eq rfl) (fun j hi => ?_) fun j hi => ?_
  · rw [← (hr j).1.clientId]
    exact hi
  · exact ⟨(hr j).1, (hr j).2 hi⟩

end Flow

section route

lemma Lane.noteRouted (h : b.Lane id) (hs : b.session? id = some session) (copy : Publish)
    (displaced : Option Publish) : (b.note id (.routed copy displaced)).Lane id where
  persistent := h.persistent
  copies := h.copies
  unseen hn := by
    rw [session?_note, hs] at hn
    cases hn
  steady := h.steady
  newest := by
    rw [connectionsOf_note]
    exact h.newest
  stalled := h.stalled

/-- A copy that is sent at most once may be lost. -/
lemma Flow.noteDropped (h : b.Flow id past) (hs : b.session? id = some session)
    (hq : publish.qos = .atMostOnce) : (b.note id (.routed publish none)).Flow id past where
  toLane := h.noteRouted hs publish none
  grown := by
    rw [deliveredTo_note]
    exact h.grown
  balanced := by
    obtain ⟨settled, hr, hd⟩ := h.balanced
    refine ⟨settled, ?_, ?_⟩
    · rw [routedTo_note, if_pos hq]
      exact (List.append_nil _).trans hr
    · rw [deliveredTo_note, displacedFrom_note]
      exact (List.append_nil (b.displacedFrom id)).symm ▸ hd

/-- A copy is queued if the connection of the session does not work. -/
lemma Flow.enqueue (h : b.Flow id past) (hs : b.session? id = some session) (hp : publish.IsCopy)
    (hk : ∀ k, session.connection = some k → (b.connection k).Stopped) (max : Nat) :
    ((b.setSession id (session.enqueue max publish)).note id
      (.routed publish (session.displacedBy max publish))).Flow id past := by
  have hd := session.enqueue_displacedBy max publish
  set queued := b.setSession id (session.enqueue max publish) with hb
  have hn : queued.session? id = some (session.enqueue max publish) := by
    rw [hb, session?_setSession, if_pos rfl]
  have hq := queueOf_of_session? hs
  have hq' := queueOf_of_session? hn
  have hl : queued.Lane id := by
    refine ⟨fun next hs' => ?_, fun copy hm => ?_, fun hn' => ?_, h.steady, fun next k hs' hi => ?_,
      fun next k hs' hi _ => ?_⟩
    · rw [hn] at hs'
      cases hs'
      exact h.persistent session hs
    · have hm : copy ∈ session.queue ++ [publish] := by
        rw [← hd]
        exact List.mem_append_right _ (hq' ▸ hm)
      rcases List.mem_append.mp hm with hm | hm
      · exact h.copies copy (hq ▸ hm)
      · cases List.mem_singleton.mp hm
        exact hp
    · rw [hn] at hn'
      cases hn'
    · rw [hn] at hs'
      cases hs'
      exact h.newest session k hs hi
    · rw [hn] at hs'
      cases hs'
      exact hk k hi
  refine ⟨hl.noteRouted hn _ _, ?_, ?_⟩
  · rw [deliveredTo_note]
    exact h.grown
  obtain ⟨settled, hr, hi⟩ := h.balanced
  refine ⟨settled ++ (session.displacedBy max publish).toList, ?_, ?_⟩
  · change _ = _ ++ queued.queueOf id
    rw [routedTo_note, if_neg hp.qos, hq', List.append_assoc, hd, ← List.append_assoc, ← hq, ← hr]
    rfl
  · rw [deliveredTo_note, displacedFrom_note]
    change Interleaves (b.deliveredTo id) (b.displacedFrom id ++ _) _
    have ha := hi.append (interleaves_right (session.displacedBy max publish).toList)
    rwa [List.append_nil] at ha

lemma Flow.queue_eq_nil (h : b.Flow id past) (hs : b.session? id = some session)
    (hk : session.connection = some k) (hn : ¬ (b.connection k).Stopped) : session.queue = [] := by
  by_contra hq
  exact hn (h.stalled session k hs hk hq)

/-- A copy is written to the connection that is bound last, and nothing is queued meanwhile. -/
lemma Flow.deliver (h : b.Flow id past) (hc : b.Consistent) (hs : b.session? id = some session)
    (hk : session.connection = some k) (hp : publish.IsCopy) {change : Connection → Connection}
    (hw : Connection.Wrote [publish] (b.connection k) (change (b.connection k)))
    (hn : ¬ (b.connection k).Stopped) :
    ((b.modifyConnection k change).note id (.routed publish none)).Flow id past := by
  have hi := hc.bound id session k hs hk
  have hq := h.queue_eq_nil hs hk hn
  obtain ⟨earlier, he, hne⟩ := h.newest session k hs hk
  set written := b.modifyConnection k change with hb
  have hself : written.connection k = change (b.connection k) := by
    rw [hb, connection_modifyConnection _ (lt_size_of_clientId hi), if_pos rfl]
  have hother : ∀ j, k ≠ j → written.connection j = b.connection j :=
    fun j hj => connection_modifyConnection_of_ne _ hj
  have hd : written.deliveredTo id = b.deliveredTo id ++ [publish] := by
    have hc : written.connectionsOf id = b.connectionsOf id := rfl
    have hf : earlier.flatMap (fun j => (written.connection j).transport.copies) =
        earlier.flatMap fun j => (b.connection j).transport.copies :=
      List.flatMap_congr fun j hj => by rw [hother j fun he => hne (he ▸ hj)]
    rw [deliveredTo, deliveredTo, hc, he, List.flatMap_append, List.flatMap_append, hf]
    simp [hself, hw.copies]
  have hl : written.Lane id := by
    refine ⟨h.persistent, h.copies, h.unseen, fun j hj => ?_, h.newest, fun next j hs' hj hq' => ?_⟩
    · by_cases hkj : k = j
      · subst hkj
        rw [hself, hw.kept.clean]
        exact ⟨(h.steady k hi).1, hw.permanent (h.steady k hi).2⟩
      · rw [hother j hkj] at hj ⊢
        exact h.steady j hj
    · have hs'' : b.session? id = some next := hs'
      rw [hs] at hs''
      cases hs''
      exact absurd hq hq'
  refine ⟨hl.noteRouted hs publish none, ?_, ?_⟩
  · rw [deliveredTo_note, hd]
    exact h.grown.trans (List.prefix_append _ _)
  obtain ⟨settled, hr, hi⟩ := h.balanced
  have hb' : b.queueOf id = [] := (queueOf_of_session? hs).trans hq
  refine ⟨settled ++ [publish], ?_, ?_⟩
  · change _ = _ ++ b.queueOf id
    rw [routedTo_note, if_neg hp.qos, hb', List.append_nil]
    rw [hb', List.append_nil] at hr
    exact congrArg (· ++ [publish]) hr
  · rw [deliveredTo_note, displacedFrom_note, hd]
    exact hi.append (interleaves_left [publish])

/-- What becomes of a copy for the client itself. -/
lemma Flow.routeSelf (h : b.Flow id past) (hc : b.Consistent) (publish : Publish) (granted : QoS) :
    (b.route id (publish.copyFor granted)).2.Flow id past := by
  cases hs : b.session? id with
  | none =>
    rw [route_of_none _ hs]
    exact h
  | some session =>
    -- a copy that was not delivered is queued or lost
    have hu : ∀ tried : Broker, tried.Flow id past → tried.session? id = some session →
        (∀ k, session.connection = some k → (tried.connection k).Stopped) →
        b.tryDeliver session (publish.copyFor granted) = (false, tried) →
        (b.route id (publish.copyFor granted)).2.Flow id past := by
      intro tried ht hs' hk hd
      obtain ⟨hq, he⟩ | ⟨-, -, hq, max, -, he⟩ := route_cases (publish.copyFor granted) hs <;>
        rw [he, hd]
      · rw [h.persistent session hs, hd] at hq
        exact ht.noteDropped hs' (by simpa using hq)
      · exact ht.enqueue hs' (Publish.isCopy_copyFor hq) hk max
    obtain ⟨hk, he⟩ | ⟨k, hk, hd, hr⟩ := tryDeliver_cases (publish.copyFor granted) b session
    · refine hu b h hs (fun k hk' => ?_) he
      rw [hk] at hk'
      cases hk'
    have hi := hc.bound id session k hs hk
    obtain ⟨ho, hw, hn⟩ | ⟨ho, hw, hn⟩ :=
      Connection.deliver_begun (hc.begun hi) (publish.copyFor granted)
    · obtain ⟨-, he⟩ | ⟨hf, -⟩ := route_cases (publish.copyFor granted) hs
      · rw [he, hd]
        by_cases hq : (publish.copyFor granted).qos = .atMostOnce
        · rw [show (publish.copyFor granted).copy? = none by simp [Publish.copy?, hq]] at hw
          exact (h.modifyConnection hc hw.onward fun _ => hw.permanent).noteDropped hs hq
        · rw [(Publish.isCopy_copyFor hq).copy?_eq] at hw
          exact h.deliver hc hs hk (Publish.isCopy_copyFor hq) hw (hn (h.steady k hi).2)
      · rw [hr.mpr ho] at hf
        cases hf
    · refine hu (b.modifyConnection k fun c => (c.deliver (publish.copyFor granted)).2)
        (h.modifyConnection hc hw.onward fun _ => hw.permanent) hs (fun j hj => ?_)
        (Prod.ext (by simpa using mt hr.mp ho) hd)
      rw [hk] at hj
      cases hj
      rw [connection_modifyConnection _ (lt_size_of_clientId hi), if_pos rfl]
      exact hn (hc.regular k).sound

/-- Copies for others go to other connections. -/
lemma Flow.routeOther (h : b.Flow id past) (hc : b.Consistent) {other : ClientId} (ho : other ≠ id)
    (publish : Publish) : (b.route other publish).2.Flow id past := by
  obtain ⟨hs, hh⟩ := route_of_ne (b := b) ho publish
  have hk : ∀ k, (b.connection k).clientId = some id →
      (b.route other publish).2.connection k = b.connection k := by
    intro k
    refine route_rel publish (P := fun c d => c.clientId = some id → d = c) (fun _ _ => rfl) k ?_
    intro session hs hk hi
    rw [hc.bound other session k hs hk] at hi
    exact absurd (Option.some.inj hi) ho
  refine h.onward hc hh (leavesQueue_of_eq hs) (fun k hi => ?_) fun k hi => ?_
  · rwa [(steady_route other publish k).clientId] at hi
  · rw [hk k hi]
    exact ⟨.refl _, fun hp => hp⟩

end route

namespace Flow

lemma setSession (h : b.Flow id past) (hc : b.Consistent) {other : ClientId}
    (hs : b.session? other = some session) {next : Session} (hn : session.Left next) :
    (b.setSession other next).Flow id past :=
  h.sameConnections hc rfl (leavesQueue_setSession hs next hn id) fun _ => rfl

lemma chore (h : b.Flow id past) (hc : b.Consistent) (hs : Chore k b b') : b'.Flow id past := by
  cases hs with
  | books => exact h.sameConnections hc rfl (leavesQueue_of_eq rfl) fun _ => rfl
  | send hp =>
    have hw := Connection.wrote_control hp (b.connection k)
    exact h.modifyConnection hc hw.onward fun _ => hw.permanent
  | close => exact h.modifyConnection hc (Connection.onward_close _) fun _ hp => hp.close
  | advance hs ht =>
    rw [setState_snd]
    refine h.modifyConnection hc (Connection.onward_transition hs ht _) fun _ hp => ?_
    unfold Connection.transition
    split <;> exact hp

lemma serve {actor : Option ClientId} (h : b.Flow id past) (hc : b.Consistent)
    (hs : Service k actor b b')
    (ha : ∀ other, actor = some other → (b.connection k).clientId = some other) :
    b'.Flow id past := by
  cases hs with
  | chore hs => exact h.chore hc hs
  | deliver hp =>
    have hw := Connection.wrote_deliver_retained hp (hc.begun (ha _ rfl))
    exact h.modifyConnection hc hw.onward fun _ => hw.permanent
  | retain publish =>
    exact h.sameConnections hc (by rw [history_retain]) (leavesQueue_of_eq (session?_retain publish))
      fun _ => connection_retain publish
  | route other publish granted =>
    by_cases ho : other = id
    · exact ho ▸ h.routeSelf hc publish granted
    · exact h.routeOther hc ho _
  | subscribe client filter qos =>
    obtain ⟨calls, he | ⟨session, granted, hs, -, -, he⟩⟩ :=
      subscribe_cases filter b client k qos <;> rw [he]
    · exact h.sameConnections hc rfl (leavesQueue_of_eq rfl) fun _ => rfl
    · have hl := leavesQueue_setSession hs { session with
        subscriptions := session.subscriptions.insert filter granted } ⟨rfl, rfl, fun _ hk => hk⟩ id
      exact h.sameConnections hc rfl hl fun _ => rfl
  | unsubscribe other filter =>
    obtain he | ⟨session, calls, hs, -, he⟩ := unsubscribe_cases filter b other k <;> rw [he]
    · exact h
    · have hl := leavesQueue_setSession hs { session with
        subscriptions := session.subscriptions.erase filter } ⟨rfl, rfl, fun _ hk => hk⟩ id
      exact h.sameConnections hc rfl hl fun _ => rfl

/-- What one move of an actor keeps. -/
theorem move {actor : Option ClientId} (h : b.Flow id past) (hc : b.Consistent)
    (hm : Move k actor b b')
    (ha : ∀ other, actor = some other → (b.connection k).clientId = some other) :
    b'.Flow id past := by
  cases hm with
  | serve hs => exact h.serve hc hs ha
  | forget => exact h.modifyConnection hc (Connection.onward_forget _) fun _ hp => hp
  | noteFired will =>
    exact h.modifyConnection hc (Connection.onward_noteFired will _) fun _ hp => hp
  | takeWill other =>
    obtain he | ⟨session, hs, he⟩ := takeWill_cases b other k <;> rw [he]
    · exact h
    · exact h.setSession hc hs ⟨rfl, rfl, fun _ hk => hk⟩
  | unbind other =>
    obtain ⟨-, he⟩ | ⟨session, hs, -, he⟩ := unbind_cases b other k (b.connection k).clean <;>
      rw [he]
    · exact h
    · by_cases ho : other = id
      · subst ho
        rw [(h.steady k (ha _ rfl)).1, if_neg nofun]
        exact h.setSession hc hs ⟨rfl, rfl, nofun⟩
      · split
        · refine h.sameConnections hc (by rw [history_teardown]) (leavesQueue_of_eq ?_)
            fun _ => connection_teardown session
          rw [session?_teardown, if_neg ho]
        · exact h.setSession hc hs ⟨rfl, rfl, nofun⟩

theorem moves {actor : Option ClientId} (h : b.Flow id past) (hc : b.Consistent)
    (hm : Moves k actor b b')
    (ha : ∀ other, actor = some other → (b.connection k).clientId = some other) :
    b'.Flow id past := by
  induction hm with
  | refl => exact h
  | tail hm hs ih =>
    exact ih.move (hc.moves hm ha) hs fun other ho =>
      (Moves.kept hm k).clientId.trans (ha other ho)

end Flow
end Broker
end MqttBroker
