import MqttBroker.Proofs.Broker.Mirror
import MqttBroker.Proofs.Broker.SingleOwner
import MqttBroker.Proofs.Retained

/-!
The fan-out of a publish.  Each client that the topic reaches gets one copy, and what becomes of it
depends on the client's session and on the connection of that session alone; so it does not matter
in which order the clients are served.
-/
namespace MqttBroker
open Subscription

/-- What becomes of a copy of a publish. -/
inductive Fate where
  | written
  | held
  | queued
  | dropped
  deriving DecidableEq

/-- The broker does not tell what is held from what is written. -/
def Fate.route : Fate → Route
  | written | held => .delivered
  | queued => .queued
  | dropped => .dropped

namespace Connection

/-- One copy was written.  It got a packet identifier unless it is sent at most once. -/
def Carries (c : Connection) (copy : Publish) (d : Connection) : Prop :=
  ∃ id nextId, (id = none ↔ copy.qos = .atMostOnce) ∧
    d = { c with nextId, transport := { c.transport with
      attempts := c.transport.attempts + 1
      written := c.transport.written.push (.publish { copy with id }) } }

/-- The copy is held until the connection is established. -/
def hold (copy : Publish) (c : Connection) : Connection := { c with held := c.held ++ [copy] }

/-- Nothing was written, though that may have been tried. -/
def Unwritten (c d : Connection) : Prop :=
  ∃ nextId attempts, d = { c with nextId, transport := { c.transport with attempts } }

variable {c : Connection}

lemma send_carries (c : Connection) (packet : Packet) :
    (¬ c.transport.Fails ∧ (c.send packet).1 = .ok () ∧
      (c.send packet).2 = { c with transport := { c.transport with
        attempts := c.transport.attempts + 1, written := c.transport.written.push packet } }) ∨
    (c.transport.Fails ∧ (c.send packet).1 ≠ .ok () ∧
      (c.send packet).2 = { c with transport := { c.transport with
        attempts := c.transport.attempts + 1 } }) := by
  unfold send
  obtain ⟨hf, he⟩ | ⟨hf, error, he⟩ := c.transport.send_cases packet <;> rw [he]
  · exact .inl ⟨hf, rfl, rfl⟩
  · exact .inr ⟨hf, by simp, rfl⟩

/-- An established connection writes a copy unless its transport fails. -/
lemma deliver_established (hs : c.state = .established) (copy : Publish) :
    (¬ c.transport.Fails ∧ (c.deliver copy).1 = .ok () ∧ c.Carries copy (c.deliver copy).2) ∨
    (c.transport.Fails ∧ (c.deliver copy).1 ≠ .ok () ∧ c.Unwritten (c.deliver copy).2) := by
  have he : c.deliver copy = c.writePublish copy := by simp only [deliver, hs]
  obtain ⟨id, nextId, hi, hw⟩ : ∃ id nextId, (id = none ↔ copy.qos = .atMostOnce) ∧
      c.writePublish copy = { c with nextId }.send (.publish { copy with id }) := by
    unfold writePublish
    split
    next hq => exact ⟨none, c.nextId, by simp [hq], rfl⟩
    next hq =>
      obtain ⟨id, nextId, ha⟩ := c.allocateId_eq
      rw [ha]
      exact ⟨some id, nextId, by simpa using hq, rfl⟩
  rw [he, hw]
  obtain ⟨hf, hr, hc⟩ | ⟨hf, hr, hc⟩ :=
    ({ c with nextId } : Connection).send_carries (.publish { copy with id })
  · exact .inl ⟨hf, hr, id, nextId, hi, hc⟩
  · exact .inr ⟨hf, hr, nextId, _, hc⟩

lemma deliver_binding (hs : c.state = .binding) (copy : Publish) :
    c.deliver copy = (.ok (), c.hold copy) := by
  simp only [deliver, hs, hold]

lemma deliver_elsewhere (he : c.state ≠ .established) (hb : c.state ≠ .binding) (copy : Publish) :
    c.deliver copy = (.error .notEstablished, c) := by
  unfold deliver
  split
  next hs => exact absurd hs he
  next hs => exact absurd hs hb
  next => rfl

end Connection

namespace Broker

variable {b b' b'' : Broker} {id : ClientId} {k : ConnectionId} {session : Session} {copy : Publish}

section fate

/-- The connection of a session; one that is closed stands for none. -/
def connectionOf (b : Broker) (session : Session) : Connection :=
  (session.connection.map b.connection).getD .absent

/-- What is to become of a copy for a session.  Its connection takes it, or else it waits for a
persistent client, unless it is sent at most once. -/
def fate (b : Broker) (session : Session) (copy : Publish) : Fate :=
  let c := b.connectionOf session
  if c.state = .established ∧ ¬ c.transport.Fails then .written
  else if c.state = .binding then .held
  else if session.clean = false ∧ copy.qos ≠ .atMostOnce then .queued
  else .dropped

/-- A copy for the session of a client was disposed of in some way; it did not leave other traces in
the session and on its connection. -/
inductive Disposed (b b' : Broker) (id : ClientId) (session : Session) (copy : Publish) :
    Fate → Prop
  | written {k : ConnectionId} (hk : session.connection = some k) (hs : b'.session? id = some session)
    (hc : (b.connection k).Carries copy (b'.connection k)) :
    Disposed b b' id session copy .written
  | held {k : ConnectionId} (hk : session.connection = some k) (hs : b'.session? id = some session)
    (hc : b'.connection k = (b.connection k).hold copy) : Disposed b b' id session copy .held
  | queued (hs : b'.session? id = some { session with
      queue :=
        let queue := session.queue ++ [copy]
        if b.config.session.maxQueuedMessages < queue.length then queue.tail else queue })
    (hc : ∀ k, session.connection = some k → (b.connection k).Unwritten (b'.connection k)) :
    Disposed b b' id session copy .queued
  | dropped (hs : b'.session? id = some session)
    (hc : ∀ k, session.connection = some k → (b.connection k).Unwritten (b'.connection k)) :
    Disposed b b' id session copy .dropped

lemma connectionOf_of_connection (hk : session.connection = some k) :
    b.connectionOf session = b.connection k := by
  rw [connectionOf, hk, Option.map_some, Option.getD_some]

/-- A connection that was never accepted delivers nothing. -/
lemma connection_deliver (b : Broker) (k : ConnectionId) (copy : Publish) :
    (b.modifyConnection k fun c => (c.deliver copy).2).connection k =
      ((b.connection k).deliver copy).2 := by
  by_cases hk : k < b.connections.size
  · rw [connection_modifyConnection _ hk, if_pos rfl]
  · rw [modifyConnection_absent _ hk, connection_of_not_lt hk]
    rfl

lemma connection_tryDeliver (hk : session.connection = some k) (copy : Publish) :
    (b.tryDeliver session copy).2.connection k = ((b.connection k).deliver copy).2 := by
  obtain ⟨hn, -⟩ | ⟨j, hj, he, -⟩ := tryDeliver_cases copy b session
  · rw [hn] at hk
    cases hk
  · obtain rfl : j = k := Option.some.inj (hj.symm.trans hk)
    rw [he]
    exact b.connection_deliver j copy

/-- What the connection of the session does with the copy. -/
lemma tryDeliver_fate (b : Broker) (session : Session) (copy : Publish) :
    ((b.tryDeliver session copy).1 = true ∧ ∃ k, session.connection = some k ∧
      (b.fate session copy = .written ∧
          (b.connection k).Carries copy ((b.connection k).deliver copy).2 ∨
        b.fate session copy = .held ∧
          ((b.connection k).deliver copy).2 = (b.connection k).hold copy)) ∨
    ((b.tryDeliver session copy).1 = false ∧
      (b.fate session copy = if session.clean = false ∧ copy.qos ≠ .atMostOnce then .queued
        else .dropped) ∧
      ∀ k, session.connection = some k →
        (b.connection k).Unwritten ((b.connection k).deliver copy).2) := by
  obtain ⟨hn, he⟩ | ⟨k, hk, -, hr⟩ := tryDeliver_cases copy b session
  · refine .inr ⟨congrArg Prod.fst he, ?_, by simp [hn]⟩
    have hc : b.connectionOf session = .absent := by rw [connectionOf, hn]; rfl
    simp [fate, hc, Connection.absent]
  have hc := connectionOf_of_connection (b := b) hk
  by_cases hs : (b.connection k).state = .established
  · obtain ⟨hf, ho, hw⟩ | ⟨hf, ho, hw⟩ := Connection.deliver_established hs copy
    · exact .inl ⟨hr.mpr ho, k, hk, .inl ⟨by simp [fate, hc, hs, hf], hw⟩⟩
    · refine .inr ⟨by simpa using mt hr.mp ho, by simp [fate, hc, hs, hf], fun j hj => ?_⟩
      cases hk.symm.trans hj
      exact hw
  · by_cases hb : (b.connection k).state = .binding
    · have hd := Connection.deliver_binding hb copy
      rw [hd] at hr
      exact .inl ⟨hr.mpr rfl, k, hk, .inr ⟨by simp [fate, hc, hb], congrArg Prod.snd hd⟩⟩
    · have hd := Connection.deliver_elsewhere hs hb copy
      rw [hd] at hr
      refine .inr ⟨by simpa using hr, by simp [fate, hc, hs, hb], fun j hj => ?_⟩
      cases hk.symm.trans hj
      rw [hd]
      exact ⟨_, _, rfl⟩

/-- Routing a copy, by what becomes of it. -/
lemma route_fate (hs : b.session? id = some session) (copy : Publish) :
    (b.fate session copy ≠ .queued ∧ b.route id copy = ((b.fate session copy).route,
      (b.tryDeliver session copy).2.note id (.routed copy none))) ∨
    (b.fate session copy = .queued ∧ b.route id copy = (.queued,
      ((b.tryDeliver session copy).2.setSession id
        (session.enqueue b.config.session.maxQueuedMessages copy)).note id
          (.routed copy (session.displacedBy b.config.session.maxQueuedMessages copy)))) := by
  have hf := b.tryDeliver_fate session copy
  have hc : (b.tryDeliver session copy).2.config = b.config := by
    obtain ⟨-, he⟩ | ⟨k, -, he, -⟩ := tryDeliver_cases copy b session <;> rw [he]
    rfl
  unfold route
  rw [hs]
  dsimp only
  generalize b.tryDeliver session copy = result at hf hc ⊢
  obtain ⟨delivered, tried⟩ := result
  obtain ⟨rfl, k, -, ⟨hf, -⟩ | ⟨hf, -⟩⟩ | ⟨rfl, hf, -⟩ := hf
  · simp [hf, Fate.route]
  · simp [hf, Fate.route]
  · by_cases hq : session.clean = false ∧ copy.qos ≠ .atMostOnce
    · rw [if_pos hq] at hf
      simp only at hc
      simp [hf, hc, hq]
    · rw [if_neg hq] at hf
      have hd : (session.clean || copy.qos == .atMostOnce) = true := by
        by_contra hn
        exact hq (by simpa using hn)
      simp [hf, hd, Fate.route]

/-- The session of a client after a copy was routed to it. -/
def sessionAfter (b : Broker) (session : Session) (copy : Publish) : Session :=
  if b.fate session copy = .queued then session.enqueue b.config.session.maxQueuedMessages copy
  else session

lemma route_fst (hs : b.session? id = some session) (copy : Publish) :
    (b.route id copy).1 = (b.fate session copy).route := by
  obtain ⟨-, he⟩ | ⟨hf, he⟩ := route_fate hs copy <;> rw [he]
  rw [hf]
  rfl

lemma route_eq_dropped_iff (hs : b.session? id = some session) :
    (b.route id copy).1 = .dropped ↔ b.fate session copy = .dropped := by
  rw [route_fst hs]
  cases b.fate session copy <;> simp [Fate.route]

lemma session?_route (hs : b.session? id = some session) (copy : Publish) :
    (b.route id copy).2.session? id = some (b.sessionAfter session copy) := by
  obtain ⟨hf, he⟩ | ⟨hf, he⟩ := route_fate hs copy <;> rw [he, sessionAfter]
  · rw [if_neg hf, session?_note, session?_tryDeliver, hs]
  · rw [if_pos hf, session?_note, session?_setSession, if_pos rfl]

lemma connection_route (hs : b.session? id = some session) (hk : session.connection = some k)
    (copy : Publish) :
    (b.route id copy).2.connection k = ((b.connection k).deliver copy).2 := by
  rw [← connection_tryDeliver hk]
  obtain ⟨-, he⟩ | ⟨-, he⟩ := route_fate hs copy <;> rw [he] <;> rfl

lemma history_route (hs : b.session? id = some session) (copy : Publish) :
    (b.route id copy).2.history id = b.history id ++ [.routed copy (if b.fate session copy = .queued
      then session.displacedBy b.config.session.maxQueuedMessages copy else none)] := by
  obtain ⟨hf, he⟩ | ⟨hf, he⟩ := route_fate hs copy <;> rw [he, history_note, if_pos rfl]
  · rw [if_neg hf, history_tryDeliver]
  · rw [if_pos hf, history_setSession, history_tryDeliver]

/-- The copy is disposed of as it has to be. -/
lemma route_disposed (hs : b.session? id = some session) (copy : Publish) :
    Disposed b (b.route id copy).2 id session copy (b.fate session copy) := by
  have hsession := session?_route hs copy
  have hconnection := fun k hk => connection_route hs (k := k) hk copy
  unfold sessionAfter at hsession
  obtain ⟨-, k, hk, ⟨hf, hc⟩ | ⟨hf, hc⟩⟩ | ⟨-, hf, hc⟩ := b.tryDeliver_fate session copy
  · rw [hf] at hsession ⊢
    exact .written hk hsession (hconnection k hk ▸ hc)
  · rw [hf] at hsession ⊢
    exact .held hk hsession ((hconnection k hk).trans hc)
  · have hu : ∀ k, session.connection = some k →
        (b.connection k).Unwritten ((b.route id copy).2.connection k) :=
      fun k hk => hconnection k hk ▸ hc k hk
    split at hf <;> rw [hf] at hsession ⊢
    · exact .queued hsession hu
    · exact .dropped hsession hu

end fate

section alike

/-- No connection is bound to the sessions of two clients. -/
def Unshared (b : Broker) : Prop :=
  ∀ i j session other k, b.session? i = some session → b.session? j = some other →
    session.connection = some k → other.connection = some k → i = j

/-- Two brokers do not differ for the client: its session, what befell it, and its connection. -/
structure Alike (id : ClientId) (b b' : Broker) : Prop where
  session : b'.session? id = b.session? id
  history : b'.history id = b.history id
  connection : ∀ session k, b.session? id = some session → session.connection = some k →
    b'.connection k = b.connection k
  config : b'.config = b.config

namespace Alike

lemma refl (id : ClientId) (b : Broker) : Alike id b b := ⟨rfl, rfl, fun _ _ _ _ => rfl, rfl⟩

lemma trans (h : Alike id b b') (h' : Alike id b' b'') : Alike id b b'' where
  session := h'.session.trans h.session
  history := h'.history.trans h.history
  connection session k hs hk :=
    (h'.connection session k (h.session.trans hs) hk).trans (h.connection session k hs hk)
  config := h'.config.trans h.config

lemma fate_eq (h : Alike id b b') (hs : b.session? id = some session) (copy : Publish) :
    b'.fate session copy = b.fate session copy := by
  have hc : b'.connectionOf session = b.connectionOf session := by
    unfold connectionOf
    cases hk : session.connection with
    | none => rfl
    | some k => exact h.connection session k hs hk
  unfold fate
  rw [hc]

/-- The same becomes of a copy for the client. -/
lemma route (h : Alike id b b') (copy : Publish) :
    (b'.route id copy).1 = (b.route id copy).1 ∧
      Alike id (b.route id copy).2 (b'.route id copy).2 := by
  cases hs : b.session? id with
  | none =>
    have hs' : b'.session? id = none := h.session.trans hs
    refine ⟨?_, ?_⟩
    · unfold Broker.route
      rw [hs, hs']
    · rw [route_of_none copy hs, route_of_none copy hs']
      exact h
  | some session =>
    have hs' : b'.session? id = some session := h.session.trans hs
    have hf := h.fate_eq hs copy
    refine ⟨?_, ?_, ?_, ?_, ?_⟩
    · rw [route_fst hs, route_fst hs', hf]
    · rw [session?_route hs, session?_route hs', sessionAfter, sessionAfter, hf, h.config]
    · rw [history_route hs, history_route hs', hf, h.history, h.config]
    · intro next k hn hk
      rw [session?_route hs] at hn
      have hk : session.connection = some k := by
        rw [← Option.some.inj hn, sessionAfter] at hk
        split at hk <;> exact hk
      rw [connection_route hs hk, connection_route hs' hk, h.connection session k hs hk]
    · obtain ⟨_, _, _, he⟩ := b.route_frame copy id
      obtain ⟨_, _, _, he'⟩ := b'.route_frame copy id
      rw [he, he']
      exact h.config

/-- A copy for another client makes no difference, unless the two share a connection. -/
lemma routeOther (hu : b.Unshared) {other : ClientId} (ho : other ≠ id) (copy : Publish) :
    Alike id b (b.route other copy).2 := by
  obtain ⟨hs, hh⟩ := route_of_ne (b := b) ho copy
  refine ⟨hs, hh, fun session k hs hk => ?_, ?_⟩
  · refine route_rel (P := fun c d => d = c) copy (fun _ => rfl) k fun found hf hk' => ?_
    exact absurd (hu other id found session k hf hs hk' hk) ho
  · obtain ⟨_, _, _, he⟩ := b.route_frame copy other
    rw [he]

lemma disposed (h : Alike id b' b'') {fate : Fate}
    (hd : Disposed b b' id session copy fate) : Disposed b b'' id session copy fate := by
  have hkept : ∀ next, b'.session? id = some next → next.connection = session.connection →
      b''.session? id = some next ∧
        ∀ k, session.connection = some k → b''.connection k = b'.connection k := by
    intro next hn hc
    exact ⟨h.session.trans hn, fun k hk => h.connection next k hn (hc.trans hk)⟩
  cases hd with
  | written hk hs hc =>
    obtain ⟨hs, he⟩ := hkept _ hs rfl
    exact .written hk hs (he _ hk ▸ hc)
  | held hk hs hc =>
    obtain ⟨hs, he⟩ := hkept _ hs rfl
    exact .held hk hs ((he _ hk).trans hc)
  | queued hs hc =>
    obtain ⟨hs, he⟩ := hkept _ hs rfl
    exact .queued hs fun k hk => he k hk ▸ hc k hk
  | dropped hs hc =>
    obtain ⟨hs, he⟩ := hkept _ hs rfl
    exact .dropped hs fun k hk => he k hk ▸ hc k hk

end Alike

/-- Routing a copy binds no session to another connection. -/
lemma Unshared.route (h : b.Unshared) (other : ClientId) (copy : Publish) :
    (b.route other copy).2.Unshared := by
  have hbefore : ∀ id session, (b.route other copy).2.session? id = some session →
      ∃ old, b.session? id = some old ∧ old.connection = session.connection := by
    intro id session hs
    by_cases ho : other = id
    · subst ho
      cases hold : b.session? other with
      | none =>
        rw [route_of_none copy hold, hold] at hs
        cases hs
      | some old =>
        rw [session?_route hold] at hs
        refine ⟨old, rfl, ?_⟩
        rw [← Option.some.inj hs, sessionAfter]
        split <;> rfl
    · rw [(route_of_ne ho copy).1] at hs
      exact ⟨session, hs, rfl⟩
  intro i j session later k hi hj hk hk'
  obtain ⟨old, ho, he⟩ := hbefore i session hi
  obtain ⟨old', ho', he'⟩ := hbefore j later hj
  exact h i j old old' k ho ho' (he.trans hk) (he'.trans hk')

end alike

section spread
variable {publish : Publish} {targets : List (ClientId × QoS)} {count : Nat}

/-- The copies of a publish went to the targets, each as if it were the only one. -/
structure Spread (b b' : Broker) (publish : Publish) (targets : List (ClientId × QoS))
    (count : Nat) : Prop where
  reached : ∀ id granted, (id, granted) ∈ targets →
    Alike id (b.route id (publish.copyFor granted)).2 b'
  others : ∀ id, id ∉ targets.map Prod.fst → Alike id b b'
  connections : ∀ k, (∀ id ∈ targets.map Prod.fst, b.boundSession? id k = none) →
    b'.connection k = b.connection k
  size : b'.connections.size = b.connections.size
  frame : ∃ sessions connections history, b' = { b with sessions, connections, history }
  count : count = (targets.filter fun target =>
    (b.route target.1 (publish.copyFor target.2)).1 ≠ .dropped).length

lemma fanOut_cons (publish : Publish) (id : ClientId) (granted : QoS)
    (rest : List (ClientId × QoS)) (b : Broker) :
    b.fanOut publish ((id, granted) :: rest) =
      (if (b.route id (publish.copyFor granted)).1 = .dropped
        then ((b.route id (publish.copyFor granted)).2.fanOut publish rest).1
        else ((b.route id (publish.copyFor granted)).2.fanOut publish rest).1 + 1,
      ((b.route id (publish.copyFor granted)).2.fanOut publish rest).2) := rfl

/-- The fan-out serves one target after the other, and none of them notices the others. -/
theorem fanOut_spread (publish : Publish) (hu : b.Unshared) (hn : (targets.map Prod.fst).Nodup) :
    Spread b (b.fanOut publish targets).2 publish targets (b.fanOut publish targets).1 := by
  induction targets generalizing b with
  | nil => exact ⟨by simp, fun id _ => .refl id b, fun _ _ => rfl, rfl, ⟨_, _, _, rfl⟩, rfl⟩
  | cons target rest ih =>
    obtain ⟨first, granted⟩ := target
    obtain ⟨hfirst, hn⟩ := List.nodup_cons.mp hn
    have hrest := ih (hu.route first (publish.copyFor granted)) hn
    have hother : ∀ id, id ≠ first → Alike id b (b.route first (publish.copyFor granted)).2 :=
      fun id hi => .routeOther hu (Ne.symm hi) _
    have hne : ∀ target ∈ rest, target.1 ≠ first := by
      intro target hm he
      exact hfirst (List.mem_map.mpr ⟨target, hm, he⟩)
    refine ⟨fun id other hm => ?_, fun id hi => ?_, fun k hk => ?_, ?_, ?_, ?_⟩
    · rcases List.mem_cons.mp hm with he | hm
      · cases he
        exact hrest.others first hfirst
      · exact ((hother id (hne (id, other) hm)).route _).2.trans (hrest.reached id other hm)
    · rw [List.map_cons, List.mem_cons, not_or] at hi
      exact (hother id hi.1).trans (hrest.others id hi.2)
    · have hsame : (b.route first (publish.copyFor granted)).2.connection k = b.connection k := by
        refine route_rel (P := fun c d => d = c) _ (fun _ => rfl) k fun session hs hk' => ?_
        have hb := hk first List.mem_cons_self
        rw [boundSession?_eq_some.mpr ⟨hs, hk'⟩] at hb
        cases hb
      rw [← hsame]
      refine hrest.connections k fun id hi => ?_
      have hi' : id ≠ first := by
        rintro rfl
        exact hfirst hi
      rw [boundSession?, (hother id hi').session]
      exact hk id (List.mem_cons_of_mem _ hi)
    · exact hrest.size.trans (size_route _ b first)
    · obtain ⟨_, _, _, he⟩ := b.route_frame (publish.copyFor granted) first
      obtain ⟨sessions, connections, history, he'⟩ := hrest.frame
      refine ⟨sessions, connections, history, ?_⟩
      rw [fanOut_cons, he', he]
    · have hsame : ∀ target ∈ rest,
          ((b.route first (publish.copyFor granted)).2.route target.1
            (publish.copyFor target.2)).1 = (b.route target.1 (publish.copyFor target.2)).1 :=
        fun target hm => ((hother target.1 (hne target hm)).route _).1
      have hcount := hrest.count
      rw [List.filter_congr fun target hm => by rw [hsame target hm]] at hcount
      rw [fanOut_cons, hcount, List.filter_cons]
      by_cases hd : (b.route first (publish.copyFor granted)).1 = .dropped <;> simp [hd]

/-- Connections and sessions that are the same one by one are the same. -/
lemma eq_of_pointwise (hf : ∃ sessions connections history,
      b' = { b with sessions, connections, history })
    (hs : ∀ id, b'.session? id = b.session? id) (hh : ∀ id, b'.history id = b.history id)
    (hz : b'.connections.size = b.connections.size)
    (hc : ∀ k, b'.connection k = b.connection k) : b' = b := by
  obtain ⟨sessions, connections, history, rfl⟩ := hf
  have hsessions : sessions = b.sessions := Std.ExtTreeMap.ext_getElem? fun {id} => hs id
  have hhistory : history = b.history := funext hh
  have hconnections : connections = b.connections := by
    refine Array.ext hz fun k hk hk' => ?_
    have he := hc k
    simpa [connection, hk, hk'] using he
  rw [hsessions, hhistory, hconnections]

/-- The order of the targets makes no difference. -/
theorem Spread.unique {others : List (ClientId × QoS)} {count' : Nat}
    (h : Spread b b' publish targets count) (h' : Spread b b'' publish others count')
    (hp : targets.Perm others) : b' = b'' ∧ count = count' := by
  have hids := hp.map Prod.fst
  have halike : ∀ id, b'.session? id = b''.session? id ∧ b'.history id = b''.history id := by
    intro id
    by_cases hi : id ∈ targets.map Prod.fst
    · obtain ⟨⟨id, granted⟩, hm, rfl⟩ := List.mem_map.mp hi
      have ha := h.reached id granted hm
      have ha' := h'.reached id granted (hp.mem_iff.mp hm)
      exact ⟨ha.session.trans ha'.session.symm, ha.history.trans ha'.history.symm⟩
    · have ha := h.others id hi
      have ha' := h'.others id (mt hids.mem_iff.mpr hi)
      exact ⟨ha.session.trans ha'.session.symm, ha.history.trans ha'.history.symm⟩
  have hconnections : ∀ k, b'.connection k = b''.connection k := by
    intro k
    by_cases hk : ∀ id ∈ targets.map Prod.fst, b.boundSession? id k = none
    · have hk' : ∀ id ∈ others.map Prod.fst, b.boundSession? id k = none :=
        fun id hi => hk id (hids.mem_iff.mpr hi)
      rw [h.connections k hk, h'.connections k hk']
    · push Not at hk
      obtain ⟨id, hi, hb⟩ := hk
      obtain ⟨⟨id, granted⟩, hm, rfl⟩ := List.mem_map.mp hi
      obtain ⟨session, hs⟩ := Option.ne_none_iff_exists'.mp hb
      obtain ⟨hs, hk⟩ := boundSession?_eq_some.mp hs
      have hnext := session?_route hs (publish.copyFor granted)
      have hk' : (b.sessionAfter session (publish.copyFor granted)).connection = some k := by
        rw [sessionAfter]
        split <;> exact hk
      rw [(h.reached id granted hm).connection _ k hnext hk',
        (h'.reached id granted (hp.mem_iff.mp hm)).connection _ k hnext hk']
  obtain ⟨_, _, _, hf⟩ := h.frame
  obtain ⟨_, _, _, hf'⟩ := h'.frame
  constructor
  · refine eq_of_pointwise ⟨b'.sessions, b'.connections, b'.history, ?_⟩ (fun id => (halike id).1)
      (fun id => (halike id).2) (h.size.trans h'.size.symm) hconnections
    rw [hf, hf']
  · rw [h.count, h'.count]
    exact (hp.filter _).length_eq

end spread

section publish
variable {publish : Publish}

/-- A publish reaches the session of a client.  The highest QoS among those granted for the filters
it is reached through counts. -/
structure Receives (b : Broker) (publish : Publish) (id : ClientId) (session : Session)
    (granted : QoS) : Prop where
  found : b.session? id = some session
  greatest : IsGreatest {qos | ∃ filter, session.subscriptions[filter]? = some qos ∧
    Reaches publish.topic filter} granted

lemma alike_retain (b : Broker) (publish : Publish) (id : ClientId) :
    Alike id b (b.retain publish) := by
  obtain ⟨retained, he⟩ := b.retain_eq publish
  rw [he]
  exact ⟨rfl, rfl, fun _ _ _ _ => rfl, rfl⟩

@[simp] lemma directory_retain : (b.retain publish).directory = b.directory := by
  obtain ⟨retained, he⟩ := b.retain_eq publish
  rw [he]

lemma Unshared.retain (h : b.Unshared) (publish : Publish) : (b.retain publish).Unshared := by
  intro i j session other k hi hj
  rw [session?_retain] at hi hj
  exact h i j session other k hi hj

lemma nodup_targets (b : Broker) (topic : String) :
    ((b.directory.matching topic).toList.map Prod.fst).Nodup := by
  rw [Std.ExtTreeMap.map_fst_toList_eq_keys]
  exact Std.ExtTreeMap.nodup_keys

lemma publish_eq (b : Broker) (publish : Publish) : (b.retain publish).fanOut publish
    (b.directory.matching publish.topic).toList = b.publish publish := by
  rw [← b.directory_retain]
  rfl

/-- All the targets are served, in whatever order. -/
lemma publish_spread (hu : b.Unshared) {targets : List (ClientId × QoS)}
    (hp : targets.Perm (b.directory.matching publish.topic).toList) :
    Spread (b.retain publish) ((b.retain publish).fanOut publish targets).2 publish targets
      ((b.retain publish).fanOut publish targets).1 :=
  fanOut_spread publish (hu.retain publish)
    ((hp.map Prod.fst).nodup_iff.mpr (b.nodup_targets publish.topic))

/-- The targets of a publish are the clients whose sessions it reaches. -/
lemma Mirrored.mem_targets_iff (h : b.Mirrored) {granted : QoS} :
    (id, granted) ∈ (b.directory.matching publish.topic).toList ↔
      ∃ session, b.Receives publish id session granted := by
  rw [Std.ExtTreeMap.mem_toList_iff_getElem?_eq_some, Directory.matching_eq_some_iff h.wellFormed]
  simp only [h.routed, held?]
  cases hs : b.session? id with
  | none =>
    constructor
    · rintro ⟨⟨filter, hq, -⟩, -⟩
      cases hq
    · rintro ⟨session, hr⟩
      rw [hr.found] at hs
      cases hs
  | some session =>
    constructor
    · intro hg
      exact ⟨session, hs, hg⟩
    · rintro ⟨other, hr⟩
      obtain rfl : session = other := Option.some.inj (hs.symm.trans hr.found)
      exact hr.greatest

/-- Whoever holds some filter that the topic reaches is reached. -/
lemma Mirrored.exists_receives (h : b.Mirrored) (hs : b.session? id = some session)
    {filter : String} (hf : filter ∈ session.subscriptions) (hr : Reaches publish.topic filter) :
    ∃ granted, b.Receives publish id session granted := by
  have hc : b.directory.contains filter id := by
    rw [Directory.contains, h.routed, held?, hs]
    simpa using hf
  have hm := (Directory.mem_matching_iff h.wellFormed publish.topic id).mpr ⟨filter, hc, hr⟩
  obtain ⟨granted, hg⟩ := Option.isSome_iff_exists.mp (Std.ExtTreeMap.isSome_getElem?_iff_mem.mpr hm)
  obtain ⟨other, hreceives⟩ :=
    h.mem_targets_iff.mp (Std.ExtTreeMap.mem_toList_iff_getElem?_eq_some.mpr hg)
  obtain rfl : session = other := Option.some.inj (hs.symm.trans hreceives.found)
  exact ⟨granted, hreceives⟩

/-- Those whose copies were not dropped are counted. -/
lemma Mirrored.count_eq (h : b.Mirrored) :
    ((b.directory.matching publish.topic).toList.filter fun target =>
      (b.route target.1 (publish.copyFor target.2)).1 ≠ .dropped).length =
    {id | ∃ session granted, b.Receives publish id session granted ∧
      b.fate session (publish.copyFor granted) ≠ .dropped}.ncard := by
  let accepting := (b.directory.matching publish.topic).toList.filter fun target =>
    (b.route target.1 (publish.copyFor target.2)).1 ≠ .dropped
  have hn : (accepting.map Prod.fst).Nodup := by
    exact (b.nodup_targets publish.topic).sublist (List.filter_sublist.map Prod.fst)
  have hset : {id | ∃ session granted, b.Receives publish id session granted ∧
      b.fate session (publish.copyFor granted) ≠ .dropped} =
      ((accepting.map Prod.fst).toFinset : Set ClientId) := by
    ext id
    simp only [accepting, Set.mem_ofPred_eq, Finset.mem_coe, List.mem_toFinset, List.mem_map,
      List.mem_filter, decide_eq_true_eq]
    constructor
    · rintro ⟨session, granted, hr, hf⟩
      refine ⟨(id, granted), ⟨h.mem_targets_iff.mpr ⟨session, hr⟩, ?_⟩, rfl⟩
      rwa [Ne, route_eq_dropped_iff hr.found]
    · rintro ⟨⟨id, granted⟩, ⟨hm, hd⟩, rfl⟩
      obtain ⟨session, hr⟩ := h.mem_targets_iff.mp hm
      rw [Ne, route_eq_dropped_iff hr.found] at hd
      exact ⟨session, granted, hr, hd⟩
  rw [hset, Set.ncard_coe_finset, List.toFinset_card_of_nodup hn, List.length_map]

/-- A message was published: it is retained if that was asked for, and one copy of it, at a QoS that
is not too high and as a fresh message, was disposed of for every client that it reaches.  Other
sessions and connections were left alone. -/
structure Published (publish : Publish) (b b' : Broker) : Prop where
  retained : publish.retain = true → b.retained.Retains publish b'.retained
  unretained : publish.retain = false → b'.retained = b.retained
  reached : ∀ id session granted, b.Receives publish id session granted →
    let copy : Publish :=
      { publish with qos := min publish.qos granted, retain := false, dup := false, id := none }
    Disposed b b' id session copy (b.fate session copy)
  sessions : ∀ id, (∀ session granted, ¬ b.Receives publish id session granted) →
    b'.session? id = b.session? id
  connections : ∀ k, (∀ id session granted, b.Receives publish id session granted →
    session.connection ≠ some k) → b'.connection k = b.connection k
  frame : b' = { b with
    retained := b'.retained
    sessions := b'.sessions
    connections := b'.connections
    history := b'.history }

/-- Publishing does what it is to do. -/
theorem publish_published (hm : b.Mirrored) (hu : b.Unshared) (publish : Publish) :
    Published publish b (b.publish publish).2 := by
  have hs : Spread (b.retain publish) (b.publish publish).2 publish _ (b.publish publish).1 :=
    b.publish_eq publish ▸ publish_spread hu (.refl _)
  have hretain := fun id => b.alike_retain publish id
  obtain ⟨sessions, connections, history, hframe⟩ := hs.frame
  refine ⟨fun hr => ?_, fun hr => ?_, fun id session granted hreceives => ?_, fun id hn => ?_,
    fun k hk => ?_, ?_⟩
  · rw [hframe, retain, if_pos hr]
    exact RetainedStore.retains_apply b.retained publish
  · rw [hframe, retain, if_neg (by simp [hr])]
  · have ha := hs.reached id granted (hm.mem_targets_iff.mpr ⟨session, hreceives⟩)
    exact (((hretain id).route _).2.trans ha).disposed (route_disposed hreceives.found _)
  · refine ((hretain id).trans (hs.others id fun hi => ?_)).session
    obtain ⟨⟨id, granted⟩, ht, rfl⟩ := List.mem_map.mp hi
    obtain ⟨session, hr⟩ := hm.mem_targets_iff.mp ht
    exact hn session granted hr
  · have hc := hs.connections k fun id hi => ?_
    · rw [hc, connection_retain]
    · obtain ⟨⟨id, granted⟩, ht, rfl⟩ := List.mem_map.mp hi
      obtain ⟨session, hr⟩ := hm.mem_targets_iff.mp ht
      refine Option.eq_none_iff_forall_ne_some.mpr fun other hb => ?_
      obtain ⟨ho, hk'⟩ := boundSession?_eq_some.mp hb
      rw [session?_retain, hr.found] at ho
      cases ho
      exact hk id session granted hr hk'
  · rw [hframe]
    unfold retain
    split <;> rfl

/-- A publish that is asked to be retained becomes the retained message of its topic, or takes it
away if there is no payload, and the repository is told; else what is retained is left alone.  Then
one copy is made for every client whose session holds a filter that the topic reaches, at the
highest QoS granted for such a filter or that of the publish, if it is lower, and marked neither as
retained nor as sent before.  It is written, held, queued or dropped, as the session and its
connection have it; as long as no connection is bound to two sessions, other sessions and
connections are left alone.  The copies that were not dropped are counted.  The order in which the
clients are served does not matter. -/
theorem each_reached_client_gets_one_copy (h : b.Opened) (operations : List Operation)
    (hu : (b.after operations).Unshared) (publish : Publish) :
    let start := b.after operations
    let final := (start.publish publish).2
    let copy (granted : QoS) : Publish :=
      { publish with qos := min publish.qos granted, retain := false, dup := false, id := none }
    (∀ id session filter, start.session? id = some session → filter ∈ session.subscriptions →
      Reaches publish.topic filter → ∃ granted, start.Receives publish id session granted ∧
        Disposed start final id session (copy granted) (start.fate session (copy granted))) ∧
    (∀ filter, Topic.validateFilter filter = .ok () →
      (Reaches publish.topic filter ↔ Topic.topicMatches publish.topic filter)) ∧
    (∀ id, (∀ session granted, ¬ start.Receives publish id session granted) →
      final.session? id = start.session? id) ∧
    (∀ k, (∀ id session granted, start.Receives publish id session granted →
      session.connection ≠ some k) → final.connection k = start.connection k) ∧
    (publish.retain = true → start.retained.Retains publish final.retained) ∧
    (publish.retain = false → final.retained = start.retained) ∧
    final = { start with
      retained := final.retained
      sessions := final.sessions
      connections := final.connections
      history := final.history } ∧
    (start.publish publish).1 = {id | ∃ session granted, start.Receives publish id session granted ∧
      start.fate session (copy granted) ≠ .dropped}.ncard ∧
    ∀ targets, targets.Perm (start.directory.matching publish.topic).toList →
      (start.retain publish).fanOut publish targets = start.publish publish := by
  intro start final copy
  have hm : start.Mirrored := (Mirrored.of_opened h).after operations
  have hp : Published publish start final := publish_published hm hu publish
  have hs : Spread (start.retain publish) final publish _ (start.publish publish).1 :=
    start.publish_eq publish ▸ publish_spread hu (.refl _)
  refine ⟨?_, fun filter => reaches_iff, hp.sessions, hp.connections, hp.retained, hp.unretained,
    hp.frame, ?_, ?_⟩
  · intro id session filter hi hf hr
    obtain ⟨granted, hreceives⟩ := hm.exists_receives hi hf hr
    exact ⟨granted, hreceives, hp.reached id session granted hreceives⟩
  · rw [hs.count]
    refine (congrArg List.length (List.filter_congr fun target _ => ?_)).trans hm.count_eq
    rw [((start.alike_retain publish target.1).route _).1]
  · intro targets hp
    obtain ⟨hb, hc⟩ := (publish_spread hu hp).unique hs hp
    exact Prod.ext hc hb

/-- A connection that is driven by its actor is bound for one client. -/
lemma Consistent.unshared (h : b.Consistent) : b.Unshared := by
  intro i j session other k hi hj hk hk'
  have hi := h.bound i session k hi hk
  have hj := h.bound j other k hj hk'
  exact Option.some.inj (hi.symm.trans hj)

/-- One client has two filters that overlap and is connected, another one is away. -/
theorem each_reached_client_gets_one_copy_away :
    let operations : List Operation := [.accept, .accept,
      .connect 0 ⟨"MQTT", 4, true, "a", none, none, none⟩,
      .event 0 (.packet (.subscribe 1 [("x/#", .atMostOnce), ("x/y", .atLeastOnce)])),
      .connect 1 ⟨"MQTT", 4, false, "d", none, none, none⟩,
      .event 1 (.packet (.subscribe 1 [("+/y", .exactlyOnce)])), .event 1 .transportClosed]
    let start := (lenient {} .empty).after operations
    let publish : Publish := ⟨"x/y", [1], .exactlyOnce, true, false, some 7⟩
    (lenient {} .empty).Opened ∧ start.Unshared ∧ (start.publish publish).1 = 2 ∧
      (start.publish publish).2.retained.get? "x/y" =
        some ⟨"x/y", [1], .exactlyOnce, true, false, none⟩ ∧
      (∀ topic, topic ≠ "x/y" →
        (start.publish publish).2.retained.get? topic = start.retained.get? topic) ∧
      ∃ session granted, start.Receives publish "d" session granted ∧
        Disposed start (start.publish publish).2 "d" session (publish.copyFor granted) .queued := by
  intro operations start publish
  have hp : (lenient {} .empty).Opened := opened_lenient {} .empty
  have ha : (lenient {} .empty).Allows (fun b operation => operation.IsDriven b) operations := by
    refine ⟨trivial, trivial, trivial, ?_, trivial, ?_, ?_, trivial⟩ <;> nofun
  have hu : start.Unshared := (hp.owned ha).1.unshared
  obtain ⟨hreached, -, -, -, hretained, -⟩ :=
    each_reached_client_gets_one_copy hp operations hu publish
  have hkept := hretained rfl
  have hs : (start.session? "d").map (fun session => (session.clean,
      session.connection.isNone, session.subscriptions.toList)) =
        some (false, true, [("+/y", .exactlyOnce)]) := by decide +kernel
  obtain ⟨session, hd, he⟩ := Option.map_eq_some_iff.mp hs
  obtain ⟨hclean, hconnection, hsubscriptions⟩ : session.clean = false ∧
      session.connection = none ∧ session.subscriptions.toList = [("+/y", .exactlyOnce)] := by
    simpa using he
  have hmem : ∀ filter qos, session.subscriptions[filter]? = some qos ↔
      (filter, qos) = ("+/y", .exactlyOnce) := by
    intro filter qos
    rw [← Std.ExtTreeMap.mem_toList_iff_getElem?_eq_some, hsubscriptions, List.mem_singleton]
  have hfilter : "+/y" ∈ session.subscriptions :=
    Std.ExtTreeMap.isSome_getElem?_iff_mem.mp (by rw [(hmem _ _).mpr rfl]; rfl)
  obtain ⟨granted, hreceives, hdisposed⟩ := hreached "d" session "+/y" hd hfilter
    ((reaches_iff (by decide)).mpr (by decide))
  obtain ⟨filter, hq, -⟩ := hreceives.greatest.1
  obtain ⟨-, rfl⟩ := Prod.mk.inj ((hmem _ _).mp hq)
  have hfate : start.fate session (publish.copyFor .exactlyOnce) = .queued := by
    have hc : start.connectionOf session = .absent := by rw [connectionOf, hconnection]; rfl
    simp only [fate, hc, hclean]
    decide
  exact ⟨hp, hu, by decide +kernel, hkept.kept, hkept.others, session, .exactlyOnce, hreceives,
    hfate ▸ hdisposed⟩

end publish
end Broker
end MqttBroker
