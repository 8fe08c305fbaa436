import MqttBroker.Proofs.Broker.Moves

/-!
What an actor does to the sessions: while it serves its client they stay bound as they are, and
nothing but letting go of a client unbinds them.
-/
namespace MqttBroker

/-- The owner of a session stays, and so does the queue of a clean one, and no will appears. -/
structure Session.Alike (session next : Session) : Prop where
  client : next.client = session.client
  clean : next.clean = session.clean
  will : session.will = none → next.will = none
  connection : next.connection = session.connection
  queue : session.clean = true → next.queue = session.queue

namespace Session.Alike
variable {session next last : Session}

lemma refl (session : Session) : session.Alike session :=
  ⟨rfl, rfl, fun hw => hw, rfl, fun _ => rfl⟩

lemma trans (h : session.Alike next) (h' : next.Alike last) : session.Alike last where
  client := h'.client.trans h.client
  clean := h'.clean.trans h.clean
  will hw := h'.will (h.will hw)
  connection := h'.connection.trans h.connection
  queue hc := (h'.queue (h.clean.trans hc)).trans (h.queue hc)

end Session.Alike

namespace Broker

/-- Every client has the session it had, bound where it was bound. -/
structure Undisturbed (b b' : Broker) : Prop where
  sessions : ∀ id, Option.Rel Session.Alike (b.session? id) (b'.session? id)
  history : ∀ id k, .bound k ∈ b'.history id → .bound k ∈ b.history id

/-- No session was bound anew. -/
structure Unbound (b b' : Broker) : Prop where
  sessions : ∀ id session, b'.session? id = some session → ∃ old, b.session? id = some old ∧
    session.clean = old.clean ∧ ∀ k, session.connection = some k → old.connection = some k
  history : ∀ id k, .bound k ∈ b'.history id → .bound k ∈ b.history id

variable {b b' b'' : Broker} {k : ConnectionId} {id : ClientId} {actor : Option ClientId}
  {session next : Session}

section undisturbed

lemma undisturbed_of_same (hs : ∀ id, b'.session? id = b.session? id)
    (hh : b'.history = b.history) : Undisturbed b b' where
  sessions id := by
    rw [hs]
    cases b.session? id with
    | none => exact .none
    | some session => exact .some (.refl session)
  history id k hn := by rwa [hh] at hn

lemma Undisturbed.refl (b : Broker) : Undisturbed b b := undisturbed_of_same (fun _ => rfl) rfl

lemma Undisturbed.trans (h : Undisturbed b b') (h' : Undisturbed b' b'') : Undisturbed b b'' where
  sessions id := by
    have hr := h.sessions id
    have hr' := h'.sessions id
    generalize b.session? id = first at hr ⊢
    generalize b'.session? id = second at hr hr'
    generalize b''.session? id = third at hr' ⊢
    cases hr with
    | none =>
      cases hr'
      exact .none
    | some ha =>
      cases hr' with
      | some ha' => exact .some (ha.trans ha')
  history id k hn := h.history id k (h'.history id k hn)

lemma Undisturbed.exists_after (h : Undisturbed b b') (hs : b.session? id = some session) :
    ∃ next, b'.session? id = some next ∧ session.Alike next := by
  have hr := h.sessions id
  rw [hs] at hr
  generalize b'.session? id = found at hr ⊢
  cases hr with
  | some ha => exact ⟨_, rfl, ha⟩

lemma Undisturbed.exists_before (h : Undisturbed b b') (hs : b'.session? id = some next) :
    ∃ session, b.session? id = some session ∧ session.Alike next := by
  have hr := h.sessions id
  rw [hs] at hr
  generalize b.session? id = found at hr ⊢
  cases hr with
  | some ha => exact ⟨_, rfl, ha⟩

lemma Undisturbed.setSession (h : Undisturbed b b') (hs : b'.session? id = some session)
    (next : Session) (ha : session.Alike next) : Undisturbed b (b'.setSession id next) where
  sessions other := by
    rw [session?_setSession]
    split
    next ho =>
      subst ho
      obtain ⟨old, hs, ha'⟩ := h.exists_before hs
      rw [hs]
      exact .some (ha'.trans ha)
    next => exact h.sessions other
  history := h.history

lemma undisturbed_takeWill (b : Broker) (id : ClientId) (k : ConnectionId) :
    Undisturbed b (b.takeWill id k).2 := by
  obtain he | ⟨session, hs, he⟩ := takeWill_cases b id k <;> rw [he]
  · exact .refl b
  · have ha : session.Alike { session with will := none } :=
      ⟨rfl, rfl, fun _ => rfl, rfl, fun _ => rfl⟩
    exact (Undisturbed.refl b).setSession hs _ ha

lemma Undisturbed.noteRouted (h : Undisturbed b b') (id : ClientId) (copy : Publish)
    (displaced : Option Publish) : Undisturbed b (b'.note id (.routed copy displaced)) where
  sessions := h.sessions
  history other k hn := by
    rw [history_note] at hn
    split at hn
    next ho =>
      rw [List.mem_append, List.mem_singleton] at hn
      exact h.history other k (ho ▸ hn.resolve_right nofun)
    next => exact h.history other k hn

lemma undisturbed_route (b : Broker) (id : ClientId) (publish : Publish) :
    Undisturbed b (b.route id publish).2 := by
  cases hs : b.session? id with
  | none =>
    rw [route_of_none _ hs]
    exact .refl b
  | some session =>
    have ht : Undisturbed b (b.tryDeliver session publish).2 :=
      undisturbed_of_same (fun _ => session?_tryDeliver publish session)
        (history_tryDeliver publish session)
    obtain ⟨-, he⟩ | ⟨-, hp, -, max, -, he⟩ := route_cases publish hs <;> rw [he]
    · exact ht.noteRouted id publish _
    · -- only a persistent session gets a longer queue
      have ha : session.Alike (session.enqueue max publish) :=
        ⟨rfl, rfl, fun hw => hw, rfl, fun hc => by rw [hp] at hc; cases hc⟩
      have hq := ht.setSession ((session?_tryDeliver publish session).trans hs) _ ha
      exact hq.noteRouted id publish _

lemma Chore.undisturbed (h : Chore k b b') : Undisturbed b b' := by
  cases h with
  | books | send | close | advance => exact undisturbed_of_same (fun _ => rfl) rfl

lemma Service.undisturbed (h : Service k actor b b') : Undisturbed b b' := by
  cases h with
  | chore h => exact h.undisturbed
  | deliver => exact undisturbed_of_same (fun _ => rfl) rfl
  | retain publish =>
    exact undisturbed_of_same (fun _ => session?_retain publish) (history_retain publish)
  | route id publish granted => exact undisturbed_route b id _
  | subscribe client filter qos =>
    obtain ⟨calls, he | ⟨session, granted, hs, -, -, he⟩⟩ :=
      subscribe_cases filter b client k qos <;> rw [he]
    · exact undisturbed_of_same (fun _ => rfl) rfl
    · have hd := (Undisturbed.refl b).setSession hs { session with
        subscriptions := session.subscriptions.insert filter granted }
        ⟨rfl, rfl, fun hw => hw, rfl, fun _ => rfl⟩
      exact ⟨hd.sessions, hd.history⟩
  | unsubscribe id filter =>
    obtain he | ⟨session, calls, hs, -, he⟩ := unsubscribe_cases filter b id k <;> rw [he]
    · exact .refl b
    · have hd := (Undisturbed.refl b).setSession hs { session with
        subscriptions := session.subscriptions.erase filter }
        ⟨rfl, rfl, fun hw => hw, rfl, fun _ => rfl⟩
      exact ⟨hd.sessions, hd.history⟩

lemma Services.undisturbed (h : Services k actor b b') : Undisturbed b b' := by
  induction h with
  | refl => exact .refl b
  | tail _ hs ih => exact ih.trans hs.undisturbed

lemma Undisturbed.unbound (h : Undisturbed b b') : Unbound b b' where
  sessions id next hs := by
    obtain ⟨session, hs, ha⟩ := h.exists_before hs
    exact ⟨session, hs, ha.clean, fun k hk => ha.connection.symm.trans hk⟩
  history := h.history

end undisturbed

section unbound

lemma unbound_of_same (hs : ∀ id, b'.session? id = b.session? id) (hh : b'.history = b.history) :
    Unbound b b' := (undisturbed_of_same hs hh).unbound

lemma Unbound.refl (b : Broker) : Unbound b b := (Undisturbed.refl b).unbound

lemma Unbound.trans (h : Unbound b b') (h' : Unbound b' b'') : Unbound b b'' where
  sessions id session hs := by
    obtain ⟨next, hs, hc, hk⟩ := h'.sessions id session hs
    obtain ⟨old, hs, hc', hk'⟩ := h.sessions id next hs
    exact ⟨old, hs, hc.trans hc', fun k hb => hk' k (hk k hb)⟩
  history id k hn := h.history id k (h'.history id k hn)

lemma unbound_setSession (hs : b.session? id = some session) (hc : next.clean = session.clean)
    (hn : ∀ k, next.connection = some k → session.connection = some k) :
    Unbound b (b.setSession id next) where
  sessions other found hf := by
    rw [session?_setSession] at hf
    split at hf
    next ho =>
      cases hf
      exact ⟨session, ho ▸ hs, hc, hn⟩
    next => exact ⟨found, hf, rfl, fun _ hk => hk⟩
  history _ _ hn := hn

lemma unbound_teardown (b : Broker) (id : ClientId) (session : Session) :
    Unbound b (b.teardown id session) where
  sessions other found hf := by
    rw [session?_teardown] at hf
    split at hf
    · cases hf
    · exact ⟨found, hf, rfl, fun _ hk => hk⟩
  history other k hn := by rwa [history_teardown] at hn

/-- An actor's moves bind no session. -/
lemma Move.unbound (h : Move k actor b b') : Unbound b b' := by
  cases h with
  | serve h => exact h.undisturbed.unbound
  | forget | noteFired => exact unbound_of_same (fun _ => rfl) rfl
  | takeWill id => exact (undisturbed_takeWill b id k).unbound
  | unbind id =>
    obtain ⟨-, he⟩ | ⟨session, hs, -, he⟩ := unbind_cases b id k (b.connection k).clean <;> rw [he]
    · exact .refl b
    · split
      · exact unbound_teardown b id session
      · exact unbound_setSession hs rfl nofun

lemma Moves.unbound (h : Moves k actor b b') : Unbound b b' := by
  induction h with
  | refl => exact .refl b
  | tail _ hm ih => exact ih.trans hm.unbound

end unbound
end Broker
end MqttBroker
