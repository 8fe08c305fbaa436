import MqttBroker.Proofs.Broker.Admission

/-!
What binding a connection leaves in memory while nobody else acts.
-/
namespace MqttBroker
open Subscription

/-- The filters whose subscriptions a session loses when it is bound. -/
def Broker.lostFilters (b : Broker) (clean : Bool) (client : ClientInfo) (session : Session) :
    List String :=
  if session.isReset clean then session.subscriptions.keys
  else if b.config.admission.reauthorizeSubscriptionsOnConnect then
    session.subscriptions.keys.filter fun filter => !b.authorizer.canRead client filter
  else []

namespace Session

/-- What is left of a session that a client is to be bound to. -/
def trimmed (session : Session) (clean : Bool) (client : ClientInfo) (lost : List String) :
    Session :=
  { session with
    client, connection := none
    subscriptions := session.subscriptions.eraseAll lost
    queue := if session.isReset clean then [] else session.queue
    will := if session.isReset clean then none else session.will }

/-- A session that was bound to a connection. -/
def rebound (session : Session) (clean : Bool) (k : ConnectionId) : Session :=
  { session with clean, existed := true, attached := true, connection := some k, queue := [] }

end Session

namespace Broker

/-- The directory loses the given filters of an attached session, and gets all that is left of
another one. -/
def redirect (b : Broker) (id : ClientId) (session : Session) (lost : List String) : Broker :=
  { b with
    directory :=
      if session.attached then (b.directory.removeAll id lost).2
      else b.directory.addAll id (session.subscriptions.eraseAll lost).toList }

/-- What is stored once a session was bound: itself, or nothing if it is clean, since what was kept
of it as long as it was persistent is deleted. -/
def filed (b : Broker) (id : ClientId) (clean : Bool) (session bound : Session) :
    Repository StoredSession :=
  if clean then b.cleared id !(session.existed && session.clean)
  else (b.stored.save id bound.toStored).2

/-- The connection is bound to the session, whatever had it before. -/
def rebind (b : Broker) (id : ClientId) (clean : Bool) (k : ConnectionId) (client : ClientInfo)
    (session : Session) (lost : List String) : Broker :=
  ((((b.evictOther session k).redirect id session lost).setSession id
    ((session.trimmed clean client lost).rebound clean k)).modifyConnection k
      (·.setClientId id)).note id (.bound k)

variable {b : Broker} {k : ConnectionId} {id : ClientId} {clean : Bool} {client : ClientInfo}
  {session : Session}

section rebind
variable (lost : List String)

lemma evictOther_cases (b : Broker) (session : Session) (k : ConnectionId) :
    b.evictOther session k = b ∨ ∃ old, session.connection = some old ∧ old ≠ k ∧
      b.evictOther session k = b.modifyConnection old .evict := by
  unfold evictOther
  cases hc : session.connection with
  | none => exact .inl rfl
  | some old =>
    by_cases ho : old = k
    · exact .inl (if_pos ho)
    · exact .inr ⟨old, rfl, ho, if_neg ho⟩

lemma session?_rebind (other : ClientId) :
    (b.rebind id clean k client session lost).session? other =
      if id = other then some ((session.trimmed clean client lost).rebound clean k)
      else b.session? other := by
  have he : (b.evictOther session k).session? other = b.session? other := by
    obtain he | ⟨old, -, -, he⟩ := b.evictOther_cases session k <;> rw [he]
    rfl
  rw [rebind, session?_note, session?_modifyConnection, session?_setSession]
  split
  · rfl
  · exact he

lemma history_rebind (other : ClientId) :
    (b.rebind id clean k client session lost).history other =
      if other = id then b.history id ++ [.bound k] else b.history other := by
  obtain he | ⟨old, -, -, he⟩ := b.evictOther_cases session k <;> rw [rebind, he] <;> rfl

lemma directory_rebind :
    (b.rebind id clean k client session lost).directory =
      if session.attached then (b.directory.removeAll id lost).2
      else b.directory.addAll id (session.subscriptions.eraseAll lost).toList := by
  obtain he | ⟨old, -, -, he⟩ := b.evictOther_cases session k <;> rw [rebind, he] <;> rfl

@[simp] lemma retained_rebind :
    (b.rebind id clean k client session lost).retained = b.retained := by
  obtain he | ⟨old, -, -, he⟩ := b.evictOther_cases session k <;> rw [rebind, he] <;> rfl

lemma rules_rebind :
    (b.rebind id clean k client session lost).config = b.config ∧
      (b.rebind id clean k client session lost).authorizer = b.authorizer := by
  obtain he | ⟨old, -, -, he⟩ := b.evictOther_cases session k <;> rw [rebind, he] <;>
    exact ⟨rfl, rfl⟩

@[simp] lemma authenticator_rebind :
    (b.rebind id clean k client session lost).authenticator = b.authenticator := by
  obtain he | ⟨old, -, -, he⟩ := b.evictOther_cases session k <;> rw [rebind, he] <;> rfl

lemma rebind_withBooks (calls : CallCounts) (stored : Repository StoredSession)
    (identified : Nat) :
    (b.withBooks calls stored identified).rebind id clean k client session lost =
      (b.rebind id clean k client session lost).withBooks calls stored identified := by
  unfold rebind evictOther
  split
  · split <;> rfl
  · rfl

end rebind

lemma deniedFilters_quiet (client : ClientInfo) (filters : List String) (b : Broker) : ∃ calls,
    deniedFilters .quiet client filters b =
      (filters.filter fun filter => !b.authorizer.canRead client filter,
        b.withBooks calls b.stored b.identified) := by
  induction filters generalizing b with
  | nil => exact ⟨b.calls, rfl⟩
  | cons filter filters ih =>
    obtain ⟨calls, he⟩ := ih (b.callOut .quiet .read)
    refine ⟨calls, ?_⟩
    unfold deniedFilters askRead
    dsimp only
    rw [he, List.filter_cons]
    change (if b.authorizer.canRead client filter then _ else _, _) = _
    cases b.authorizer.canRead client filter <;> rfl

lemma reauthorize_quiet (b : Broker) (id : ClientId) (session : Session) :
    ∃ calls denied, denied = (session.subscriptions.keys.filter fun filter =>
        !b.authorizer.canRead session.client filter) ∧
      b.reauthorize .quiet id session =
        ({ session with subscriptions := session.subscriptions.eraseAll denied },
          { b with
            directory :=
              if session.attached then (b.directory.removeAll id denied).2
              else b.directory }.withBooks calls b.stored b.identified) := by
  obtain ⟨calls, he⟩ := deniedFilters_quiet session.client session.subscriptions.keys b
  refine ⟨calls, _, rfl, ?_⟩
  unfold reauthorize
  rw [he]
  dsimp only
  split <;> rfl

lemma deleteIf_eq (b : Broker) (id : ClientId) (due : Bool) :
    (if due then b.deleteStored id else b) =
      b.withBooks b.calls (b.cleared id due) b.identified := by
  cases due <;> rfl

/-- What a session loses is also taken from the directory. -/
lemma trim_quiet (b : Broker) (id : ClientId) (clean : Bool) (client : ClientInfo)
    (session : Session) : ∃ calls,
    b.trim .quiet id clean client session =
      (session.trimmed clean client (b.lostFilters clean client session),
        { b with
          directory :=
            if session.attached then
              (b.directory.removeAll id (b.lostFilters clean client session)).2
            else b.directory }.withBooks calls
              (b.cleared id (clean && !(session.existed && session.clean))) b.identified) := by
  unfold trim lostFilters Session.trimmed
  generalize hd : (clean && !(session.existed && session.clean)) = due
  cases session.isReset clean with
  | true =>
    refine ⟨b.calls, ?_⟩
    simp only [if_true, deleteIf_eq, Table.eraseAll_keys, Bool.not_true, Bool.false_and,
      Bool.false_eq_true, if_false]
    unfold detach
    split <;> rfl
  | false =>
    simp only [Bool.false_eq_true, if_false, deleteIf_eq, Bool.not_false, Bool.true_and]
    split
    next hr =>
      replace hr : b.config.admission.reauthorizeSubscriptionsOnConnect := hr
      obtain ⟨calls, denied, hd, he⟩ := reauthorize_quiet
        (b.withBooks b.calls (b.cleared id due) b.identified)
        id { session with client, connection := none }
      refine ⟨calls, ?_⟩
      rw [he, hd, if_pos hr]
      rfl
    next hr =>
      replace hr : ¬ b.config.admission.reauthorizeSubscriptionsOnConnect := hr
      refine ⟨b.calls, ?_⟩
      rw [if_neg hr]
      cases session.attached <;> rfl

/-- What is stored of a session does not depend on its connection. -/
lemma cleared_saved (b : Broker) (id : ClientId) (clean : Bool) (session bound : Session)
    (calls : CallCounts) :
    (b.withBooks calls (b.cleared id (clean && !(session.existed && session.clean)))
      b.identified).saved id clean bound = b.filed id clean session bound := by
  cases clean <;> rfl

/-- A bind rewrites the session, the directory and the connections it concerns, and is noted. -/
lemma bindSession_quiet (b : Broker) (id : ClientId) (clean : Bool) (k : ConnectionId)
    (client : ClientInfo) (session : Session) : ∃ lost calls,
    lost = b.lostFilters clean client session ∧
    b.bindSession .quiet id clean k client session =
      (⟨session.existed, session.existed && !session.isReset clean,
          if session.isReset clean then [] else session.queue⟩,
        (b.rebind id clean k client session lost).withBooks calls
          (b.filed id clean session ((session.trimmed clean client lost).rebound clean k))
          b.identified) := by
  obtain ⟨calls, he⟩ := (b.evictOther session k).trim_quiet id clean client session
  obtain ⟨connections, hv⟩ : ∃ connections, b.evictOther session k = { b with connections } := by
    obtain he | ⟨old, -, -, he⟩ := b.evictOther_cases session k
    · exact ⟨_, he⟩
    · exact ⟨_, he⟩
  have hl : (b.evictOther session k).lostFilters clean client session =
      b.lostFilters clean client session := by rw [hv]; rfl
  have hs : (b.evictOther session k).cleared id (clean && !(session.existed && session.clean)) =
      b.cleared id (clean && !(session.existed && session.clean)) := by rw [hv]; rfl
  have hi : (b.evictOther session k).identified = b.identified := by rw [hv]
  rw [hl, hs] at he
  generalize hg : b.lostFilters clean client session = lost at he
  set stored := b.cleared id (clean && !(session.existed && session.clean)) with hd
  set evicted := b.evictOther session k
  have ha : ({ evicted with
      directory :=
        if session.attached then (evicted.directory.removeAll id lost).2
        else evicted.directory }.withBooks calls stored evicted.identified).attach id
          (session.trimmed clean client lost) =
      (evicted.redirect id session lost).withBooks calls stored evicted.identified := by
    unfold attach redirect
    change (if session.attached then _ else _) = _
    cases session.attached <;> rfl
  obtain ⟨calls', hq⟩ := ((b.rebind id clean k client session lost).withBooks calls
    stored evicted.identified).saveUnless_quiet id
    ((session.trimmed clean client lost).rebound clean k) clean
  refine ⟨lost, calls', rfl, ?_⟩
  unfold bindSession
  rw [he]
  dsimp only
  rw [ha, ← cleared_saved b id clean session _ calls, ← hi]
  exact Prod.ext rfl hq

/-- The session that a client finds at its CONNECT: its own, or one that is not attached yet. -/
inductive Found (b : Broker) (id : ClientId) (clean : Bool) (client : ClientInfo) : Session → Prop
  | own {found : Session} (h : b.session? id = some found) : Found b id clean client found
  | fresh (h : b.session? id = none) (hr : clean = true ∨ b.stored.records[id]? = none) :
    Found b id clean client (.fresh clean client)
  | restored (h : b.session? id = none) (hc : clean = false) (record)
    (hr : b.stored.records[id]? = some record) : Found b id clean client (.restore record client)

/-- A new session is not attached, bound to nothing, and has nothing queued. -/
lemma Found.own_or_new (h : b.Found id clean client session) :
    b.session? id = some session ∨ b.session? id = none ∧ session.attached = false ∧
      session.connection = none ∧ session.queue = [] := by
  cases h with
  | own h => exact .inl h
  | fresh h => exact .inr ⟨h, rfl, rfl, rfl⟩
  | restored h => exact .inr ⟨h, rfl, rfl, rfl⟩

/-- Looking into the storage does not change what a client finds. -/
lemma Found.consulted (hf : b.Found id clean client session) (calls : CallCounts)
    {stored : Repository StoredSession} (hs : b.stored.Consulted stored) (identified : Nat) :
    (b.withBooks calls stored identified).Found id clean client session := by
  have hr : stored.records[id]? = b.stored.records[id]? := by rw [hs.records]
  cases hf with
  | own h => exact .own h
  | fresh h hn => exact .fresh h (hn.imp_right hr.trans)
  | restored h hc record hn => exact .restored (by exact h) hc record (hr.trans hn)

/-- What an actor does for itself concerns no session, stored or not. -/
lemma Chores.same {b' : Broker} (h : Chores k b b') :
    (∀ id, b'.session? id = b.session? id) ∧ b'.stored.records = b.stored.records := by
  induction h with
  | refl => exact ⟨fun _ => rfl, rfl⟩
  | tail _ hc ih =>
    cases hc with
    | books calls hs => exact ⟨ih.1, hs.records.trans ih.2⟩
    | send | close | advance => exact ih

/-- So it does not change what a client finds. -/
lemma Found.of_chores {b' : Broker} (h : b'.Found id clean client session) (hc : Chores k b b') :
    b.Found id clean client session := by
  obtain ⟨hs, hr⟩ := hc.same
  cases h with
  | own h => exact .own ((hs id).symm.trans h)
  | fresh h hn => exact .fresh ((hs id).symm.trans h) (hr ▸ hn)
  | restored h hc record hn => exact .restored ((hs id).symm.trans h) hc record (hr ▸ hn)

lemma findOrCreate_cases (b : Broker) (id : ClientId) (clean : Bool) (client : ClientInfo) :
    ∃ stored, b.stored.Asked stored ∧
      (b.findOrCreate id clean client).2 = b.withBooks b.calls stored b.identified ∧
      ((∃ error, b.stored.obstacle (.load id) = some error ∧
          (b.findOrCreate id clean client).1 = .error error) ∨
        ∃ session, (b.findOrCreate id clean client).1 = .ok session ∧
          b.Found id clean client session) := by
  unfold findOrCreate
  cases hs : b.session? id with
  | some session => exact ⟨b.stored, .inl rfl, rfl, .inr ⟨session, rfl, .own hs⟩⟩
  | none =>
    cases clean with
    | true => exact ⟨b.stored, .inl rfl, rfl, .inr ⟨_, rfl, .fresh hs (.inl rfl)⟩⟩
    | false =>
      have hc : b.stored.Asked (b.stored.load id).2 := .inr ⟨id, rfl⟩
      have hl := b.stored.load_fst id
      dsimp only
      rw [if_neg nofun]
      generalize b.stored.load id = result at hc hl ⊢
      obtain ⟨answer, stored⟩ := result
      dsimp only at hc hl
      cases ho : b.stored.obstacle (.load id) with
      | some error =>
        rw [ho] at hl
        subst hl
        exact ⟨stored, hc, rfl, .inl ⟨error, rfl, rfl⟩⟩
      | none =>
        rw [ho] at hl
        subst hl
        cases hr : b.stored.records[id]? with
        | none => exact ⟨stored, hc, rfl, .inr ⟨_, rfl, .fresh hs (.inr hr)⟩⟩
        | some record => exact ⟨stored, hc, rfl, .inr ⟨_, rfl, .restored hs rfl record hr⟩⟩

/-- Storage may fail a bind before it touches anything; otherwise it binds the session it found. -/
theorem bind_cases (b : Broker) (id : ClientId) (clean : Bool) (k : ConnectionId)
    (client : ClientInfo) : ∃ calls stored, b.stored.Consulted stored ∧
    ((∃ error, b.stored.obstacle (.load id) = some error ∧ b.bind .quiet id clean k client =
      (.error error, b.withBooks calls stored b.identified)) ∨
    ∃ session lost, b.Found id clean client session ∧
      lost = b.lostFilters clean client session ∧
      b.bind .quiet id clean k client =
        (.ok ⟨session.existed, session.existed && !session.isReset clean,
            if session.isReset clean then [] else session.queue⟩,
          (b.rebind id clean k client session lost).withBooks calls
            ((b.withBooks b.calls stored b.identified).filed id clean session
              ((session.trimmed clean client lost).rebound clean k)) b.identified)) := by
  obtain ⟨stored, ha, he, hf⟩ := b.findOrCreate_cases id clean client
  have hc := Repository.Consulted.of_asked ha
  unfold bind
  generalize b.findOrCreate id clean client = result at he hf ⊢
  obtain ⟨answer, b'⟩ := result
  dsimp only at he hf
  subst he
  obtain ⟨error, ho, rfl⟩ | ⟨session, rfl, hf⟩ := hf
  · exact ⟨b.calls, stored, hc, .inl ⟨error, ho, rfl⟩⟩
  · obtain ⟨lost, calls, hl, hb⟩ := (b.withBooks b.calls stored
      b.identified).bindSession_quiet id clean k client session
    refine ⟨calls, stored, hc, .inr ⟨session, lost, hf, hl, ?_⟩⟩
    dsimp only
    rw [hb, rebind_withBooks]
    rfl

/-- Past the bind a CONNECT is never answered by a code that refuses it; before, storage may have
failed, and nothing was touched. -/
lemma bindAndEstablish_turnedAway_or (meanwhile : Interlude) (b : Broker) (k : ConnectionId)
    (connect : Connect) (client : ClientInfo) (isGiven : Bool) :
    TurnedAway k (some .serverUnavailable) b
        (b.bindAndEstablish meanwhile k connect client isGiven) ∨
      ∀ code, (b.bindAndEstablish meanwhile k connect client isGiven).1 ≠ .rejected code := by
  obtain ⟨stored, hs, hb, hf⟩ := b.findOrCreate_cases client.id connect.clean client
  unfold bindAndEstablish bind
  generalize b.findOrCreate client.id connect.clean client = found at hb hf ⊢
  obtain ⟨session | session, b'⟩ := found
  · left
    dsimp only at hb
    subst hb
    exact turnedAway_reject_asked (by simp) hs k
  · right
    intro code
    dsimp only
    unfold establish
    generalize onConnection _ k _ = opened
    obtain ⟨unsent | _, opened⟩ := opened
    · simp
    · simp

end Broker
end MqttBroker
