import MqttBroker.Proofs.Broker.Binding

/-!
The admission of a connection that waits for its session: the session is bound, the connection
opened, and whatever was not sent is put back.
-/
namespace MqttBroker

/-- The session of a client that was admitted: bound to its connection, with the will of its
CONNECT, and with what was put back into its queue. -/
def Session.enrolled (session : Session) (clean : Bool) (k : ConnectionId) (client : ClientInfo)
    (lost : List String) (will : Option Will) (queue : List Publish) : Session :=
  { (session.trimmed clean client lost).rebound clean k with will, queue }

namespace Broker

/-- The broker once a client was admitted with the session it found, but for its books. -/
def enroll (b : Broker) (k : ConnectionId) (client : ClientInfo) (clean : Bool)
    (will : Option Will) (session : Session) (queue : List Publish)
    (change : Connection → Connection) : Broker :=
  ((b.rebind client.id clean k client session (b.lostFilters clean client session)).setSession
    client.id (session.enrolled clean k client (b.lostFilters clean client session) will
      queue)).modifyConnection k change

variable {b : Broker} {k : ConnectionId} {id : ClientId} {clean : Bool} {client : ClientInfo}
  {session : Session}

section rebind
variable (lost : List String)

lemma size_rebind :
    (b.rebind id clean k client session lost).connections.size = b.connections.size := by
  obtain he | ⟨old, -, -, he⟩ := b.evictOther_cases session k <;> rw [rebind, he] <;>
    simp [note, redirect, setSession]

lemma connection_rebind_self (hk : k < b.connections.size) :
    (b.rebind id clean k client session lost).connection k = (b.connection k).setClientId id := by
  obtain he | ⟨old, -, ho, he⟩ := b.evictOther_cases session k <;>
    rw [rebind, he, connection_note,
      connection_modifyConnection _ (by simpa [redirect, setSession]), if_pos rfl,
      connection_setSession]
  · rfl
  · change ((b.modifyConnection old .evict).connection k).setClientId id = _
    rw [connection_modifyConnection_of_ne _ ho]

/-- Of the other connections, the one that had the session is evicted. -/
lemma connection_rebind_of_ne {j : ConnectionId} (hj : k ≠ j) :
    (b.rebind id clean k client session lost).connection j =
      if session.connection = some j ∧ j < b.connections.size then (b.connection j).evict
      else b.connection j := by
  rw [rebind, connection_note, connection_modifyConnection_of_ne _ hj, connection_setSession]
  change (b.evictOther session k).connection j = _
  unfold evictOther
  cases hc : session.connection with
  | none => simp
  | some old =>
    by_cases ho : old = j
    · subst ho
      by_cases hs : old < b.connections.size
      · simp [Ne.symm hj, hs, connection_modifyConnection]
      · simp [Ne.symm hj, hs, modifyConnection_absent]
    · simp only [Option.some.injEq, ho, false_and, if_false]
      split
      · rfl
      · exact connection_modifyConnection_of_ne _ ho

end rebind

/-- What the admission of a client leaves behind, but for its own connection. -/
structure Admitted (b b' : Broker) (k : ConnectionId) (client : ClientInfo) (clean : Bool)
    (queue : List Publish) : Prop where
  size : b'.connections.size = b.connections.size
  others : ∀ j, k ≠ j → b'.connection j =
    if (b.boundSession? client.id j).isSome ∧ j < b.connections.size then (b.connection j).evict
    else b.connection j
  session : ∃ session, b'.session? client.id = some session ∧ session.client = client ∧
    session.connection = some k ∧ session.clean = clean ∧ session.queue = queue
  sessions : ∀ id, id ≠ client.id → b'.session? id = b.session? id
  history : ∀ id, b'.history id =
    if id = client.id then b.history id ++ [.bound k] else b.history id

/-- The connections that have the session found are those that had the client's session. -/
lemma Found.isSome_boundSession? (h : b.Found id clean client session) (j : ConnectionId) :
    (b.boundSession? id j).isSome ↔ session.connection = some j := by
  obtain hs | ⟨hs, -, hc, -⟩ := h.own_or_new
  · simp [boundSession?, hs, Session.isBoundTo, Option.isSome_filter]
  · simp [boundSession?, hs, hc]

namespace Admitted
variable {b' : Broker} {queue : List Publish}

lemma rebind (hf : b.Found client.id clean client session) (k : ConnectionId)
    (lost : List String) :
    Admitted b (b.rebind client.id clean k client session lost) k client clean [] where
  size := size_rebind lost
  others j hj := by
    rw [connection_rebind_of_ne lost hj]
    simp only [hf.isSome_boundSession?]
  session := ⟨_, by rw [session?_rebind, if_pos rfl], rfl, rfl, rfl, rfl⟩
  sessions id hi := by rw [session?_rebind, if_neg (Ne.symm hi)]
  history id := by
    rw [history_rebind]
    split
    next he => rw [he]
    next => rfl

/-- Another connection is at most evicted. -/
lemma others_cases (h : Admitted b b' k client clean queue) {j : ConnectionId} (hj : k ≠ j) :
    b'.connection j = b.connection j ∨ b'.connection j = (b.connection j).evict := by
  rw [h.others j hj]
  split
  · exact .inr rfl
  · exact .inl rfl

lemma withBooks (h : Admitted b b' k client clean queue) (calls : CallCounts)
    (stored : Repository StoredSession) (identified : Nat) :
    Admitted b (b'.withBooks calls stored identified) k client clean queue :=
  ⟨h.size, h.others, h.session, h.sessions, h.history⟩

lemma modifyConnection (h : Admitted b b' k client clean queue)
    (change : Connection → Connection) :
    Admitted b (b'.modifyConnection k change) k client clean queue where
  size := (size_modifyConnection change).trans h.size
  others j hj := by
    rw [connection_modifyConnection_of_ne _ hj]
    exact h.others j hj
  session := h.session
  sessions := h.sessions
  history := h.history

/-- The session that was bound may change, but stays bound. -/
lemma setSession (h : Admitted b b' k client clean queue) {next : Session}
    (hi : next.client = client) (hk : next.connection = some k) (hc : next.clean = clean) :
    Admitted b (b'.setSession client.id next) k client clean next.queue where
  size := h.size
  others := h.others
  session := ⟨next, by rw [session?_setSession, if_pos rfl], hi, hk, hc, rfl⟩
  sessions id hi := by
    rw [session?_setSession, if_neg (Ne.symm hi)]
    exact h.sessions id hi
  history := h.history

end Admitted

section enroll
variable {will : Option Will} {queue : List Publish} {change : Connection → Connection}

lemma Admitted.enroll (hf : b.Found client.id clean client session) (k : ConnectionId)
    (will : Option Will) (queue : List Publish) (change : Connection → Connection) :
    Admitted b (b.enroll k client clean will session queue change) k client clean queue :=
  ((Admitted.rebind hf k _).setSession rfl rfl rfl).modifyConnection change

lemma session?_enroll (other : ClientId) :
    (b.enroll k client clean will session queue change).session? other =
      if client.id = other then
        some (session.enrolled clean k client (b.lostFilters clean client session) will queue)
      else b.session? other := by
  rw [enroll, session?_modifyConnection, session?_setSession]
  split
  · rfl
  next ho => rw [session?_rebind, if_neg ho]

@[simp] lemma retained_enroll :
    (b.enroll k client clean will session queue change).retained = b.retained := by
  change (b.rebind client.id clean k client session
    (b.lostFilters clean client session)).retained = _
  exact retained_rebind _

lemma connection_enroll_self (hk : k < b.connections.size) :
    (b.enroll k client clean will session queue change).connection k =
      change ((b.connection k).setClientId client.id) := by
  rw [enroll, connection_modifyConnection _ (by simpa [setSession, size_rebind]), if_pos rfl,
    connection_setSession, connection_rebind_self _ hk]

lemma enroll_modifyConnection (next : Connection → Connection) :
    (b.enroll k client clean will session queue change).modifyConnection k next =
      b.enroll k client clean will session queue fun c => next (change c) :=
  modifyConnection_modifyConnection _ next

lemma setSession_setSession (b : Broker) (id : ClientId) (session next : Session) :
    (b.setSession id session).setSession id next = b.setSession id next := by
  unfold setSession
  congr 1
  refine Std.ExtTreeMap.ext_getElem? fun key => ?_
  grind

/-- The will of a CONNECT is set once its session is bound. -/
lemma setWill_rebind (b : Broker) (id : ClientId) (clean : Bool) (k : ConnectionId)
    (client : ClientInfo) (session : Session) (lost : List String) (will : Option Will)
    (calls : CallCounts) (stored : Repository StoredSession) (identified : Nat) :
    (((b.rebind id clean k client session lost).withBooks calls stored identified).setWill id k
      will).2 = ((b.rebind id clean k client session lost).setSession id
        (session.enrolled clean k client lost will [])).withBooks calls stored identified := by
  have hs : ((b.rebind id clean k client session lost).withBooks calls stored
      identified).boundSession? id k =
        some ((session.trimmed clean client lost).rebound clean k) := by
    refine boundSession?_eq_some.mpr ⟨?_, rfl⟩
    rw [session?_withBooks, session?_rebind, if_pos rfl]
  unfold setWill
  rw [hs]
  rfl

/-- What was not sent of the replay is put back, but not for a clean session. -/
lemma requeue_enroll (calls : CallCounts) (stored : Repository StoredSession) (identified : Nat)
    (unsent : List Publish) :
    (((b.enroll k client clean will session [] change).withBooks calls stored
      identified).requeue client.id k unsent).2 =
        (b.enroll k client clean will session (if clean then [] else Session.keepable unsent)
          change).withBooks calls stored identified := by
  have hs : ((b.enroll k client clean will session [] change).withBooks calls stored
      identified).boundSession? client.id k =
        some (session.enrolled clean k client (b.lostFilters clean client session) will []) := by
    refine boundSession?_eq_some.mpr ⟨?_, rfl⟩
    rw [session?_withBooks, session?_enroll, if_pos rfl]
  unfold requeue
  rw [hs]
  cases clean with
  | true => rfl
  | false =>
    have hd := setSession_setSession (b.rebind client.id false k client session
        (b.lostFilters false client session)) client.id
      (session.enrolled false k client (b.lostFilters false client session) will [])
      (session.enrolled false k client (b.lostFilters false client session) will
        (Session.keepable unsent))
    have he := congrArg
      (fun b' : Broker => (b'.modifyConnection k change).withBooks calls stored identified) hd
    simp only [Session.enrolled, Session.rebound, List.append_nil] at he ⊢
    exact he

end enroll

/-- What is replayed to a client that connects. -/
def backlog (b : Broker) (clean : Bool) (id : ClientId) : List Publish :=
  ((b.session? id).map fun session =>
    if session.isReset clean then [] else session.queue).getD []

/-- What is replayed was queued. -/
lemma mem_backlog {publish : Publish} (hp : publish ∈ b.backlog clean id) :
    ∃ session, b.session? id = some session ∧ publish ∈ session.queue := by
  unfold backlog at hp
  cases hs : b.session? id with
  | none =>
    rw [hs] at hp
    cases hp
  | some session =>
    rw [hs, Option.map_some, Option.getD_some] at hp
    split at hp
    · cases hp
    · exact ⟨session, rfl, hp⟩

lemma Found.replay_eq (h : b.Found id clean client session) :
    (if session.isReset clean then [] else session.queue) = b.backlog clean id := by
  unfold backlog
  obtain hs | ⟨hs, -, -, hq⟩ := h.own_or_new <;> rw [hs]
  · rfl
  · rw [hq, ite_self]
    rfl

/-- After its actor's chores a client was enrolled with the session it found, and what was not sent
of the replay is queued again. -/
def Enrolls (b b' : Broker) (k : ConnectionId) (client : ClientInfo) (clean : Bool)
    (will : Option Will) (sent unsent : List Publish) : Prop :=
  ∃ waiting session change calls identified, Chores k b waiting ∧
    waiting.Found client.id clean client session ∧
    (if session.isReset clean then [] else session.queue) = sent ++ unsent ∧
    b' = (waiting.enroll k client clean will session
      (if clean then [] else Session.keepable unsent) change).withBooks calls
        (waiting.filed client.id clean session ((session.trimmed clean client
          (waiting.lostFilters clean client session)).rebound clean k)) identified

/-- A client is admitted with the session it found: of what is replayed, a part was sent before
the connection failed, and the rest is queued again. -/
structure Joined (b b' : Broker) (k : ConnectionId) (client : ClientInfo) (clean : Bool)
    (will : Option Will) (sent unsent : List Publish) : Prop where
  enrolled : Enrolls b b' k client clean will sent unsent
  admitted : Admitted b b' k client clean (if clean then [] else Session.keepable unsent)
  wrote : Connection.Wrote (sent.filterMap Publish.copy?)
    { b.connection k with
      state := .established, held := [], clientId := some client.id, client := some client
      clean } (b'.connection k)
  emitted : (b.connection k).Emitted (· ∈ sent ++ unsent) (b'.connection k)
  broken : unsent ≠ [] → (b.connection k).transport.Sound → (b'.connection k).transport.Broken

/-- What an admission comes to: the client is served from now on if its CONNACK and all that is
replayed got through, and else its connection is lost. -/
structure Opens (b b' : Broker) (k : ConnectionId) (replay : List Publish)
    (result : ConnectResult × Broker) : Prop where
  served : Served k Eq b' (result.1.isAccepted, result.2)
  accepted : result.1.isAccepted = true ↔
    ¬ (b.connection k).transport.FailsWithin (replay.length + 1)

/-- What is told of an admission: whether the session was resumed, by the CONNACK and by the
result. -/
structure Greets (b b' : Broker) (k : ConnectionId) (resumed : Bool)
    (result : ConnectResult × Broker) : Prop where
  answered : result.1 = .accepted resumed ∨ result.1 = .closed
  greeted : Connection.Greeted resumed (b.connection k) (b'.connection k)

namespace Joined
variable {b' : Broker} {will : Option Will} {sent unsent : List Publish}

/-- Whoever is served on the connection from now on is its client. -/
lemma speaksFor (h : Joined b b' k client clean will sent unsent) :
    b'.SpeaksFor k (some client.id) := by
  intro info hi
  cases h.wrote.kept.client info hi
  rfl

/-- The session was found before anything was done. -/
lemma found (h : Joined b b' k client clean will sent unsent) : ∃ session,
    b.Found client.id clean client session ∧
      (if session.isReset clean then [] else session.queue) = sent ++ unsent := by
  obtain ⟨waiting, session, change, calls, identified, hc, hf, hu, -⟩ := h.enrolled
  exact ⟨session, hf.of_chores hc, hu⟩

lemma backlog_eq (h : Joined b b' k client clean will sent unsent) :
    b.backlog clean client.id = sent ++ unsent := by
  obtain ⟨session, hf, hu⟩ := h.found
  rw [← hf.replay_eq, hu]

/-- What a client keeps queued it found queued. -/
lemma queued (h : Joined b b' k client clean will sent unsent) {bound : Session}
    (hb : b'.session? id = some bound) {publish : Publish} (hp : publish ∈ bound.queue) :
    ∃ session, b.session? id = some session ∧ publish ∈ session.queue := by
  by_cases hi : id = client.id
  · subst hi
    obtain ⟨session, hs, -, -, -, hq⟩ := h.admitted.session
    obtain rfl := Option.some.inj (hb.symm.trans hs)
    rw [hq] at hp
    split at hp
    · cases hp
    · have hm : publish ∈ b.backlog clean client.id := by
        rw [h.backlog_eq]
        exact List.mem_append_right _ (List.mem_of_mem_filter hp)
      exact mem_backlog hm
  · exact ⟨bound, (h.admitted.sessions id hi).symm.trans hb, hp⟩

/-- The session has the will of the CONNECT. -/
lemma will_eq (h : Joined b b' k client clean will sent unsent) {bound : Session}
    (hb : b'.session? client.id = some bound) : bound.will = will := by
  obtain ⟨waiting, session, change, calls, identified, -, -, -, he⟩ := h.enrolled
  rw [he, session?_withBooks, session?_enroll, if_pos rfl] at hb
  cases hb
  rfl

lemma retained_eq (h : Joined b b' k client clean will sent unsent) :
    b'.retained = b.retained := by
  obtain ⟨waiting, session, change, calls, identified, hc, -, -, he⟩ := h.enrolled
  rw [he, retained_withBooks, retained_enroll, hc.retained_eq]

end Joined

/-- Copies of the replay are sent as long as the transport takes them.  If it fails, the rest goes
back to the queue and the connection is lost. -/
lemma establish_steps (hs : (b.connection k).state = .binding) (hh : (b.connection k).held = [])
    (client : ClientInfo) (outcome : BindOutcome) :
    ∃ sent unsent opening, outcome.replay = sent ++ unsent ∧
      Connection.Wrote (sent.filterMap Publish.copy?)
        { b.connection k with state := .established, held := [] } (opening (b.connection k)) ∧
      (b.connection k).Emitted (· ∈ outcome.replay) (opening (b.connection k)) ∧
      Connection.Greeted outcome.resumed (b.connection k) (opening (b.connection k)) ∧
      (unsent = [] ∧
          ¬ (b.connection k).transport.FailsWithin (outcome.replay.length + 1) ∧
          b.establish k client outcome =
            (.accepted outcome.resumed, b.modifyConnection k opening) ∨
        ((b.connection k).transport.Sound → (opening (b.connection k)).transport.Broken) ∧
          (b.connection k).transport.FailsWithin (outcome.replay.length + 1) ∧
          b.establish k client outcome = (.closed,
            ((b.modifyConnection k opening).requeue client.id k unsent).2.connectionLost k)) := by
  have hp : (Packet.connack outcome.resumed .accepted).publish? = none := rfl
  obtain ⟨sent, unsent, hu, hw, hr⟩ := Connection.establish_binding hs hh hp outcome.replay
  have hl := Connection.establish_fst hs (.connack outcome.resumed .accepted) outcome.replay
  rw [hh, List.append_nil] at hl
  refine ⟨sent, unsent, fun c => (c.establish (.connack outcome.resumed .accepted)
    outcome.replay).2, hu, hw, Connection.emitted_establish hp (fun _ ht => ht) hh,
    Connection.greeted_establish hs outcome.resumed outcome.replay, ?_⟩
  obtain ⟨he, hnil⟩ | ⟨he, hb⟩ := hr
  · exact .inl ⟨hnil, hl.mp he, establish_of_ok he⟩
  · refine .inr ⟨hb, ?_, establish_of_error he⟩
    by_contra hn
    rw [hl.mpr hn] at he
    cases he

/-- Once its session is bound a connection opens.  Copies of the replay are sent or queued, and if
not all were sent the connection has failed and is lost. -/
lemma establish_cases (hk : k < b.connections.size) (hs : (b.connection k).state = .binding)
    (hh : (b.connection k).held = []) (hc : (b.connection k).clientId = none)
    (client : ClientInfo) (clean : Bool) (will : Option Will) (session : Session)
    (calls : CallCounts) (stored : Repository StoredSession) (identified : Nat)
    (outcome : BindOutcome) :
    ∃ sent unsent change b', outcome.replay = sent ++ unsent ∧
      b' = (b.enroll k client clean will session
        (if clean then [] else Session.keepable unsent) change).withBooks calls stored identified ∧
      Connection.Wrote (sent.filterMap Publish.copy?)
        { b.connection k with
          state := .established, held := [], clientId := some client.id, client := some client
          clean } (b'.connection k) ∧
      (b.connection k).Emitted (· ∈ outcome.replay) (b'.connection k) ∧
      (unsent ≠ [] → (b.connection k).transport.Sound → (b'.connection k).transport.Broken) ∧
      Opens b b' k outcome.replay (((b.enroll k client clean will session []
        fun c => { c with client := some client, clean }).withBooks calls stored
          identified).establish k client outcome) ∧
      Greets b b' k outcome.resumed (((b.enroll k client clean will session []
        fun c => { c with client := some client, clean }).withBooks calls stored
          identified).establish k client outcome) := by
  set enrolled := (b.enroll k client clean will session []
    fun c => { c with client := some client, clean }).withBooks calls stored identified with he
  have hn : enrolled.connection k = { b.connection k with
      clientId := some client.id, client := some client, clean } := by
    rw [he, connection_withBooks, connection_enroll_self hk, Connection.setClientId, hc]
    rfl
  obtain ⟨sent, unsent, opening, hu, hw, hm, hg, hr⟩ := establish_steps (b := enrolled) (k := k)
    (by rw [hn]; exact hs) (by rw [hn]; exact hh) client outcome
  have hopened : (b.enroll k client clean will session [] fun c =>
      { c with client := some client, clean }).modifyConnection k opening =
        b.enroll k client clean will session [] fun c =>
          opening { c with client := some client, clean } := enroll_modifyConnection opening
  obtain ⟨b', hb'⟩ : ∃ b', b' = (b.enroll k client clean will session
      (if clean then [] else Session.keepable unsent) fun c =>
        opening { c with client := some client, clean }).withBooks calls stored identified :=
    ⟨_, rfl⟩
  have hc' : b'.connection k = opening (enrolled.connection k) := by
    rw [hb', connection_withBooks, connection_enroll_self hk, hn, Connection.setClientId, hc]
    rfl
  refine ⟨sent, unsent, _, b', hu, hb', ?_⟩
  rw [hc']
  rw [hn] at hw hm hg hr ⊢
  obtain ⟨hnil, hf, he⟩ | ⟨hb, hf, he⟩ := hr
  · have hx : enrolled.establish k client outcome = (.accepted outcome.resumed, b') := by
      rw [he, hb', hnil]
      simp only [Session.keepable, List.filter_nil, ite_self]
      rw [← hopened]
      rfl
    rw [hx]
    exact ⟨hw, hm, fun hne => absurd hnil hne, ⟨.goesOn rfl, iff_of_true rfl hf⟩, .inl rfl,
      by rw [hc', hn]; exact hg⟩
  · have hx : enrolled.establish k client outcome = (.closed, b'.connectionLost k) := by
      rw [he, hb', ← requeue_enroll, ← hopened]
      rfl
    rw [hx]
    exact ⟨hw, hm, fun _ hsound => hb hsound, ⟨.lost rfl, iff_of_false nofun fun hn => hn hf⟩,
      .inr rfl, by rw [hc', hn]; exact hg⟩

/-- Binding a connection and remembering its client is to enrol the client with the session it
found, unless storage failed. -/
lemma bind_enrolls (b : Broker) (k : ConnectionId) (client : ClientInfo) (clean : Bool)
    (will : Option Will) : ∃ calls stored, b.stored.Consulted stored ∧
      ((∃ error, b.bind .quiet client.id clean k client =
          (.error error, b.withBooks calls stored b.identified)) ∨
        ∃ session stored' bound,
          (b.withBooks b.calls stored b.identified).Found client.id clean client session ∧
          stored' = (b.withBooks b.calls stored b.identified).filed client.id clean session
            ((session.trimmed clean client (b.lostFilters clean client session)).rebound clean k) ∧
          b.bind .quiet client.id clean k client =
            (.ok ⟨session.existed, session.existed && !session.isReset clean,
              if session.isReset clean then [] else session.queue⟩, bound) ∧
          ∀ identified, (({ bound with identified } : Broker).setWill client.id k
            will).2.recordClient k client clean =
              ((b.withBooks b.calls stored b.identified).enroll k client clean will session []
                fun c => { c with client := some client, clean }).withBooks calls stored'
                  identified) := by
  obtain ⟨calls, stored, hc, ⟨error, -, he⟩ | ⟨session, lost, hf, hl, he⟩⟩ :=
    b.bind_cases client.id clean k client
  · exact ⟨calls, stored, hc, .inl ⟨error, he⟩⟩
  subst hl
  refine ⟨calls, stored, hc, .inr ⟨session, _, _, hf.consulted b.calls hc b.identified, rfl, he,
    fun identified => ?_⟩⟩
  set waiting := b.withBooks b.calls stored b.identified with hw
  set lost := b.lostFilters clean client session
  generalize waiting.filed client.id clean session ((session.trimmed clean client lost).rebound
    clean k) = stored'
  have hr : (b.rebind client.id clean k client session lost).withBooks calls stored' identified =
      (waiting.rebind client.id clean k client session lost).withBooks calls stored'
        identified := by
    rw [hw, rebind_withBooks]
    rfl
  have hset := setWill_rebind waiting client.id clean k client session lost will calls stored'
    identified
  rw [← hr] at hset
  exact congrArg (fun b' : Broker => b'.recordClient k client clean) hset

/-- A connection that waits is turned away because storage failed, or a session is bound to it and
it is opened. -/
theorem bindAndEstablish_cases (hs : (b.connection k).state = .binding)
    (hh : (b.connection k).held = []) (hc : (b.connection k).clientId = none) (connect : Connect)
    (client : ClientInfo) (isGiven : Bool) :
    TurnedAway k (some .serverUnavailable) b
        (b.bindAndEstablish .quiet k connect client isGiven) ∨
      ∃ outcome bound sent unsent b', b.bind .quiet client.id connect.clean k client =
          (.ok outcome, bound) ∧ outcome.replay = sent ++ unsent ∧
        Joined b b' k client connect.clean connect.will sent unsent ∧
        Opens b b' k (sent ++ unsent) (b.bindAndEstablish .quiet k connect client isGiven) ∧
        Greets b b' k outcome.resumed (b.bindAndEstablish .quiet k connect client isGiven) := by
  have hk : k < b.connections.size := lt_size_of_state (by simp [hs])
  obtain ⟨calls, stored, hc', ⟨error, he⟩ | ⟨session, stored', bound, hf, hst, he, hb⟩⟩ :=
    b.bind_enrolls k client connect.clean connect.will
  · left
    obtain ht | hn := bindAndEstablish_turnedAway_or .quiet b k connect client isGiven
    · exact ht
    · refine absurd ?_ (hn .serverUnavailable)
      unfold bindAndEstablish
      rw [he]
      rfl
  · right
    set waiting := b.withBooks b.calls stored b.identified with hw
    obtain ⟨identified, hi⟩ : ∃ identified, b.bindAndEstablish .quiet k connect client isGiven =
        ((waiting.enroll k client connect.clean connect.will session []
          fun c => { c with client := some client, clean := connect.clean }).withBooks calls
            stored' identified).establish k client
          ⟨session.existed, session.existed && !session.isReset connect.clean,
            if session.isReset connect.clean then [] else session.queue⟩ := by
      unfold bindAndEstablish
      rw [he]
      dsimp only
      cases isGiven with
      | true =>
        refine ⟨bound.identified + 1, ?_⟩
        rw [← hb]
        rfl
      | false =>
        refine ⟨bound.identified, ?_⟩
        rw [← hb]
        rfl
    obtain ⟨sent, unsent, change, b', hu, hb', hwrote, hemitted, hbroken, hopens, hgreets⟩ :=
      establish_cases (b := waiting) hk hs hh hc client connect.clean connect.will session calls
        stored' identified ⟨session.existed, session.existed && !session.isReset connect.clean,
          if session.isReset connect.clean then [] else session.queue⟩
    dsimp only at hu
    have ha := (Admitted.enroll hf k connect.will
      (if connect.clean then [] else Session.keepable unsent) change).withBooks calls stored'
        identified
    rw [← hb'] at ha
    rw [hi]
    exact ⟨_, bound, sent, unsent, b', he, hu, ⟨⟨waiting, session, change, calls, identified,
      .single (.books b.calls hc' b.identified), hf, hu, hst ▸ hb'⟩,
      ⟨ha.size, ha.others, ha.session, ha.sessions, ha.history⟩, hwrote, hu ▸ hemitted, hbroken⟩,
      ⟨hopens.served, hu ▸ hopens.accepted⟩, ⟨hgreets.answered, hgreets.greeted⟩⟩

/-- What comes of a CONNECT that is not turned away: a session is bound to its connection, which is
then opened. -/
structure Binds (b : Broker) (k : ConnectionId) (connect : Connect) (client : ClientInfo)
    (outcome : BindOutcome) (bound : Broker) : Prop where
  idle : (b.connection k).state = .idle
  willAllowed : b.willAllowed connect = true
  resolved : ∃ isGiven, b.resolveId connect = .ok (client.id, isGiven)
  authenticated : (b.authenticate .quiet connect client.id).1 = .ok client
  bind : ∃ calls isGiven, (b.awaiting k calls).bind .quiet client.id connect.clean k client =
      (.ok outcome, bound) ∧ b.processConnect .quiet k connect =
        (b.awaiting k calls).bindAndEstablish .quiet k connect client isGiven

/-- A CONNECT is turned away, with a code only if it is the first, or it admits its client. -/
theorem admission_outcome (b : Broker) (k : ConnectionId) (connect : Connect)
    (hh : (b.connection k).held = [])
    (hc : (b.connection k).state = .idle → (b.connection k).clientId = none) :
    (∃ answer, TurnedAway k answer b (b.processConnect .quiet k connect) ∧
        (answer ≠ none → (b.connection k).state = .idle)) ∨
      ∃ client outcome bound sent unsent b', Binds b k connect client outcome bound ∧
        outcome.replay = sent ++ unsent ∧
        Joined b b' k client connect.clean connect.will sent unsent ∧
        Opens b b' k (sent ++ unsent) (b.processConnect .quiet k connect) ∧
        Greets b b' k outcome.resumed (b.processConnect .quiet k connect) := by
  obtain ⟨answer, ht, hi⟩ | ⟨client, isGiven, calls, hs, ha, hi, hauth, he⟩ :=
    processConnect_turnedAway_or (Interlude.silentAt_quiet .authenticate) b k connect
  · exact .inl ⟨answer, ht, hi⟩
  have hk := lt_size_of_idle hs
  have hw : (b.awaiting k calls).connection k = { b.connection k with state := .binding } := by
    rw [awaiting, connection_withBooks, connection_modifyConnection _ hk, if_pos rfl]
  obtain hr | ⟨outcome, bound, sent, unsent, b', hbind, hu, hj, hd, hg⟩ := bindAndEstablish_cases
    (b := b.awaiting k calls) (k := k) (by rw [hw]) (by rw [hw]; exact hh)
    (by rw [hw]; exact hc hs) connect client isGiven
  · rw [he]
    exact .inl ⟨_, hr.of_awaiting, fun _ => hs⟩
  · rw [← he] at hd hg
    refine .inr ⟨client, outcome, bound, sent, unsent, b',
      ⟨hs, ha, ⟨isGiven, hi⟩, hauth, calls, isGiven, hbind, he⟩, hu, ?_, ⟨hd.served, ?_⟩,
      hg.answered, ?_⟩
    · obtain ⟨⟨waiting, session, change, calls', identified, hchores, hf, hu, hb'⟩, ha, ho, hm,
        hb⟩ := hj
      rw [hw] at ho hb hm
      have hz : (b.awaiting k calls).connections.size = b.connections.size :=
        size_modifyConnection (b := b) (k := k) fun c => { c with state := .binding }
      refine ⟨⟨waiting, session, change, calls', identified,
        (awaiting_chores hs calls).trans hchores, hf, hu, hb'⟩,
        ⟨ha.size.trans hz, fun j hj => ?_, ha.session, ha.sessions, ha.history⟩, ho, hm, hb⟩
      have hj' : (b.awaiting k calls).connection j = b.connection j := by
        rw [awaiting, connection_withBooks, connection_modifyConnection_of_ne _ hj]
      rw [ha.others j hj, hj', hz]
      rfl
    · rw [hd.accepted, hw]
    · have hgreeted := hg.greeted
      rw [hw] at hgreeted
      exact hgreeted

/-- A CONNECT is refused, or it admits its client. -/
theorem admission_cases (b : Broker) (k : ConnectionId) (connect : Connect)
    (hh : (b.connection k).held = [])
    (hc : (b.connection k).state = .idle → (b.connection k).clientId = none) :
    Refused k b (b.processConnect .quiet k connect) ∨
      ∃ client isGiven sent unsent b', (b.connection k).state = .idle ∧
        b.willAllowed connect = true ∧ b.resolveId connect = .ok (client.id, isGiven) ∧
        Joined b b' k client connect.clean connect.will sent unsent ∧
        Opens b b' k (sent ++ unsent) (b.processConnect .quiet k connect) := by
  obtain ⟨answer, ht, -⟩ | ⟨client, outcome, bound, sent, unsent, b', hb, -, hj, hd, -⟩ :=
    b.admission_outcome k connect hh hc
  · exact .inl ht.refused
  · obtain ⟨isGiven, hi⟩ := hb.resolved
    exact .inr ⟨client, isGiven, sent, unsent, b', hb.idle, hb.willAllowed, hi, hj, hd⟩

end Broker
end MqttBroker
