import MqttBroker.Proofs.Broker.Lasting
import MqttBroker.Proofs.Broker.Transcript

/-!
What a client that connects finds, told by what happened to its subscriptions before: whether its
session is resumed, and which subscriptions it has then.
-/
namespace MqttBroker.Broker

/-- The client that is served on an open connection, if it has the given identifier. -/
def served? (b : Broker) (id : ClientId) (k : ConnectionId) : Option ClientInfo :=
  (b.connection k).client.filter fun client => (b.connection k).isOpen && client.id == id

/-- The turn that a CONNECT is for a client, if it binds its connection for that client.  It may be
lost right afterwards. -/
def connectTurns (b : Broker) (id : ClientId) (k : ConnectionId) (connect : Connect) : List Turn :=
  if (b.connection k).clientId = none ∧
      ((b.processConnect .quiet k connect).2.connection k).clientId = some id then
    ((b.authenticate .quiet connect id).1.toOption.map fun client =>
      .bound connect.clean (b.forbids client)).toList
  else []

/-- The turns that a client takes by a packet: filters are granted as they are acknowledged, and
given up if its session is bound to the connection. -/
def packetTurns (b : Broker) (id : ClientId) (k : ConnectionId) (packet : Packet) : List Turn :=
  match packet with
  | .connect connect => b.connectTurns id k connect
  | .subscribe _ requests =>
    ((b.served? id k).map fun client =>
      grants requests (subscribeAll .quiet client k requests b).1.1).getD []
  | .unsubscribe _ filters =>
    if (b.served? id k).isSome ∧ (b.boundSession? id k).isSome then filters.map .removed else []
  | _ => []

/-- The turns that a client takes by an operation, the latest one last. -/
def turnsOf (b : Broker) (id : ClientId) (operation : Operation) : List Turn :=
  match operation with
  | .connect k connect => b.connectTurns id k connect
  | .event k (.packet packet) => b.packetTurns id k packet
  | .expire other => if other = id ∧ (b.expire other).1 then [.expired] else []
  | _ => []

/-- A broker, and what happened to the subscriptions of every client since its storage was empty.
It was opened, its connections were driven by their actors, and now and then it was opened again on
the same storage, which never fails. -/
inductive Story : (ClientId → Turn.Past) → Broker → Prop
  | opened {b} (h : b.Opened) (he : b.stored.records = ∅) (hr : b.stored.Reliable) :
    Story (fun _ => []) b
  | performed {past b operation} (h : Story past b) (ho : operation.IsDriven b) :
    Story (fun id => (b.turnsOf id operation).reverse ++ past id) (b.perform operation)
  | restarted {past b later} (h : Story past b) (ho : later.Opened)
    (hs : later.stored = b.stored) : Story past later

variable {b b' : Broker} {k : ConnectionId} {id : ClientId} {client : ClientInfo}
  {connect : Connect} {operation : Operation} {past : ClientId → Turn.Past}

section effects

lemma kept?_of_records (h : b'.stored.records = b.stored.records) (id : ClientId) :
    b'.kept? id = b.kept? id := by rw [kept?, h, kept?]

/-- Whoever is turned away is bound to nothing. -/
lemma TurnedAway.clientId {answer : Option ConnackCode} {result : ConnectResult × Broker}
    (h : TurnedAway k answer b result) :
    (result.2.connection k).clientId = (b.connection k).clientId :=
  (h.refused.services.moves.kept k).clientId

/-- Whoever is admitted is bound for its client, even if its connection is lost at once. -/
lemma Opens.clientId {clean : Bool} {will : Option Will} {sent unsent : List Publish}
    {result : ConnectResult × Broker} (ho : Opens b b' k (sent ++ unsent) result)
    (hj : Joined b b' k client clean will sent unsent) :
    (result.2.connection k).clientId = some client.id :=
  ((ho.served.still.moves hj.speaksFor).kept k).clientId.trans hj.wrote.steady.clientId

/-- A CONNECT is a turn of the client that it binds its connection for. -/
lemma Binds.connectTurns {outcome : BindOutcome} {bound : Broker} (hc : b.Consistent)
    (hb : Binds b k connect client outcome bound)
    (hi : ((b.processConnect .quiet k connect).2.connection k).clientId = some client.id)
    (other : ClientId) : b.connectTurns other k connect =
      if client.id = other then [.bound connect.clean (b.forbids client)] else [] := by
  unfold Broker.connectTurns
  by_cases ho : client.id = other
  · subst ho
    rw [if_pos ⟨hc.clientId_of_idle hb.idle, hi⟩, if_pos rfl, hb.authenticated]
    rfl
  · rw [if_neg ho, if_neg]
    rintro ⟨-, hi'⟩
    exact ho (Option.some.inj (hi.symm.trans hi'))

/-- What a CONNECT does to what is kept. -/
lemma Faithful.kept?_processConnect (h : b.Faithful) (hc : b.Consistent) (ho : b.Owned none)
    (k : ConnectionId) (connect : Connect) (id : ClientId) :
    (b.processConnect .quiet k connect).2.kept? id =
      Turn.carryAll (b.connectTurns id k connect) (b.kept? id) := by
  obtain ⟨answer, ht, -⟩ | ⟨client, outcome, bound, sent, unsent, b', hb, -, hj, hopens, -⟩ :=
    b.admission_outcome k connect (hc.regular k).held hc.clientId_of_idle
  · have hn : b.connectTurns id k connect = [] := by
      refine if_neg fun ⟨hn, hi⟩ => ?_
      rw [ht.clientId, hn] at hi
      cases hi
    rw [hn]
    exact kept?_of_records (ht.refused.services.keeps ho.agrees).1 id
  · have hparted := hopens.served.partings.keeps (ho.joined hc hb.idle hj).agrees
    rw [hb.connectTurns hc (hopens.clientId hj), kept?_of_records hparted.1, h.kept?_joined hj]
    split
    · rfl
    · rfl

/-- What a packet of an admitted client does to what is kept. -/
lemma Faithful.kept?_onPacket (h : b.Faithful) (hc : b.Consistent) (ho : b.Owned none)
    (hk : (b.connection k).client = some client) (hopen : (b.connection k).isOpen = true)
    (packet : Packet) (id : ClientId) : (b.onPacket .quiet client k packet).2.kept? id =
      Turn.carryAll (b.packetTurns id k packet) (b.kept? id) := by
  have hserved : b.served? id k = if client.id = id then some client else none := by
    rw [served?, hk, hopen]
    by_cases hi : client.id = id
    · simp [Option.filter, hi]
    · simp [Option.filter, hi]
  by_cases hs : ∃ i requests, packet = .subscribe i requests
  · obtain ⟨i, requests, rfl⟩ := hs
    have hr := records_onSubscribe b client k i requests ho.agrees
    change (b.onSubscribe .quiet client k i requests).2.kept? id = _
    rw [kept?_of_records hr, h.kept?_subscribeAll client k requests id]
    unfold packetTurns
    rw [hserved]
    split
    · rfl
    · rfl
  by_cases hu : ∃ i filters, packet = .unsubscribe i filters
  · obtain ⟨i, filters, rfl⟩ := hu
    have hr := records_onUnsubscribe b client k i filters ho.agrees
    change (b.onUnsubscribe .quiet client k i filters).2.kept? id = _
    rw [kept?_of_records hr, h.kept?_unsubscribeAll client.id k filters id]
    unfold packetTurns
    rw [hserved]
    by_cases hi : client.id = id
    · subst hi
      simp
    · simp [hi]
  have hr : Keeps b (b.onPacket .quiet client k packet).2 := keeps_onPacket b client k
    (fun i requests he => hs ⟨i, requests, he⟩) fun i filters he => hu ⟨i, filters, he⟩
  rw [kept?_of_records (hr ho.agrees).1]
  have hn : b.packetTurns id k packet = [] := by
    cases packet with
    | connect connect =>
      refine if_neg fun hn => ?_
      rw [hc.client_of_clientId hn.1] at hk
      cases hk
    | subscribe i requests => exact absurd ⟨i, requests, rfl⟩ hs
    | unsubscribe i filters => exact absurd ⟨i, filters, rfl⟩ hu
    | _ => rfl
  rw [hn]
  rfl

lemma Faithful.kept?_handle (h : b.Faithful) (hc : b.Consistent) (ho : b.Owned none)
    (k : ConnectionId) (event : Event) (id : ClientId) : (b.handle .quiet k event).2.kept? id =
      Turn.carryAll (b.turnsOf id (.event k event)) (b.kept? id) := by
  have hlost : (b.connectionLost k).kept? id = b.kept? id :=
    kept?_of_records (keeps_connectionLost b k ho.agrees).1 id
  cases event with
  | evicted => rfl
  | transportClosed => exact hlost
  | packet packet =>
    change _ = Turn.carryAll (b.packetTurns id k packet) _
    -- whoever is not served on an open connection takes no turn, but for a first CONNECT
    have hidle : b.served? id k = none → (∀ connect, packet = .connect connect →
        (b.connection k).clientId ≠ none) → b.packetTurns id k packet = [] := by
      intro hn hf
      cases packet with
      | connect connect => exact if_neg fun hi => hf connect rfl hi.1
      | subscribe | unsubscribe => simp [packetTurns, hn]
      | _ => rfl
    cases hk : (b.connection k).client with
    | none =>
      by_cases hp : ∃ connect, packet = .connect connect
      · obtain ⟨connect, rfl⟩ := hp
        change (b.perform (.event k (.packet (.connect connect)))).kept? id = _
        rw [perform_presents (.inr rfl) hk]
        exact h.kept?_processConnect hc ho k connect id
      · have hn : b.served? id k = none := by
          rw [served?, hk]
          rfl
        rw [(handle_of_none hk packet).resolve_left fun ⟨connect, he, _⟩ => hp ⟨connect, he⟩,
          hidle hn fun connect he => absurd ⟨connect, he⟩ hp]
        exact hlost
    | some client =>
      rw [handle_of_some hk]
      split
      next hopen => exact h.kept?_onPacket hc ho hk hopen packet id
      next hopen =>
        have hn : b.served? id k = none := by simp [served?, hk, Option.filter, hopen]
        rw [hidle hn fun connect _ hi => ?_]
        · exact hlost
        · rw [hc.client_of_clientId hi] at hk
          cases hk

/-- What any operation of the actors does to what is kept for a client. -/
theorem Faithful.kept?_perform (h : b.Faithful) (hc : b.Consistent) (ho : b.Owned none)
    (hd : operation.IsDriven b) (id : ClientId) : (b.perform operation).kept? id =
      Turn.carryAll (b.turnsOf id operation) (b.kept? id) := by
  cases operation with
  | accept | fault => rfl
  | connect k connect => exact h.kept?_processConnect hc ho k connect id
  | event k event => exact h.kept?_handle hc ho k event id
  | expire other =>
    change (b.expire other).2.kept? id =
      Turn.carryAll (if other = id ∧ (b.expire other).1 then [.expired] else []) (b.kept? id)
    rw [h.kept?_expire other id]
    split
    · rfl
    · rfl
  | _ => exact hd.elim

end effects

section stories

/-- What holds in every story: above all, what is kept for a client is what it came to. -/
structure Telling (past : ClientId → Turn.Past) (b : Broker) : Prop where
  consistent : b.Consistent
  owned : b.Owned none
  mirrored : b.Mirrored
  proper : b.Proper
  faithful : b.Faithful
  kept id : b.kept? id = Turn.kept (past id)

lemma Telling.perform (h : Telling past b) (ho : operation.IsDriven b) :
    Telling (fun id => (b.turnsOf id operation).reverse ++ past id) (b.perform operation) where
  consistent := h.consistent.perform ho
  owned := h.owned.perform h.consistent ho
  mirrored := Mirrored.upheld.perform h.mirrored operation
  proper := (h.proper.perform h.consistent ho).1
  faithful := Faithful.upheld.perform h.faithful operation
  kept id := by
    rw [h.faithful.kept?_perform h.consistent h.owned ho, h.kept, Turn.kept_append]

/-- A broker that was opened on what is stored knows nothing but that. -/
lemma Telling.of_opened (h : b.Opened) (hr : b.stored.Reliable)
    (hk : ∀ id, b.kept? id = Turn.kept (past id)) : Telling past b :=
  ⟨.of_opened h, .of_opened h, .of_opened h, proper_of_opened h, .of_opened h hr, hk⟩

theorem Story.telling (h : Story past b) : Telling past b := by
  induction h with
  | opened h he hr =>
    refine .of_opened h hr fun id => ?_
    rw [kept?, he]
    simp [Turn.kept]
  | performed _ ho ih => exact ih.perform ho
  | restarted _ ho hs ih =>
    refine .of_opened ho (hs ▸ ih.faithful.reliable) fun id => ?_
    rw [← ih.kept id]
    exact kept?_of_records (congrArg Repository.records hs) id

/-- Every run goes on with the story. -/
lemma Story.after (h : Story past b) {operations : List Operation}
    (ha : b.Allows (fun b operation => operation.IsDriven b) operations) :
    ∃ past, Story past (b.after operations) := by
  induction operations generalizing b past with
  | nil => exact ⟨past, h⟩
  | cons operation operations ih => exact ih (h.performed ha.1) ha.2

end stories

section resumption

/-- Whatever becomes of its connection, a client that was admitted got the CONNACK it was greeted
with, unless the transport failed. -/
lemma Opens.greeted {clean resumed : Bool} {will : Option Will} {sent unsent : List Publish}
    {result : ConnectResult × Broker} (ho : Opens b b' k (sent ++ unsent) result)
    (hj : Joined b b' k client clean will sent unsent) (hg : Greets b b' k resumed result)
    (hr : (b.connection k).received = []) :
    Connection.Greeted resumed (b.connection k) (result.2.connection k) := by
  have hstate : (b'.connection k).state = .established := by rw [hj.wrote.frame]
  have hk : k < b'.connections.size := lt_size_of_state (by simp [hstate])
  have hserved := ho.served
  generalize result.1.isAccepted = accepted at hserved
  generalize result.2 = final at hserved ⊢
  cases hserved with
  | goesOn he => exact he ▸ hg.greeted
  | lost he =>
    subst he
    have hclosed : (b'.closeConnection k).connection k = (b'.connection k).close := by
      rw [closeConnection, connection_modifyConnection _ hk, if_pos rfl]
    have hp := (hg.greeted.proper hr).1
    rw [← hclosed] at hp
    have he := ((connectionLost_continues b' k k).ended hp (b'.state_closeConnection k)).2
    rw [hclosed] at he
    have hw : ((b'.connectionLost k).connection k).transport.written =
        (b'.connection k).transport.written := Array.toList_inj.mp he
    rw [Connection.Greeted, hw]
    exact hg.greeted

/-- Storage and the session tell the same of whether a client is known. -/
lemma Faithful.bound (h : b.Faithful) (hm : b.Mirrored) {clean : Bool} {outcome : BindOutcome}
    {bound : Broker} (he : b.bind .quiet id clean k client = (.ok outcome, bound)) :
    outcome.resumed = (!clean && (b.kept? id).isSome) ∧
      ∃ session, bound.session? id = some session ∧ session.connection = some k ∧
        session.subscriptions = (if clean then ∅
          else (Turn.bound clean (b.forbids client)).apply ((b.kept? id).getD ∅)) ∧
        (∀ filter, bound.directory.find? filter id = session.subscriptions[filter]?) ∧
        (outcome.resumed = false → outcome.replay = [] ∧ session.queue = [] ∧
          session.will = none) := by
  have hb := Mirrored.upheld.bind hm id clean k client
  obtain ⟨calls, stored, hc, ⟨error, -, he'⟩ | ⟨session, lost, hf, rfl, he'⟩⟩ :=
    b.bind_cases id clean k client
  · rw [he] at he'
    cases he'
  have hs := h.subscriptions_eq hf
  have hr := h.resumed_eq hf
  rw [he'] at he hb
  obtain ⟨hout, rfl⟩ := Prod.mk.inj he
  cases hout
  generalize b.lostFilters clean client session = lost at hs hb ⊢
  have hfound : (b.rebind id clean k client session lost).session? id =
      some ((session.trimmed clean client lost).rebound clean k) := by
    rw [session?_rebind, if_pos rfl]
  refine ⟨hr, _, hfound, rfl, hs, fun filter => ?_, fun hn => ?_⟩
  · rw [hb.routed, held?, session?_withBooks, hfound, Option.bind_some]
  · -- only a session that is new has no earlier state and is not reset
    cases hreset : session.isReset clean with
    | true =>
      simp [Session.rebound, Session.trimmed, hreset]
    | false =>
      have hn : session.existed = false := by simpa [hreset] using hn
      cases hf with
      | own hs =>
        rw [h.existed id session hs] at hn
        cases hn
      | fresh => exact ⟨rfl, rfl, rfl⟩
      | restored => cases hn

/-- In every story of a broker on storage that does not fail, a CONNECT that binds its connection
for a client resumes the session exactly if it asks for one that is not clean, the latest CONNECT
before that was bound for the client did so, too, and the session has not expired since.  The
CONNACK and the result say so.  Right after the bind a session that was resumed has the subscriptions
that all turns of its client lead to since it was not resumed last; any other session has neither
subscriptions nor a queue nor a will, and nothing is replayed.  The directory has the same
subscriptions.  The CONNECT is itself the next turn of its client. -/
theorem session_present_tells_history (h : Story past b) (hp : operation.Presents k connect)
    (hn : (b.connection k).clientId = none)
    (hi : ((b.perform operation).connection k).clientId = some id) :
    ∃ client outcome bound, client.id = id ∧ Binds b k connect client outcome bound ∧
      b.turnsOf id operation = [.bound connect.clean (b.forbids client)] ∧
      ((b.processConnect .quiet k connect).1 = .accepted outcome.resumed ∨
        (b.processConnect .quiet k connect).1 = .closed) ∧
      Connection.Greeted outcome.resumed (b.connection k) ((b.perform operation).connection k) ∧
      (outcome.resumed = true ↔ connect.clean = false ∧ Turn.Lasts (past id)) ∧
      ∃ session, bound.session? id = some session ∧ session.connection = some k ∧
        session.subscriptions = (if outcome.resumed then
          Turn.replay (.bound connect.clean (b.forbids client) :: Turn.sinceReset (past id))
          else ∅) ∧
        (∀ filter, bound.directory.find? filter id = session.subscriptions[filter]?) ∧
        (outcome.resumed = false → outcome.replay = [] ∧ session.queue = [] ∧
          session.will = none) := by
  have ht := h.telling
  have hc := ht.consistent
  have hclient := hc.client_of_clientId hn
  have hperform := perform_presents hp hclient
  have hturns : b.turnsOf id operation = b.connectTurns id k connect := by
    obtain rfl | rfl := hp
    · rfl
    · rfl
  rw [hperform] at hi ⊢
  obtain ⟨answer, haway, -⟩ | ⟨client, outcome, bound, sent, unsent, b', hb, -, hj, ho, hg⟩ :=
    b.admission_outcome k connect (hc.regular k).held hc.clientId_of_idle
  · rw [haway.clientId, hn] at hi
    cases hi
  have hid : client.id = id := Option.some.inj ((ho.clientId hj).symm.trans hi)
  subst hid
  obtain ⟨calls, isGiven, hbind, -⟩ := hb.bind
  have hwait := awaiting_chores hb.idle calls
  obtain ⟨hr, session, hs, hk, hsubs, hrouted, hempty⟩ :=
    (Faithful.upheld.chores ht.faithful hwait).bound (Mirrored.upheld.chores ht.mirrored hwait) hbind
  have hkept : (b.awaiting k calls).kept? client.id = Turn.kept (past client.id) := ht.kept client.id
  have hresumed : outcome.resumed = Turn.resumes connect.clean (past client.id) := by
    rw [hr, hkept, Turn.isSome_kept, Turn.resumes]
  have hreceived : (b.connection k).received = [] :=
    (ht.proper k).waiting (by rw [Connection.Begun, hb.idle]; simp)
  refine ⟨client, outcome, bound, rfl, hb, ?_, hg.answered, ho.greeted hj hg hreceived, ?_,
    session, hs, hk, ?_, hrouted, hempty⟩
  · rw [hturns, hb.connectTurns hc hi, if_pos rfl]
  · rw [hresumed, Turn.resumes, Bool.and_eq_true, Bool.not_eq_true', Turn.persists_iff]
  · rw [hsubs, hkept, hresumed]
    exact Turn.apply_kept connect.clean (b.forbids client) (past client.id)

/-- A client that subscribed comes back to a broker that was opened again. -/
theorem session_present_tells_history_restarted :
    let connect : Connect := ⟨"MQTT", 4, false, "c", none, none, none⟩
    let before := (lenient {} .empty).after [.accept, .connect 0 connect,
      .event 0 (.packet (.subscribe 1 [("a", .atLeastOnce), ("b", .exactlyOnce)])),
      .event 0 (.packet (.unsubscribe 2 ["b"]))]
    let b := (lenient {} before.stored).after [.accept]
    ∃ past client outcome bound session, Story past b ∧ Binds b 0 connect client outcome bound ∧
      outcome.resumed = true ∧ Turn.Lasts (past "c") ∧ bound.session? "c" = some session ∧
      session.subscriptions =
        Turn.replay (.bound false (b.forbids client) :: Turn.sinceReset (past "c")) := by
  intro connect before b
  have hrestart : ∀ {past b}, Story past b → Story past (lenient {} b.stored) :=
    fun h => h.restarted (opened_lenient {} _) rfl
  have hopened : Story (fun _ => []) (lenient {} .empty) :=
    .opened (opened_lenient {} .empty) rfl fun _ _ => rfl
  obtain ⟨earlier, hbefore⟩ : ∃ earlier, Story earlier before :=
    hopened.after ⟨trivial, trivial, nofun, nofun, trivial⟩
  obtain ⟨past, h⟩ : ∃ past, Story past b := (hrestart hbefore).after ⟨trivial, trivial⟩
  have hn : (b.connection 0).clientId = none := by decide +kernel
  have hi : ((b.perform (.connect 0 connect)).connection 0).clientId = some "c" := by
    decide +kernel
  have hresult : (b.processConnect .quiet 0 connect).1 = .accepted true := by decide +kernel
  obtain ⟨client, outcome, bound, -, hb, -, ha, -, hr, session, hs, -, hsubs, -⟩ :=
    session_present_tells_history h (.inl rfl) hn hi
  have ht : outcome.resumed = true := by
    rw [hresult] at ha
    obtain ha | ha := ha
    · exact (ConnectResult.accepted.inj ha).symm
    · cases ha
  rw [ht, if_pos rfl] at hsubs
  exact ⟨past, client, outcome, bound, session, h, hb, ht, (hr.mp ht).2, hs, hsubs⟩

end resumption
end MqttBroker.Broker
