import MqttBroker.Proofs.Broker.Recorded
import MqttBroker.Proofs.Broker.SingleOwner
import MqttBroker.Proofs.Session.Turns

/-!
What is kept of the subscriptions of a client on storage that never fails.  It outlasts the session
in memory and the broker itself, and only what concerns the subscriptions of the client changes it.
-/
namespace MqttBroker.Broker

/-- The subscriptions that are kept for a client that comes back. -/
def kept? (b : Broker) (id : ClientId) : Option (Table QoS) :=
  (b.stored.records[id]?).map Session.restoredSubscriptions

/-- Storage never fails, and has of every session in memory what it is to have. -/
structure Faithful (b : Broker) : Prop where
  reliable : b.stored.Reliable
  existed : ∀ id session, b.session? id = some session → session.existed = true
  recorded : ∀ id session, b.session? id = some session → b.stored.records[id]? = session.durable

variable {b b' b'' : Broker} {k : ConnectionId} {id other : ClientId} {session next : Session}
  {client : ClientInfo}

section writes

@[simp] lemma failure_saved (clean : Bool) (session : Session) :
    (b.saved id clean session).failure = b.stored.failure := by
  unfold saved
  split
  · rfl
  · exact Repository.failure_request _ _ _

@[simp] lemma failure_cleared (due : Bool) : (b.cleared id due).failure = b.stored.failure := by
  unfold cleared
  split
  · exact Repository.failure_request _ _ _
  · rfl

lemma getElem?_saved (h : b.stored.Reliable) (id other : ClientId) (clean : Bool)
    (session : Session) : (b.saved id clean session).records[other]? =
      if clean = false ∧ id = other then some session.toStored else b.stored.records[other]? := by
  cases clean with
  | true => simp [saved]
  | false => simp [saved, h.getElem?_save]

lemma getElem?_cleared (h : b.stored.Reliable) (id other : ClientId) (due : Bool) :
    (b.cleared id due).records[other]? =
      if due = true ∧ id = other then none else b.stored.records[other]? := by
  cases due with
  | true => simp [cleared, h.getElem?_delete]
  | false => simp [cleared]

lemma getElem?_filed (h : b.stored.Reliable) (id other : ClientId) (clean : Bool)
    (session bound : Session) : (b.filed id clean session bound).records[other]? =
      if id = other ∧ (clean = true → (session.existed && session.clean) = false) then
        if clean then none else some bound.toStored
      else b.stored.records[other]? := by
  cases clean with
  | true => simp [filed, getElem?_cleared h, and_comm, imp_iff_not_or]
  | false => simp [filed, h.getElem?_save]

end writes

namespace Faithful

/-- What is kept for a client with a session is what the session has. -/
lemma kept?_eq (h : b.Faithful) (hs : b.session? id = some session) :
    b.kept? id = if session.clean then none else some session.subscriptions := by
  rw [kept?, h.recorded id session hs, Session.durable]
  split
  · rfl
  · rw [Option.map_some, session.restoredSubscriptions_toStored]

/-- The session of one client is changed, and what is stored for it. -/
lemma change (h : b.Faithful) (id : ClientId) (hr : b'.stored.failure = b.stored.failure)
    (hs : ∀ other, id ≠ other → b'.session? other = b.session? other)
    (ho : ∀ other, id ≠ other → b'.stored.records[other]? = b.stored.records[other]?)
    (hi : ∀ session, b'.session? id = some session →
      session.existed = true ∧ b'.stored.records[id]? = session.durable) : b'.Faithful := by
  refine ⟨h.reliable.congr hr, fun other session hf => ?_, fun other session hf => ?_⟩ <;>
    by_cases he : id = other
  · subst he
    exact (hi session hf).1
  · rw [hs other he] at hf
    exact h.existed other session hf
  · subst he
    exact (hi session hf).2
  · rw [hs other he] at hf
    rw [ho other he]
    exact h.recorded other session hf

/-- Only the sessions and the storage matter. -/
lemma congr (h : b.Faithful) (hs : ∀ id, b'.session? id = b.session? id)
    (hc : b.stored.Consulted b'.stored) : b'.Faithful where
  reliable := h.reliable.congr hc.failure
  existed id session hf := h.existed id session ((hs id).symm.trans hf)
  recorded id session hf := by
    rw [hc.records]
    exact h.recorded id session ((hs id).symm.trans hf)

lemma setSession (h : b.Faithful) (hs : b.session? id = some session)
    (hn : session.SameGrants next) : (b.setSession id next).Faithful := by
  refine h.change id rfl (fun other ho => ?_) (fun _ _ => rfl) fun found hf => ?_
  · rw [session?_setSession, if_neg ho]
  · rw [session?_setSession, if_pos rfl] at hf
    cases hf
    exact ⟨hn.existed.trans (h.existed id session hs),
      (h.recorded id session hs).trans hn.durable.symm⟩

/-- A session is changed and saved, or is clean and was so before. -/
lemma saved (h : b.Faithful) (hs : b.session? id = some session)
    (hc : next.clean = session.clean) (he : next.existed = session.existed)
    (directory : Subscription.Directory) (calls : CallCounts) :
    (({ b with directory }.setSession id next).withBooks calls (b.saved id session.clean next)
      b.identified).Faithful := by
  refine h.change id (failure_saved _ _) (fun other ho => ?_) (fun other ho => ?_) fun found hf => ?_
  · rw [session?_withBooks, session?_setSession, if_neg ho]
    rfl
  · exact (getElem?_saved h.reliable id other _ next).trans (if_neg fun hn => ho hn.2)
  · rw [session?_withBooks, session?_setSession, if_pos rfl] at hf
    cases hf
    refine ⟨he.trans (h.existed id session hs), ?_⟩
    refine (getElem?_saved h.reliable id id _ next).trans ?_
    rw [h.recorded id session hs, Session.durable, Session.durable, hc]
    cases session.clean <;> simp

lemma teardown (h : b.Faithful) (id : ClientId) (session : Session) :
    (b.teardown id session).Faithful := by
  have he := teardown_eq b id session
  refine h.change id ?_ (fun other ho => ?_) (fun other ho => ?_) fun found hf => ?_
  · rw [he]
    exact failure_cleared _
  · rw [session?_teardown, if_neg ho]
  · rw [he]
    exact (getElem?_cleared h.reliable id other _).trans (if_neg fun hn => ho hn.2)
  · rw [session?_teardown, if_pos rfl] at hf
    cases hf

/-- What is stored of a session that was bound is what is to be stored of it. -/
lemma getElem?_filed (h : b.Faithful) {clean : Bool} (hf : b.Found id clean client session)
    (hc : next.clean = clean) (other : ClientId) :
    (b.filed id clean session next).records[other]? =
      if id = other then next.durable else b.stored.records[other]? := by
  rw [Broker.getElem?_filed h.reliable]
  by_cases ho : id = other
  · subst ho
    rw [if_pos rfl]
    by_cases hd : clean = true → (session.existed && session.clean) = false
    · rw [if_pos ⟨rfl, hd⟩, Session.durable, hc]
    · -- a clean session that was there before was not stored
      rw [if_neg fun hn => hd hn.2]
      obtain ⟨rfl, he, hclean⟩ : clean = true ∧ session.existed = true ∧ session.clean = true := by
        simpa using hd
      rw [Session.durable, hc, if_pos rfl]
      cases hf with
      | own hs => rw [h.recorded id session hs, Session.durable, if_pos hclean]
      | fresh => cases he
      | restored => cases hclean
  · rw [if_neg fun hn => ho hn.1, if_neg ho]

lemma rebind (h : b.Faithful) {clean : Bool} (hf : b.Found id clean client session)
    (k : ConnectionId) (lost : List String) (calls : CallCounts) :
    ((b.rebind id clean k client session lost).withBooks calls
      (b.filed id clean session ((session.trimmed clean client lost).rebound clean k))
      b.identified).Faithful := by
  have hr := h.getElem?_filed hf
    (rfl : ((session.trimmed clean client lost).rebound clean k).clean = clean)
  refine h.change id ?_ (fun other ho => ?_) (fun other ho => ?_) fun found hfound => ?_
  · change (b.filed id clean session _).failure = _
    unfold filed
    split
    · exact failure_cleared _
    · exact Repository.failure_request _ _ _
  · rw [session?_withBooks, session?_rebind, if_neg ho]
  · exact (hr other).trans (if_neg ho)
  · rw [session?_withBooks, session?_rebind, if_pos rfl] at hfound
    cases hfound
    exact ⟨rfl, (hr id).trans (if_pos rfl)⟩

/-- Whenever sessions change, storage follows. -/
theorem upheld : Upheld Faithful where
  books h _ _ hs _ := h.congr (fun _ => rfl) hs
  connections h _ := h.congr (fun _ => rfl) (.refl _)
  retained h _ := h.congr (fun _ => rfl) (.refl _)
  note h _ _ := h.congr (fun _ => rfl) (.refl _)
  session h _ _ hs _ hn := h.setSession hs hn
  subscribed h _ _ hs _ _ _ calls := h.saved hs (by rfl) (by rfl) _ calls
  unsubscribed h _ _ hs _ calls := h.saved hs (by rfl) (by rfl) _ calls
  teardown h _ _ _ := h.teardown _ _
  rebind h _ _ _ _ hf k lost calls := h.rebind hf k lost calls

/-- A broker that was just opened has no session in memory yet. -/
lemma of_opened (h : b.Opened) (hr : b.stored.Reliable) : b.Faithful where
  reliable := hr
  existed id session hs := by
    rw [h.session?] at hs
    cases hs
  recorded id session hs := by
    rw [h.session?] at hs
    cases hs

end Faithful

section found
variable {clean : Bool}

/-- A bind resumes what is kept, unless it is to be clean. -/
lemma Faithful.resumed_eq (h : b.Faithful) (hf : b.Found id clean client session) :
    (session.existed && !session.isReset clean) = (!clean && (b.kept? id).isSome) := by
  cases hf with
  | own hs =>
    rw [h.kept?_eq hs, Session.isReset, h.existed id session hs]
    cases session.clean <;> cases clean <;> rfl
  | fresh hs hr =>
    obtain rfl | hr := hr
    · rfl
    · rw [kept?, hr]
      cases clean <;> rfl
  | restored hs hc record hr =>
    rw [kept?, hr, hc]
    rfl

/-- A bind leaves of what is kept the filters that are not barred by now. -/
lemma Faithful.subscriptions_eq (h : b.Faithful) (hf : b.Found id clean client session) :
    session.subscriptions.eraseAll (b.lostFilters clean client session) =
      if clean then ∅ else (Turn.bound clean (b.forbids client)).apply ((b.kept? id).getD ∅) := by
  have hkeep : session.isReset clean = false → session.subscriptions = (b.kept? id).getD ∅ →
      session.subscriptions.eraseAll (b.lostFilters clean client session) =
        (Turn.bound clean (b.forbids client)).apply ((b.kept? id).getD ∅) := by
    intro hr hk
    refine Std.ExtTreeMap.ext_getElem? fun {filter} => ?_
    rw [getElem?_eraseAll_lostFilters hr, hk, Turn.getElem?_apply_bound]
  have hreset : session.isReset clean = true →
      session.subscriptions.eraseAll (b.lostFilters clean client session) = ∅ := by
    intro hr
    rw [lostFilters, if_pos hr, Table.eraseAll_keys]
  cases hf with
  | own hs =>
    have hk := h.kept?_eq hs
    have he := h.existed id session hs
    cases clean with
    | true => exact hreset (by rw [Session.isReset, he, Bool.or_true, Bool.true_and])
    | false =>
      cases hc : session.clean with
      | true =>
        rw [hc, if_pos rfl] at hk
        rw [hk, hreset (by rw [Session.isReset, he, hc]; rfl)]
        exact (Turn.apply_bound_empty false _).symm
      | false =>
        rw [hc, if_neg Bool.false_ne_true] at hk
        exact hkeep (by rw [Session.isReset, hc, Bool.or_false, Bool.and_false]) (by rw [hk]; rfl)
  | fresh hs hr =>
    cases clean with
    | true =>
      refine Std.ExtTreeMap.ext_getElem? fun {filter} => ?_
      rw [Table.getElem?_eraseAll]
      simp [Session.fresh]
    | false =>
      have hr := hr.resolve_left Bool.false_ne_true
      exact hkeep rfl (by rw [kept?, hr]; rfl)
  | restored hs hc record hr =>
    subst hc
    exact hkeep rfl (by rw [kept?, hr]; rfl)

end found

section keeping

/-- Every session is as clean as the connection it is bound to. -/
def Agrees (b : Broker) : Prop :=
  ∀ id session k, b.session? id = some session → session.connection = some k →
    (b.connection k).clean = session.clean

lemma Owned.agrees {leaving : Option ConnectionId} (h : b.Owned leaving) : b.Agrees :=
  fun id session k hs hk => (h.admitted id session k hs hk).1

lemma Agrees.moves {actor : Option ClientId} (h : b.Agrees) (hm : Moves k actor b b') :
    b'.Agrees := by
  intro id session j hs hj
  obtain ⟨old, ho, hc, hb⟩ := hm.unbound.sessions id session hs
  rw [(hm.kept j).clean, h id old j ho (hb j hj), hc]

/-- Storage is left alone, as long as sessions and connections agree. -/
def Keeps (b b' : Broker) : Prop :=
  b.Agrees → b'.stored.records = b.stored.records ∧ b'.Agrees

namespace Keeps

lemma refl (b : Broker) : Keeps b b := fun ha => ⟨rfl, ha⟩

lemma trans (h : Keeps b b') (h' : Keeps b' b'') : Keeps b b'' := by
  intro ha
  obtain ⟨hr, ha⟩ := h ha
  obtain ⟨hr', ha⟩ := h' ha
  exact ⟨hr'.trans hr, ha⟩

lemma of_moves {actor : Option ClientId} (hm : Moves k actor b b')
    (hr : b'.stored.records = b.stored.records) : Keeps b b' :=
  fun ha => ⟨hr, ha.moves hm⟩

lemma send {packet : Packet} (hp : packet.publish? = none) (b : Broker) (k : ConnectionId) :
    Keeps b (b.modifyConnection k fun c => (c.send packet).2) := by
  have hm : Moves k none b (b.modifyConnection k fun c => (c.send packet).2) :=
    .single (.serve (.chore (.send hp)))
  exact of_moves hm rfl

end Keeps

/-- Without an actor that serves its client nobody subscribes to anything. -/
lemma Services.keeps (h : Services k none b b') : Keeps b b' := by
  refine .of_moves h.moves ?_
  induction h with
  | refl => rfl
  | tail _ hs ih =>
    rw [← ih]
    cases hs with
    | chore hs =>
      cases hs with
      | books calls hs => exact hs.records
      | send | close | advance => rfl
    | retain publish =>
      rename_i b _
      obtain ⟨retained, he⟩ := b.retain_eq publish
      rw [he]
    | route id publish granted => rw [stored_route]

/-- A session that is removed as its connection ends is clean, and was not stored. -/
lemma Parting.keeps (h : Parting k b b') : Keeps b b' := by
  obtain ⟨actor, hm⟩ := h.moves
  cases h with
  | close | forget => exact .of_moves hm rfl
  | bequeath id =>
    have ht : Keeps b (b.takeWill id k).2 := by
      have hm : Moves k (some id) b (b.takeWill id k).2 := .single (.takeWill id)
      refine .of_moves hm ?_
      obtain he | ⟨session, -, he⟩ := takeWill_cases b id k <;> rw [he]
      rfl
    refine ht.trans ?_
    cases (b.takeWill id k).1 with
    | none => exact .refl _
    | some will =>
      have hf : Services k none (b.takeWill id k).2 ((b.takeWill id k).2.fireWill will).2 :=
        fireWill_services _ will
      have hn : Moves k none ((b.takeWill id k).2.fireWill will).2
          ((b.takeWill id k).2.executeWill k (some will)) := .single (.noteFired will)
      exact hf.keeps.trans (.of_moves hn rfl)
  | discard id =>
    refine .of_moves hm ?_
    obtain he | ⟨session, -, he⟩ := takeWill_cases b id k <;> rw [he]
    rfl
  | unbind id =>
    refine fun ha => ⟨?_, ha.moves hm⟩
    obtain ⟨-, he⟩ | ⟨session, hs, hk, he⟩ := unbind_cases b id k (b.connection k).clean <;> rw [he]
    split
    next hc =>
      have hclean : session.clean = true := (ha id session k hs hk).symm.trans hc
      rw [teardown_eq, hclean]
      rfl
    next => rfl

lemma Partings.keeps (h : Partings k b b') : Keeps b b' := by
  induction h with
  | refl => exact .refl b
  | tail _ hp ih => exact ih.trans hp.keeps

lemma keeps_connectionLost (b : Broker) (k : ConnectionId) : Keeps b (b.connectionLost k) :=
  (connectionLost_partings b k).keeps

lemma keeps_continueIf (outcome : Except WriteError Unit) (b : Broker) (k : ConnectionId) :
    Keeps b (continueIf k (outcome, b)).2 := by
  cases outcome with
  | ok => exact .refl b
  | error => exact keeps_connectionLost b k

lemma keeps_reply {packet : Packet} (hp : packet.publish? = none) (b : Broker)
    (k : ConnectionId) : Keeps b (b.reply k packet).2 :=
  (Keeps.send hp b k).trans (keeps_continueIf _ _ k)

lemma keeps_onPublish (b : Broker) (client : ClientInfo) (k : ConnectionId) (publish : Publish) :
    Keeps b (b.onPublish client k publish).2 := by
  have hp : Services k none b (b.publishFrom client publish).2 := publishFrom_services b client _
  refine hp.keeps.trans ?_
  unfold onPublish
  generalize b.publishFrom client publish = result
  obtain ⟨result, b⟩ := result
  dsimp only
  split
  next he =>
    obtain ⟨-, rfl⟩ := Prod.mk.inj he
    exact keeps_connectionLost _ k
  next he =>
    obtain ⟨-, rfl⟩ := Prod.mk.inj he
    split
    next packet hp =>
      refine keeps_reply ?_ _ k
      unfold acknowledgement at hp
      split at hp <;> cases hp <;> rfl
    next => exact .refl _

lemma stored_deliverAll (k : ConnectionId) (publishes : List Publish) (b : Broker) :
    (deliverAll k publishes b).2.stored = b.stored := by
  induction publishes generalizing b with
  | nil => rfl
  | cons publish rest ih =>
    have hs : (b.onConnection k (·.deliver publish)).2.stored = b.stored := rfl
    unfold deliverAll
    generalize b.onConnection k (·.deliver publish) = result at hs ⊢
    obtain ⟨_ | _, delivered⟩ := result
    · exact hs
    · exact (ih delivered).trans hs

/-- Only who subscribes or unsubscribes makes storage change. -/
lemma keeps_onPacket (b : Broker) (client : ClientInfo) (k : ConnectionId) {packet : Packet}
    (hs : ∀ id requests, packet ≠ .subscribe id requests)
    (hu : ∀ id filters, packet ≠ .unsubscribe id filters) :
    Keeps b (b.onPacket .quiet client k packet).2 := by
  cases packet with
  | subscribe id requests => exact absurd rfl (hs id requests)
  | unsubscribe id filters => exact absurd rfl (hu id filters)
  | publish publish => exact keeps_onPublish b client k publish
  | pubrel id => exact keeps_reply rfl b k
  | puback | pubrec | pubcomp => exact .refl b
  | pingreq => exact keeps_reply rfl b k
  | disconnect => exact (onDisconnect_partings b client k).keeps
  | connect | connack | suback | unsuback | pingresp => exact keeps_connectionLost b k

end keeping

section subscribing

/-- A subscription is entered under the QoS that is acknowledged, or it is refused. -/
lemma subscribe_outcome (b : Broker) (client : ClientInfo) (k : ConnectionId) (filter : String)
    (qos : QoS) :
    ((∃ error, (b.subscribe .quiet client k filter qos).1 = .error error) ∧
      (b.subscribe .quiet client k filter qos).2.stored = b.stored) ∨
    ∃ grant session, (b.subscribe .quiet client k filter qos).1 = .ok grant ∧
      b.session? client.id = some session ∧
      (b.subscribe .quiet client k filter qos).2.stored = b.saved client.id session.clean
        { session with subscriptions := session.subscriptions.insert filter grant.qos } := by
  unfold subscribe askRead
  cases b.checkFilter filter with
  | error cause => exact .inl ⟨⟨_, rfl⟩, rfl⟩
  | ok =>
    cases hr : (b.callOut .quiet .read).authorizer.canRead client filter with
    | false =>
      simp only [hr]
      exact .inl ⟨⟨_, rfl⟩, rfl⟩
    | true =>
      simp only [hr]
      generalize min qos (b.callOut .quiet .read).config.mqtt.qosLimit = granted
      cases hb : (b.callOut .quiet .read).boundSession? client.id k with
      | none =>
        simp only [enterSubscription, hb]
        exact .inl ⟨⟨_, rfl⟩, rfl⟩
      | some session =>
        simp only [enterSubscription, hb]
        refine .inr ⟨_, session, rfl, (boundSession?_eq_some.mp hb).1, ?_⟩
        cases session.clean <;> rfl

/-- The subscriptions of a session change, and so does what is kept for its client. -/
lemma Faithful.kept?_saved (h : b.Faithful) (hs : b.session? id = some session)
    (change : Table QoS → Table QoS)
    (he : b'.stored = b.saved id session.clean
      { session with subscriptions := change session.subscriptions }) (other : ClientId) :
    b'.kept? other = if id = other then (b.kept? other).map change else b.kept? other := by
  have hr := getElem?_saved h.reliable id other session.clean
    { session with subscriptions := change session.subscriptions }
  rw [← he] at hr
  by_cases ho : id = other
  · subst ho
    rw [if_pos rfl, h.kept?_eq hs]
    cases hc : session.clean with
    | true =>
      rw [hc] at hr
      have hn := h.recorded id session hs
      rw [Session.durable, hc, if_pos rfl] at hn
      rw [kept?, hr, if_neg (by simp), hn]
      rfl
    | false =>
      rw [hc] at hr
      rw [kept?, hr, if_pos ⟨rfl, rfl⟩, Option.map_some, Session.restoredSubscriptions_toStored]
      rfl
  · rw [if_neg ho, kept?, hr, if_neg fun hn => ho hn.2]
    rfl

/-- The subscriptions that an acknowledgement grants. -/
def grants (requests : List (String × QoS)) (codes : List SubackCode) : List Turn :=
  (requests.zip codes).filterMap fun entry => entry.2.map (.granted entry.1.1)

/-- What is acknowledged is entered in turn. -/
lemma Faithful.kept?_subscribeAll (h : b.Faithful) (client : ClientInfo) (k : ConnectionId)
    (requests : List (String × QoS)) (other : ClientId) :
    (subscribeAll .quiet client k requests b).2.kept? other =
      Turn.carryAll (if client.id = other then
        grants requests (subscribeAll .quiet client k requests b).1.1 else []) (b.kept? other) := by
  induction requests generalizing b with
  | nil => simp [subscribeAll, grants]
  | cons request rest ih =>
    obtain ⟨filter, qos⟩ := request
    have hrest := ih (Faithful.upheld.subscribe h client k filter qos)
    have ho := b.subscribe_outcome client k filter qos
    unfold subscribeAll
    generalize b.subscribe .quiet client k filter qos = result at hrest ho ⊢
    obtain ⟨answer, entered⟩ := result
    dsimp only at hrest ho ⊢
    obtain ⟨⟨error, rfl⟩, hst⟩ | ⟨grant, session, rfl, hs, hst⟩ := ho
    · have hk : entered.kept? other = b.kept? other := by rw [kept?, hst, kept?]
      rw [hk] at hrest
      exact hrest
    · have hk := h.kept?_saved hs (·.insert filter grant.qos) hst other
      dsimp only
      rw [hrest, hk]
      split
      · rfl
      · rfl

lemma unsubscribe_outcome (b : Broker) (id : ClientId) (k : ConnectionId) (filter : String) :
    (b.boundSession? id k = none ∧ (b.unsubscribe .quiet id k filter).2 = b) ∨
    ∃ session, b.boundSession? id k = some session ∧
      (((b.unsubscribe .quiet id k filter).2 = b ∧ filter ∉ session.subscriptions) ∨
        (b.unsubscribe .quiet id k filter).2.stored = b.saved id session.clean
          { session with subscriptions := session.subscriptions.erase filter }) := by
  unfold unsubscribe
  cases hb : b.boundSession? id k with
  | none => exact .inl ⟨rfl, rfl⟩
  | some session =>
    refine .inr ⟨session, rfl, ?_⟩
    dsimp only
    split
    · right
      cases session.clean <;> rfl
    next hc => exact .inl ⟨rfl, by simpa using hc⟩

/-- Only the connection that has the session of a client can unsubscribe it. -/
lemma Faithful.kept?_unsubscribe (h : b.Faithful) (id : ClientId) (k : ConnectionId)
    (filter : String) (other : ClientId) :
    (b.unsubscribe .quiet id k filter).2.kept? other =
      if id = other ∧ (b.boundSession? id k).isSome then (b.kept? other).map (·.erase filter)
      else b.kept? other := by
  obtain ⟨hb, he⟩ | ⟨session, hb, hr⟩ := b.unsubscribe_outcome id k filter
  · rw [he, hb, if_neg (by simp)]
  · obtain ⟨hs, -⟩ := boundSession?_eq_some.mp hb
    rw [hb]
    obtain ⟨he, hf⟩ | hst := hr
    · rw [he]
      split
      next hn =>
        obtain ⟨rfl, -⟩ := hn
        have hsame : session.subscriptions.erase filter = session.subscriptions := by
          refine Std.ExtTreeMap.ext_getElem? fun {other} => ?_
          rw [Std.ExtTreeMap.getElem?_erase]
          split
          next he =>
            rw [← Std.LawfulEqCmp.eq_of_compare he]
            exact (Std.ExtTreeMap.getElem?_eq_none hf).symm
          next => rfl
        rw [h.kept?_eq hs]
        split
        · rfl
        · rw [Option.map_some, hsame]
      next => rfl
    · rw [h.kept?_saved hs (·.erase filter) hst other]
      simp

/-- The session stays with its connection. -/
lemma isSome_boundSession?_unsubscribe (b : Broker) (id : ClientId) (k : ConnectionId)
    (filter : String) : ((b.unsubscribe .quiet id k filter).2.boundSession? id k).isSome =
      (b.boundSession? id k).isSome := by
  obtain he | ⟨session, calls, hs, hk, he⟩ := unsubscribe_cases filter b id k <;> rw [he]
  have hb := boundSession?_eq_some.mpr ⟨hs, hk⟩
  have hb' : ((b.unsubscribed id session filter).withBooks calls (b.saved id session.clean
      { session with subscriptions := session.subscriptions.erase filter })
      b.identified).boundSession? id k =
        some { session with subscriptions := session.subscriptions.erase filter } := by
    refine boundSession?_eq_some.mpr ⟨?_, hk⟩
    rw [session?_withBooks, unsubscribed, session?_setSession, if_pos rfl]
  rw [hb, hb']
  rfl

/-- Filters are given up one after the other. -/
lemma Faithful.kept?_unsubscribeAll (h : b.Faithful) (id : ClientId) (k : ConnectionId)
    (filters : List String) (other : ClientId) :
    (filters.foldl (fun b filter => (b.unsubscribe .quiet id k filter).2) b).kept? other =
      Turn.carryAll (if id = other ∧ (b.boundSession? id k).isSome then filters.map .removed
        else []) (b.kept? other) := by
  induction filters generalizing b with
  | nil => simp
  | cons filter rest ih =>
    have hrest := ih (Faithful.upheld.unsubscribe h id k filter)
    rw [isSome_boundSession?_unsubscribe, h.kept?_unsubscribe] at hrest
    rw [List.foldl_cons, hrest]
    split
    · rfl
    · rfl

/-- All of a SUBSCRIBE that storage sees is that the filters are entered. -/
lemma records_onSubscribe (b : Broker) (client : ClientInfo) (k : ConnectionId) (id : PacketId)
    (requests : List (String × QoS)) (ha : b.Agrees) :
    (b.onSubscribe .quiet client k id requests).2.stored.records =
      (subscribeAll .quiet client k requests b).2.stored.records := by
  obtain ⟨hd, -, hr⟩ := subscribeAll_errands k client requests b
  have ha := ha.moves hd.deeds.services.moves
  unfold onSubscribe
  generalize subscribeAll .quiet client k requests b = result at hr ha ⊢
  obtain ⟨⟨codes, retained⟩, b⟩ := result
  dsimp only at hr ha ⊢
  have hsend : Keeps b (b.modifyConnection k fun c => (c.send (.suback id codes)).2) :=
    .send rfl b k
  obtain ⟨hs, ha⟩ := hsend ha
  have hr : ∀ publish ∈ retained,
      (b.onConnection k (·.send (.suback id codes))).2.Shows client publish := hr
  change (b.onConnection k (·.send (.suback id codes))).2.stored.records = _ at hs
  change (b.onConnection k (·.send (.suback id codes))).2.Agrees at ha
  generalize b.onConnection k (·.send (.suback id codes)) = sent at hs ha hr ⊢
  obtain ⟨_ | _, b⟩ := sent
  · exact (keeps_connectionLost b k ha).1.trans hs
  · have ha := ha.moves (deliverAll_errands k client b hr).deeds.services.moves
    have hd := congrArg Repository.records (stored_deliverAll k retained b)
    change (continueIf k (deliverAll k retained b)).2.stored.records = _
    generalize deliverAll k retained b = delivered at ha hd ⊢
    obtain ⟨outcome, b⟩ := delivered
    exact ((keeps_continueIf outcome b k ha).1.trans hd).trans hs

/-- All of an UNSUBSCRIBE that storage sees is that the filters are given up. -/
lemma records_onUnsubscribe (b : Broker) (client : ClientInfo) (k : ConnectionId) (id : PacketId)
    (filters : List String) (ha : b.Agrees) :
    (b.onUnsubscribe .quiet client k id filters).2.stored.records =
      (filters.foldl (fun b filter => (b.unsubscribe .quiet client.id k filter).2)
        b).stored.records := by
  have hm : Agrees (filters.foldl
      (fun b filter => (b.unsubscribe .quiet client.id k filter).2) b) := by
    induction filters generalizing b with
    | nil => exact ha
    | cons filter rest ih =>
      have hd : Service k (some client.id) b (b.unsubscribe .quiet client.id k filter).2 :=
        .unsubscribe client.id filter
      exact ih _ (ha.moves (.single (.serve hd)))
  have hr : ∀ b : Broker, Keeps b (b.reply k (.unsuback id)).2 := fun b => keeps_reply rfl b k
  exact (hr _ hm).1

end subscribing

section coming

/-- Whoever is admitted takes over what is kept for it, or drops it. -/
lemma Faithful.kept?_joined (h : b.Faithful) {clean : Bool} {will : Option Will}
    {sent unsent : List Publish} (hj : Joined b b' k client clean will sent unsent)
    (other : ClientId) : b'.kept? other =
      if client.id = other then (Turn.bound clean (b.forbids client)).carry (b.kept? other)
      else b.kept? other := by
  obtain ⟨waiting, session, change, calls, identified, hc, hf, -, rfl⟩ := hj.enrolled
  have hw := upheld.chores h hc
  obtain ⟨hconfig, hauthorizer⟩ := (upheld_rules b).chores ⟨rfl, rfl⟩ hc
  have hforbids : waiting.forbids client = b.forbids client := by
    funext filter
    rw [forbids, forbids, hconfig, hauthorizer]
  have hkept : waiting.kept? other = b.kept? other := by rw [kept?, hc.same.2, kept?]
  set lost := waiting.lostFilters clean client session
  set bound := (session.trimmed clean client lost).rebound clean k with hb
  have hr := hw.getElem?_filed hf (rfl : bound.clean = clean) other
  change Option.map _ (waiting.filed client.id clean session bound).records[other]? = _
  rw [hr]
  by_cases ho : client.id = other
  · subst ho
    have hs : bound.subscriptions = _ := hw.subscriptions_eq hf
    rw [if_pos rfl, if_pos rfl, ← hkept, ← hforbids, Session.durable]
    cases clean with
    | true => rfl
    | false =>
      rw [if_neg Bool.false_ne_true] at hs
      rw [if_neg (by simp [hb, Session.rebound]), Option.map_some,
        Session.restoredSubscriptions_toStored, hs]
      rfl
  · rw [if_neg ho, if_neg ho, ← hkept]
    rfl

lemma Faithful.kept?_teardown (h : b.Faithful) (hs : b.session? id = some session)
    (other : ClientId) :
    (b.teardown id session).kept? other = if id = other then none else b.kept? other := by
  have hr := getElem?_cleared h.reliable id other !session.clean
  rw [teardown_eq]
  change Option.map _ (b.cleared id !session.clean).records[other]? = _
  rw [hr]
  by_cases ho : id = other
  · subst ho
    rw [if_pos rfl, h.recorded id session hs, Session.durable]
    cases session.clean with
    | true => rfl
    | false => rw [if_pos ⟨rfl, rfl⟩, Option.map_none]
  · rw [if_neg ho, if_neg fun hn => ho hn.2]
    rfl

/-- Nothing is kept for a client whose session has expired. -/
lemma Faithful.kept?_expire (h : b.Faithful) (id other : ClientId) :
    (b.expire id).2.kept? other =
      if id = other ∧ (b.expire id).1 = true then none else b.kept? other := by
  rw [expire_fst]
  obtain ⟨he, hs⟩ | ⟨session, hs, ⟨-, he⟩ | ⟨k, -, he⟩⟩ := expire_cases b id
  · rw [he, hs, if_neg (by simp)]
  · rw [he, h.kept?_teardown hs, hs]
    simp
  · have hclosed : (b.closeConnection k).Faithful := upheld.modifyConnection h k _
    have hkept : (b.closeConnection k).kept? other = b.kept? other := rfl
    rw [he, hclosed.kept?_teardown hs, hs, hkept]
    simp

end coming
end MqttBroker.Broker
