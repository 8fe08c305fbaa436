import MqttBroker.Proofs.Broker.FanOut
import MqttBroker.Proofs.Connection.Holding
import MqttBroker.Proofs.Session.Queue

/-!
How long the queues of sessions get, while connections are bound, opened and let go of step by
step, others publish, and transports fail.

A publish for a session that is offline pushes out the oldest message of a full queue.  What comes
back from a connection that could not be opened does not, so that a queue may exceed its bound by
the copies that were routed to its client before the connection was open.
-/
namespace MqttBroker

/-- How far a connection has come. -/
inductive Phase where
  | unbound
  /-- The session of the client is bound to it, and it is to be opened. -/
  | bound (id : ClientId) (outcome : BindOutcome)
  /-- It could not be opened, and these publishes were not written. -/
  | failed (id : ClientId) (unsent : List Publish)
  | settled

namespace Phase

/-- After an attempt to open the connection. -/
def opened (id : ClientId) : Except (List Publish) Unit → Phase
  | .ok () => settled
  | .error unsent => failed id unsent

def isPending : Phase → Bool
  | bound _ _ | failed _ _ => true
  | unbound | settled => false

/-- The session of the client may be bound to the connection. -/
def Serves (id : ClientId) : Phase → Prop
  | unbound => False
  | bound other _ | failed other _ => other = id
  | settled => True

/-- What may still come back from the connection. -/
def inHand (c : Connection) : Phase → List Publish
  | bound _ outcome => outcome.replay ++ c.held
  | failed _ unsent => unsent
  | unbound | settled => []

lemma inHand_congr {c d : Connection} (h : d.held = c.held) (phase : Phase) :
    phase.inHand d = phase.inHand c := by
  cases phase <;> simp only [inHand, h]

/-- Whoever shares a connection has nothing coming back from it. -/
lemma inHand_of_shared {phase : Phase} {id other : ClientId} (h : phase.Serves id)
    (ho : phase.Serves other) (hn : other ≠ id) (c : Connection) : phase.inHand c = [] := by
  cases phase with
  | unbound | settled => rfl
  | bound | failed => exact absurd (ho.symm.trans h) hn

end Phase

/-- The copies of a publish for a client among its targets. -/
def Publish.copiesTo (publish : Publish) (targets : List (ClientId × QoS)) (id : ClientId) :
    List Publish :=
  (targets.filter fun target => target.1 == id).map fun target => publish.copyFor target.2

/-- A step of a connection's life, or what happens meanwhile. -/
inductive BindingStep where
  | accept
  | bind (id : ClientId) (clean : Bool) (k : ConnectionId) (client : ClientInfo)
  | establish (k : ConnectionId)
  | requeue (k : ConnectionId)
  | unbind (id : ClientId) (k : ConnectionId) (remove : Bool)
  | expire (id : ClientId)
  | subscribe (client : ClientInfo) (k : ConnectionId) (filter : String) (qos : QoS)
  | unsubscribe (id : ClientId) (k : ConnectionId) (filter : String)
  | publish (publish : Publish)
  | fault (k : ConnectionId) (fault : Fault)

/-- A broker in the midst of bindings. -/
structure Bindings where
  broker : Broker
  phase : ConnectionId → Phase
  /-- How many copies worth keeping were routed to a client while its connection was not open. -/
  early : ClientId → Nat

namespace Bindings

def start (b : Broker) : Bindings := ⟨b, fun _ => .unbound, fun _ => 0⟩

variable (a : Bindings)

/-- A connection comes to another phase. -/
def proceed (k : ConnectionId) (phase : Phase) (broker : Broker) : Bindings :=
  { a with broker, phase := Function.update a.phase k phase }

/-- The session of the client is bound to a connection that is not open yet. -/
def isPending (id : ClientId) : Bool :=
  ((a.broker.session? id).bind (·.connection)).any fun k => (a.phase k).isPending

/-- How many copies worth keeping are routed to a client too early. -/
def tooEarly (publish : Publish) (targets : List (ClientId × QoS)) (id : ClientId) : Nat :=
  if a.isPending id then (Session.keepable (publish.copiesTo targets id)).length else 0

def bind (id : ClientId) (clean : Bool) (k : ConnectionId) (client : ClientInfo) : Bindings :=
  let b := a.broker.modifyConnection k fun c => { c with state := .binding }
  match b.bind .quiet id clean k client with
  | (.error _, b) => a.proceed k .settled b
  | (.ok outcome, b) => a.proceed k (.bound id outcome) b

def establish (k : ConnectionId) (id : ClientId) (outcome : BindOutcome) : Bindings :=
  let (result, b) := a.broker.onConnection k
    (·.establish (.connack outcome.resumed .accepted) outcome.replay)
  a.proceed k (.opened id result) b

def publish (publish : Publish) : Bindings :=
  let targets := (a.broker.directory.matching publish.topic).toList
  { a with
    broker := (a.broker.publish publish).2
    early := fun id => a.early id + a.tooEarly publish targets id }

/-- Copies of a publish are sent to some of its targets. -/
def served (publish : Publish) (targets : List (ClientId × QoS)) : Bindings :=
  { a with
    broker := (a.broker.fanOut publish targets).2
    early := fun id => a.early id + a.tooEarly publish targets id }

/-- A connection is bound once, while it is idle.  A step that is not due does nothing. -/
def step (a : Bindings) : BindingStep → Bindings
  | .accept => { a with broker := a.broker.accept.2 }
  | .bind id clean k client =>
    match a.phase k with
    | .unbound => if (a.broker.connection k).state = .idle then a.bind id clean k client else a
    | _ => a
  | .establish k =>
    match a.phase k with
    | .bound id outcome => a.establish k id outcome
    | _ => a
  | .requeue k =>
    match a.phase k with
    | .failed id unsent => a.proceed k .settled (a.broker.requeue id k unsent).2
    | _ => a
  | .unbind id k remove => { a with broker := (a.broker.unbind id k remove).2 }
  | .expire id => { a with broker := (a.broker.expire id).2 }
  | .subscribe client k filter qos =>
    { a with broker := (a.broker.subscribe .quiet client k filter qos).2 }
  | .unsubscribe id k filter => { a with broker := (a.broker.unsubscribe .quiet id k filter).2 }
  | .publish publish => a.publish publish
  | .fault k fault => { a with broker := a.broker.perform (.fault k fault) }

def run (a : Bindings) (steps : List BindingStep) : Bindings := steps.foldl step a

/-- The copies that may still come back to a session. -/
def returnable (session : Session) : List Publish :=
  match session.connection with
  | none => []
  | some k => Session.keepable ((a.phase k).inHand (a.broker.connection k))

/-- Queues keep their bound but for the copies that were routed too early. -/
structure Bounded (max : Nat) (a : Bindings) : Prop where
  config : a.broker.config.session.maxQueuedMessages = max
  serves : ∀ id session k, a.broker.session? id = some session → session.connection = some k →
    (a.phase k).Serves id
  clear : ∀ k, a.phase k = .unbound → (a.broker.connection k).held = []
  bounded : ∀ id session, a.broker.session? id = some session →
    session.queue.length + (a.returnable session).length ≤ max + a.early id

variable {a} {max : Nat} {b b' : Broker} {k : ConnectionId} {id : ClientId} {session : Session}

@[simp] lemma broker_proceed {phase : Phase} : (a.proceed k phase b).broker = b := rfl

lemma phase_proceed_self {phase : Phase} : (a.proceed k phase b).phase k = phase :=
  Function.update_self ..

lemma phase_proceed_of_ne {phase : Phase} {j : ConnectionId} (hj : k ≠ j) :
    (a.proceed k phase b).phase j = a.phase j :=
  Function.update_of_ne hj.symm ..

lemma returnable_of_connection (hk : session.connection = some k) :
    a.returnable session = Session.keepable ((a.phase k).inHand (a.broker.connection k)) := by
  rw [returnable, hk]

/-- What may come back to a session depends on its connection alone. -/
lemma returnable_congr {a' : Bindings} {next : Session}
    (hc : next.connection = session.connection)
    (hs : ∀ k, session.connection = some k → a'.phase k = a.phase k ∧
      (a'.broker.connection k).held = (a.broker.connection k).held) :
    a'.returnable next = a.returnable session := by
  cases hk : session.connection with
  | none => rw [returnable, returnable, hc, hk]
  | some k =>
    obtain ⟨hp, hh⟩ := hs k hk
    rw [returnable_of_connection (hc.trans hk), returnable_of_connection hk, hp,
      Phase.inHand_congr hh]

lemma isPending_of_connection (hs : a.broker.session? id = some session)
    (hk : session.connection = some k) : a.isPending id = (a.phase k).isPending := by
  rw [isPending, hs, Option.bind_some, hk, Option.any_some]

end Bindings

namespace Connection
variable {c d : Connection} {copy : Publish}

lemma Carries.held (h : c.Carries copy d) : d.held = c.held := by
  obtain ⟨_, _, -, rfl⟩ := h
  rfl

lemma Unwritten.held (h : c.Unwritten d) : d.held = c.held := by
  obtain ⟨_, _, rfl⟩ := h
  rfl

end Connection

section idling

/-- Nothing is queued or held, and no session is bound anew. -/
structure Broker.Idles (b b' : Broker) : Prop where
  config : b'.config = b.config
  sessions : ∀ id next, b'.session? id = some next →
    ∃ session, b.session? id = some session ∧ session.Left next
  held : ∀ k, (b'.connection k).held = (b.connection k).held

namespace Broker
variable {b b' b'' : Broker} {k : ConnectionId} {id : ClientId} {session : Session}

lemma idles_of_same (hc : b'.config = b.config) (hs : ∀ id, b'.session? id = b.session? id)
    (hh : ∀ k, (b'.connection k).held = (b.connection k).held) : Idles b b' :=
  ⟨hc, fun id next hn => ⟨next, (hs id).symm.trans hn, .refl next⟩, hh⟩

lemma idles_modifyConnection {change : Connection → Connection}
    (h : ∀ c, (change c).held = c.held) : Idles b (b.modifyConnection k change) :=
  idles_of_same rfl (fun _ => rfl) fun j => modifyConnection_rel (P := fun c d => d.held = c.held)
    (fun _ => rfl) (h _) j

lemma idles_setSession (hs : b.session? id = some session) {next : Session}
    (hn : session.Left next) : Idles b (b.setSession id next) where
  config := rfl
  sessions other found hf := by
    rw [session?_setSession] at hf
    split at hf
    next ho =>
      cases hf
      exact ⟨session, ho ▸ hs, hn⟩
    next => exact ⟨found, hf, .refl found⟩
  held _ := rfl

lemma idles_teardown (b : Broker) (id : ClientId) (session : Session) :
    Idles b (b.teardown id session) where
  config := by
    rw [teardown_eq]
    unfold detach
    split <;> rfl
  sessions other found hf := by
    rw [session?_teardown] at hf
    split at hf
    · cases hf
    · exact ⟨found, hf, .refl found⟩
  held _ := by rw [connection_teardown]

lemma Idles.trans (h : Idles b b') (h' : Idles b' b'') : Idles b b'' where
  config := h'.config.trans h.config
  sessions id next hn := by
    obtain ⟨found, hf, hl'⟩ := h'.sessions id next hn
    obtain ⟨session, hs, hl⟩ := h.sessions id found hf
    exact ⟨session, hs, hl'.clean.trans hl.clean, hl'.queue.trans hl.queue,
      fun k hk => hl.connection k (hl'.connection k hk)⟩
  held k := (h'.held k).trans (h.held k)

lemma idles_accept (b : Broker) : Idles b b.accept.2 := by
  refine idles_of_same rfl (fun _ => rfl) fun j => ?_
  rw [connection_accept]
  split
  next hj =>
    subst hj
    rw [connection_of_not_lt (Nat.lt_irrefl _)]
    rfl
  next => rfl

lemma idles_unbind (b : Broker) (id : ClientId) (k : ConnectionId) (remove : Bool) :
    Idles b (b.unbind id k remove).2 := by
  obtain ⟨-, he⟩ | ⟨session, hs, -, he⟩ := b.unbind_cases id k remove <;> rw [he]
  · exact idles_of_same rfl (fun _ => rfl) fun _ => rfl
  · split
    · exact b.idles_teardown id session
    · exact idles_setSession hs ⟨rfl, rfl, nofun⟩

lemma idles_expire (b : Broker) (id : ClientId) : Idles b (b.expire id).2 := by
  obtain ⟨he, -⟩ | ⟨session, hs, ⟨-, he⟩ | ⟨k, -, he⟩⟩ := b.expire_cases id <;> rw [he]
  · exact idles_of_same rfl (fun _ => rfl) fun _ => rfl
  · exact b.idles_teardown id session
  · have hc : Idles b (b.closeConnection k) := idles_modifyConnection fun _ => rfl
    exact hc.trans (idles_teardown _ id session)

lemma idles_subscribe (b : Broker) (client : ClientInfo) (k : ConnectionId) (filter : String)
    (qos : QoS) : Idles b (b.subscribe .quiet client k filter qos).2 := by
  obtain ⟨calls, he | ⟨session, granted, hs, -, -, he⟩⟩ := subscribe_cases filter b client k qos <;>
    rw [he]
  · exact idles_of_same rfl (fun _ => rfl) fun _ => rfl
  · have hl : session.Left
        { session with subscriptions := session.subscriptions.insert filter granted } :=
      ⟨rfl, rfl, fun _ hk => hk⟩
    exact ⟨rfl, (idles_setSession hs hl).sessions, fun _ => rfl⟩

lemma idles_unsubscribe (b : Broker) (id : ClientId) (k : ConnectionId) (filter : String) :
    Idles b (b.unsubscribe .quiet id k filter).2 := by
  obtain he | ⟨session, calls, hs, -, he⟩ := unsubscribe_cases filter b id k <;> rw [he]
  · exact idles_of_same rfl (fun _ => rfl) fun _ => rfl
  · have hl : session.Left { session with subscriptions := session.subscriptions.erase filter } :=
      ⟨rfl, rfl, fun _ hk => hk⟩
    exact ⟨rfl, (idles_setSession hs hl).sessions, fun _ => rfl⟩

/-- Binding does not change what any connection holds. -/
lemma held_rebind {clean : Bool} {client : ClientInfo} (lost : List String)
    (hk : k < b.connections.size) (j : ConnectionId) :
    ((b.rebind id clean k client session lost).connection j).held = (b.connection j).held := by
  by_cases hj : k = j
  · subst hj
    rw [connection_rebind_self _ hk]
    rfl
  · rw [connection_rebind_of_ne _ hj]
    split <;> rfl

/-- Only copies worth keeping are queued. -/
lemma qos_of_fate_queued {copy : Publish} (h : b.fate session copy = .queued) :
    copy.qos ≠ .atMostOnce := by
  unfold fate at h
  dsimp only at h
  split_ifs at h with _ _ hq
  exact hq.2

end Broker

/-- A message may push out another one, but not from a queue that is too long. -/
lemma Session.length_enqueue (session : Session) (max : Nat) (publish : Publish) :
    (session.enqueue max publish).queue.length ≤ session.queue.length + 1 ∧
      ((session.enqueue max publish).queue.length ≤ max ∨
        (session.enqueue max publish).queue.length ≤ session.queue.length) := by
  unfold enqueue
  dsimp only
  split <;> simp_all

end idling

namespace Bindings
variable {a : Bindings} {max : Nat} {b : Broker} {k : ConnectionId} {id : ClientId}
  {session : Session}

section life

lemma bounded_start (h : b.Opened) : Bounded b.config.session.maxQueuedMessages (start b) where
  config := rfl
  serves id session k hs := by
    change b.session? id = some session at hs
    rw [h.session?] at hs
    cases hs
  clear k _ := by
    change (b.connection k).held = []
    rw [h.connection]
    rfl
  bounded id session hs := by
    change b.session? id = some session at hs
    rw [h.session?] at hs
    cases hs

/-- What idles keeps the bound. -/
lemma Bounded.idles (h : Bounded max a) (hi : a.broker.Idles b) :
    Bounded max { a with broker := b } where
  config := by rw [← h.config, hi.config]
  serves id next k hn hk := by
    obtain ⟨session, hs, hl⟩ := hi.sessions id next hn
    exact h.serves id session k hs (hl.connection k hk)
  clear k hu := (hi.held k).trans (h.clear k hu)
  bounded id next hn := by
    obtain ⟨session, hs, hl⟩ := hi.sessions id next hn
    have hb := h.bounded id session hs
    rw [hl.queue]
    cases hk : next.connection with
    | none =>
      simp only [returnable, hk, List.length_nil]
      omega
    | some k =>
      rw [returnable_of_connection hk, Phase.inHand_congr (hi.held k)]
      rwa [returnable_of_connection (hl.connection k hk)] at hb

/-- A connection comes further, and no more can come back from it than before. -/
lemma Bounded.proceed (h : Bounded max a) {phase : Phase} (hc : b.config = a.broker.config)
    (hs : ∀ id, b.session? id = a.broker.session? id)
    (hh : ∀ j, k ≠ j → (b.connection j).held = (a.broker.connection j).held)
    (hu : phase ≠ .unbound) (hserves : ∀ id, (a.phase k).Serves id → phase.Serves id)
    (hr : (Session.keepable (phase.inHand (b.connection k))).length ≤
      (Session.keepable ((a.phase k).inHand (a.broker.connection k))).length) :
    Bounded max (a.proceed k phase b) where
  config := by rw [← h.config, ← hc]; rfl
  serves id session j hs' hj := by
    have hold := h.serves id session j ((hs id).symm.trans hs') hj
    by_cases hkj : k = j
    · subst hkj
      rw [phase_proceed_self]
      exact hserves id hold
    · rwa [phase_proceed_of_ne hkj]
  clear j hj := by
    by_cases hkj : k = j
    · subst hkj
      exact absurd (phase_proceed_self.symm.trans hj) hu
    · rw [phase_proceed_of_ne hkj] at hj
      exact (hh j hkj).trans (h.clear j hj)
  bounded id session hs' := by
    have hb := h.bounded id session ((hs id).symm.trans hs')
    suffices hl : ((a.proceed k phase b).returnable session).length ≤
        (a.returnable session).length from (Nat.add_le_add_left hl _).trans hb
    cases hj : session.connection with
    | none => simp [returnable, hj]
    | some j =>
      rw [returnable_of_connection hj, returnable_of_connection hj]
      by_cases hkj : k = j
      · subst hkj
        rwa [phase_proceed_self]
      · rw [phase_proceed_of_ne hkj]
        exact (congrArg _ (congrArg _ (Phase.inHand_congr (hh j hkj) _))).le

/-- Nothing comes back from a connection any more. -/
lemma Bounded.settle (h : Bounded max a) (k : ConnectionId) :
    Bounded max (a.proceed k .settled a.broker) :=
  h.proceed rfl (fun _ => rfl) (fun _ _ => rfl) nofun (fun _ _ => trivial) (Nat.zero_le _)

lemma Bounded.setQueue (h : Bounded max a) (hs : a.broker.session? id = some session)
    {queue : List Publish} (hq : queue.length + (a.returnable session).length ≤ max + a.early id) :
    Bounded max { a with broker := a.broker.setSession id { session with queue } } where
  config := h.config
  serves other next k hn hk := by
    rw [Broker.session?_setSession] at hn
    split at hn
    next ho =>
      cases hn
      exact h.serves other session k (ho ▸ hs) hk
    next => exact h.serves other next k hn hk
  clear := h.clear
  bounded other next hn := by
    rw [Broker.session?_setSession] at hn
    split at hn
    next ho =>
      cases hn
      exact ho ▸ hq
    next => exact h.bounded other next hn

/-- A connection is opened, or some of what it was to be sent comes back. -/
lemma Bounded.establish (h : Bounded max a) {outcome : BindOutcome}
    (hp : a.phase k = .bound id outcome) : Bounded max (a.establish k id outcome) := by
  set c := a.broker.connection k
  set act := fun c : Connection =>
    c.establish (.connack outcome.resumed .accepted) outcome.replay
  have hcontrol : (Packet.connack outcome.resumed .accepted).publish? = none := rfl
  obtain ⟨sent, unsent, state, hu, -, -, -, hr⟩ := c.establish_cases hcontrol outcome.replay
  have hheld : ∀ j, k ≠ j → ((a.broker.modifyConnection k fun c => (act c).2).connection j).held =
      (a.broker.connection j).held := fun j hj => by
    rw [Broker.connection_modifyConnection_of_ne _ hj]
  suffices ho : ∀ phase, phase = .settled ∨ phase = .failed id unsent →
      Bounded max (a.proceed k phase (a.broker.modifyConnection k fun c => (act c).2)) from
    ho (Phase.opened id (act c).1)
      (hr.imp (fun h => congrArg (Phase.opened id) h.1) (congrArg (Phase.opened id)))
  rintro phase (rfl | rfl)
  · exact h.proceed rfl (fun _ => rfl) hheld nofun (fun _ _ => trivial) (Nat.zero_le _)
  · refine h.proceed rfl (fun _ => rfl) hheld nofun (fun other ho => ?_) ?_
    · rw [hp] at ho
      exact ho
    · rw [hp]
      change (Session.keepable unsent).length ≤ (Session.keepable (outcome.replay ++ c.held)).length
      rw [hu, Session.keepable, Session.keepable, List.filter_append, List.length_append]
      exact Nat.le_add_left _ _

/-- What was not written goes to the head of the queue, or nowhere. -/
lemma Bounded.requeue (h : Bounded max a) {unsent : List Publish}
    (hp : a.phase k = .failed id unsent) :
    Bounded max (a.proceed k .settled (a.broker.requeue id k unsent).2) := by
  have hsettled := h.settle k
  unfold Broker.requeue
  split
  · exact hsettled
  next session hs =>
    obtain ⟨hs, hk⟩ := Broker.boundSession?_eq_some.mp hs
    split
    · exact hsettled
    · refine hsettled.setQueue hs ?_
      have hb := h.bounded id session hs
      rw [returnable_of_connection hk, hp] at hb
      rw [returnable_of_connection hk, phase_proceed_self, List.length_append]
      change (Session.keepable unsent).length + _ + 0 ≤ max + a.early id
      change _ + (Session.keepable unsent).length ≤ _ at hb
      omega

/-- No session is bound to a connection that was not bound yet. -/
lemma Bounded.ne_of_unbound (h : Bounded max a) (hu : a.phase k = .unbound)
    (hs : a.broker.session? id = some session) {j : ConnectionId}
    (hj : session.connection = some j) : k ≠ j := by
  rintro rfl
  have hserves := h.serves id session k hs hj
  rw [hu] at hserves
  exact hserves

/-- The queue of a session is in the hands of the actor that had it bound. -/
lemma Bounded.enter (h : Bounded max a) (hu : a.phase k = .unbound)
    (hk : k < a.broker.connections.size) {clean : Bool} {client : ClientInfo}
    (hf : a.broker.Found id clean client session) (lost : List String) {outcome : BindOutcome}
    (hr : outcome.replay.length ≤ session.queue.length)
    (hi : (a.broker.rebind id clean k client session lost).Idles b) :
    Bounded max (a.proceed k (.bound id outcome) b) := by
  suffices hb : Bounded max
      (a.proceed k (.bound id outcome) (a.broker.rebind id clean k client session lost)) from
    hb.idles hi
  have hheld : ∀ j, ((a.broker.rebind id clean k client session lost).connection j).held =
      (a.broker.connection j).held := Broker.held_rebind lost hk
  constructor
  case config => rw [broker_proceed, (Broker.rules_rebind lost).1, h.config]
  case serves =>
    intro other next j hn hj
    rw [broker_proceed, Broker.session?_rebind] at hn
    split at hn
    next ho =>
      cases hn
      obtain rfl : k = j := Option.some.inj hj
      rw [phase_proceed_self]
      exact ho
    next =>
      rw [phase_proceed_of_ne (h.ne_of_unbound hu hn hj)]
      exact h.serves other next j hn hj
  case clear =>
    intro j hj
    by_cases hkj : k = j
    · subst hkj
      rw [phase_proceed_self] at hj
      cases hj
    · rw [phase_proceed_of_ne hkj] at hj
      exact (hheld j).trans (h.clear j hj)
  case bounded =>
    intro other next hn
    rw [broker_proceed, Broker.session?_rebind] at hn
    split at hn
    next ho =>
      cases hn
      subst ho
      rw [returnable_of_connection rfl, phase_proceed_self]
      change 0 + (Session.keepable (outcome.replay ++ ((a.broker.rebind id clean k client session
        lost).connection k).held)).length ≤ max + a.early id
      rw [hheld, h.clear k hu, List.append_nil, Nat.zero_add]
      refine (List.length_filter_le _ _).trans (hr.trans ?_)
      obtain hs | ⟨-, -, -, hq⟩ := hf.own_or_new
      · exact (Nat.le_add_right _ _).trans (h.bounded id session hs)
      · rw [hq]
        exact Nat.zero_le _
    next =>
      have hr : (a.proceed k (.bound id outcome)
          (a.broker.rebind id clean k client session lost)).returnable next = a.returnable next :=
        returnable_congr rfl fun j hj =>
          ⟨phase_proceed_of_ne (h.ne_of_unbound hu hn hj), hheld j⟩
      rw [hr]
      exact h.bounded other next hn

/-- A session is bound to an idle connection, unless storage fails. -/
lemma Bounded.bind (h : Bounded max a) (hu : a.phase k = .unbound)
    (hi : (a.broker.connection k).state = .idle) (id : ClientId) (clean : Bool)
    (client : ClientInfo) : Bounded max (a.bind id clean k client) := by
  have hk := Broker.lt_size_of_idle hi
  unfold Bindings.bind
  dsimp only
  set b := a.broker.modifyConnection k fun c => { c with state := .binding } with hb
  have hw : Bounded max { a with broker := b } := h.idles (Broker.idles_modifyConnection fun _ => rfl)
  have hz : k < b.connections.size := hk.trans_eq (Broker.size_modifyConnection _).symm
  obtain ⟨calls, stored, -, ⟨error, -, he⟩ | ⟨session, lost, hf, -, he⟩⟩ :=
    b.bind_cases id clean k client <;> rw [he]
  · have hbooks : b.Idles (b.withBooks calls stored b.identified) :=
      Broker.idles_of_same rfl (fun _ => rfl) fun _ => rfl
    exact (hw.idles hbooks).settle k
  · refine hw.enter hu hz hf lost ?_ (Broker.idles_of_same rfl (fun _ => rfl) fun _ => rfl)
    dsimp only
    split
    · exact Nat.zero_le _
    · exact Nat.le_refl _

end life

section publishing
variable {a' : Bindings} {publish : Publish} {granted : QoS}

/-- Nothing comes back to a session that is not waiting for its connection. -/
lemma returnable_of_not_pending (hs : a.broker.session? id = some session)
    (hp : a.isPending id = false) : a.returnable session = [] := by
  cases hk : session.connection with
  | none => rw [returnable, hk]
  | some k =>
    rw [isPending_of_connection hs hk] at hp
    rw [returnable_of_connection hk]
    cases hphase : a.phase k with
    | unbound | settled => rfl
    | bound | failed =>
      rw [hphase] at hp
      cases hp

/-- A copy that is held may come back, if its client is waiting for its connection. -/
lemma length_inHand_hold (phase : Phase) (c : Connection) (copy : Publish) :
    (Session.keepable (phase.inHand (c.hold copy))).length ≤
      (Session.keepable (phase.inHand c)).length +
        if phase.isPending then (Session.keepable [copy]).length else 0 := by
  cases phase with
  | unbound | settled => exact Nat.zero_le _
  | failed => exact Nat.le_add_right _ _
  | bound id outcome =>
    change (Session.keepable (outcome.replay ++ (c.held ++ [copy]))).length ≤
      (Session.keepable (outcome.replay ++ c.held)).length + (Session.keepable [copy]).length
    rw [← List.append_assoc, Session.keepable, List.filter_append, List.length_append]
    exact Nat.le_refl _

@[simp] lemma broker_served_singleton : (a.served publish [(id, granted)]).broker =
    (a.broker.route id (publish.copyFor granted)).2 := rfl

lemma early_served_self : (a.served publish [(id, granted)]).early id = a.early id +
    if a.isPending id then (Session.keepable [publish.copyFor granted]).length else 0 := by
  simp [served, tooEarly, Publish.copiesTo]

lemma early_served_of_ne {other : ClientId} (ho : other ≠ id) :
    (a.served publish [(id, granted)]).early other = a.early other := by
  simp [served, tooEarly, Publish.copiesTo, ho.symm, Session.keepable]

/-- A copy that is queued was counted if it was too early, and pushed something out of a full queue
if it was not. -/
lemma Bounded.length_enqueue (h : Bounded max a) (hs : a.broker.session? id = some session)
    {copy : Publish} (hq : copy.qos ≠ .atMostOnce) :
    (session.enqueue max copy).queue.length + (a.returnable session).length ≤
      max + (a.early id + if a.isPending id then (Session.keepable [copy]).length else 0) := by
  have hb := h.bounded id session hs
  obtain ⟨hgrown, hfull⟩ := session.length_enqueue max copy
  cases hp : a.isPending id with
  | true =>
    have hkeep : Session.keepable [copy] = [copy] := by simp [Session.keepable, hq]
    rw [if_pos rfl, hkeep, List.length_singleton]
    omega
  | false =>
    rw [returnable_of_not_pending hs hp] at hb ⊢
    rw [List.length_nil] at hb ⊢
    omega

/-- A copy adds to the queue of its client, or to what may come back to that.  If it was too early
it was counted, and if not it pushed something out of a full queue. -/
lemma Bounded.routed (h : Bounded max a) (hs : a.broker.session? id = some session)
    {next : Session} (hn : (a.served publish [(id, granted)]).broker.session? id = some next) :
    next.connection = session.connection ∧
      next.queue.length + ((a.served publish [(id, granted)]).returnable next).length ≤
        max + (a.served publish [(id, granted)]).early id := by
  set a' := a.served publish [(id, granted)]
  have hb := h.bounded id session hs
  have he : a'.early id = _ := early_served_self
  have hd := Broker.route_disposed hs (publish.copyFor granted)
  generalize hf : a.broker.fate session (publish.copyFor granted) = fate at hd
  cases hd with
  | @written k hk hs' hc =>
    obtain rfl := Option.some.inj (hs'.symm.trans hn)
    have hr : a'.returnable session = a.returnable session := by
      refine returnable_congr rfl fun j hj => ⟨rfl, ?_⟩
      obtain rfl := Option.some.inj (hk.symm.trans hj)
      exact hc.held
    rw [hr]
    exact ⟨rfl, by omega⟩
  | @held k hk hs' hc =>
    obtain rfl := Option.some.inj (hs'.symm.trans hn)
    have hr := length_inHand_hold (a.phase k) (a.broker.connection k) (publish.copyFor granted)
    rw [isPending_of_connection hs hk] at he
    rw [returnable_of_connection hk] at hb ⊢
    rw [← hc] at hr
    change _ ∧ _ + (Session.keepable ((a.phase k).inHand
      ((a.broker.route id (publish.copyFor granted)).2.connection k))).length ≤ _
    exact ⟨rfl, by omega⟩
  | queued hs' hc =>
    obtain rfl := Option.some.inj (hs'.symm.trans hn)
    set next := session.enqueue a.broker.config.session.maxQueuedMessages (publish.copyFor granted)
      with hnext
    have hr : a'.returnable next = a.returnable session := by
      exact returnable_congr rfl fun j hj => ⟨rfl, (hc j hj).held⟩
    have hq := h.length_enqueue hs (Broker.qos_of_fate_queued hf)
    change _ ∧ next.queue.length + (a'.returnable next).length ≤ _
    rw [hr, he, hnext, h.config]
    exact ⟨rfl, hq⟩
  | dropped hs' hc =>
    obtain rfl := Option.some.inj (hs'.symm.trans hn)
    have hr : a'.returnable session = a.returnable session := by
      exact returnable_congr rfl fun j hj => ⟨rfl, (hc j hj).held⟩
    rw [hr]
    exact ⟨rfl, by omega⟩

/-- Only the connection of the client is touched. -/
lemma connection_served (hs : a.broker.session? id = some session) {j : ConnectionId}
    (hj : session.connection ≠ some j) :
    (a.served publish [(id, granted)]).broker.connection j = a.broker.connection j :=
  Broker.route_rel (P := fun c d => d = c) _ (fun _ => rfl) j fun found hf hk => by
    obtain rfl := Option.some.inj (hf.symm.trans hs)
    exact absurd hk hj

/-- No more can come back to another client than before. -/
lemma Bounded.returnable_served_of_ne (h : Bounded max a)
    (hs : a.broker.session? id = some session) {other : ClientId} (ho : other ≠ id)
    {next : Session} (hn : a.broker.session? other = some next) :
    ((a.served publish [(id, granted)]).returnable next).length ≤ (a.returnable next).length := by
  cases hj : next.connection with
  | none =>
    rw [returnable, hj]
    exact Nat.zero_le _
  | some j =>
    by_cases hk : session.connection = some j
    · -- two clients share a connection only once that is settled
      have hnone := Phase.inHand_of_shared (h.serves id session j hs hk)
        (h.serves other next j hn hj) ho
        ((a.served publish [(id, granted)]).broker.connection j)
      rw [returnable_of_connection hj]
      change (Session.keepable ((a.phase j).inHand _)).length ≤ _
      rw [hnone]
      exact Nat.zero_le _
    · have hr : (a.served publish [(id, granted)]).returnable next = a.returnable next := by
        refine returnable_congr rfl fun i hi => ⟨rfl, ?_⟩
        obtain rfl := Option.some.inj (hj.symm.trans hi)
        rw [connection_served hs hk]
      rw [hr]

/-- The bound only gets looser. -/
lemma Bounded.loosen (h : Bounded max a) {early : ClientId → Nat} (he : ∀ id, a.early id ≤ early id) :
    Bounded max { a with early } :=
  ⟨h.config, h.serves, h.clear, fun id session hs =>
    (h.bounded id session hs).trans (Nat.add_le_add_left (he id) max)⟩

/-- One copy is sent. -/
lemma Bounded.serve (h : Bounded max a) (publish : Publish) (id : ClientId) (granted : QoS) :
    Bounded max (a.served publish [(id, granted)]) := by
  cases hs : a.broker.session? id with
  | none =>
    have hb : (a.served publish [(id, granted)]).broker = a.broker := Broker.route_of_none _ hs
    have hl := h.loosen fun id' => Nat.le_add_right (a.early id')
      (a.tooEarly publish [(id, granted)] id')
    rwa [show a.served publish [(id, granted)] = _ from congrArg (fun broker : Broker =>
      { a with broker, early := (a.served publish [(id, granted)]).early }) hb]
  | some session =>
    have hother : ∀ other, other ≠ id →
        (a.served publish [(id, granted)]).broker.session? other = a.broker.session? other :=
      fun other ho => (Broker.route_of_ne ho.symm _).1
    constructor
    case config =>
      obtain ⟨_, _, _, he⟩ := a.broker.route_frame (publish.copyFor granted) id
      rw [← h.config, broker_served_singleton, he]
    case serves =>
      intro other next j hn hj
      by_cases ho : other = id
      · subst ho
        exact h.serves other session j hs ((h.routed hs hn).1.symm.trans hj)
      · exact h.serves other next j ((hother other ho).symm.trans hn) hj
    case clear =>
      intro j hj
      refine (congrArg Connection.held (connection_served hs fun hk => ?_)).trans (h.clear j hj)
      have hserves := h.serves id session j hs hk
      rw [show a.phase j = _ from hj] at hserves
      exact hserves
    case bounded =>
      intro other next hn
      by_cases ho : other = id
      · subst ho
        exact (h.routed hs hn).2
      · rw [hother other ho] at hn
        rw [early_served_of_ne ho]
        exact (Nat.add_le_add_left (h.returnable_served_of_ne hs ho hn) _).trans
          (h.bounded other next hn)

lemma isPending_served_singleton (publish : Publish) (target : ClientId × QoS) (id : ClientId) :
    (a.served publish [target]).isPending id = a.isPending id := by
  obtain ⟨other, granted⟩ := target
  have hs : ((a.broker.route other (publish.copyFor granted)).2.session? id).bind (·.connection) =
      (a.broker.session? id).bind (·.connection) := by
    by_cases ho : other = id
    · subst ho
      cases hs : a.broker.session? other with
      | none => rw [Broker.route_of_none _ hs, hs]
      | some session =>
        rw [Broker.session?_route hs, Option.bind_some, Option.bind_some, Broker.sessionAfter]
        split <;> rfl
    · rw [(Broker.route_of_ne ho _).1]
  rw [isPending, isPending, broker_served_singleton, hs]
  rfl

lemma served_cons (a : Bindings) (publish : Publish) (target : ClientId × QoS)
    (rest : List (ClientId × QoS)) :
    a.served publish (target :: rest) = (a.served publish [target]).served publish rest := by
  have he : ∀ id, a.tooEarly publish (target :: rest) id =
      a.tooEarly publish [target] id + (a.served publish [target]).tooEarly publish rest id := by
    intro id
    rw [tooEarly, tooEarly, tooEarly, isPending_served_singleton]
    cases a.isPending id with
    | false => rfl
    | true =>
      simp only [if_true, Publish.copiesTo, Session.keepable]
      rw [← List.singleton_append, List.filter_append, List.map_append, List.filter_append,
        List.length_append]
  have hearly : (a.served publish (target :: rest)).early =
      ((a.served publish [target]).served publish rest).early := by
    funext id
    change a.early id + _ = a.early id + _ + _
    rw [he, Nat.add_assoc]
  exact congrArg (fun early => ({ a.served publish (target :: rest) with early } : Bindings)) hearly

/-- Copies are sent to one client after the other. -/
lemma Bounded.served (h : Bounded max a) (publish : Publish) (targets : List (ClientId × QoS)) :
    Bounded max (a.served publish targets) := by
  induction targets generalizing a with
  | nil => exact h.loosen fun id => Nat.le_add_right _ _
  | cons target rest ih =>
    rw [served_cons]
    exact ih (h.serve publish target.1 target.2)

lemma Bounded.published (h : Bounded max a) (publish : Publish) : Bounded max (a.publish publish) := by
  obtain ⟨retained, he⟩ := a.broker.retain_eq publish
  have hr : Bounded max { a with broker := a.broker.retain publish } := by
    rw [he]
    exact h.idles (Broker.idles_of_same rfl (fun _ => rfl) fun _ => rfl)
  have hp : a.publish publish = { a with broker := a.broker.retain publish }.served publish
      (a.broker.directory.matching publish.topic).toList := by
    unfold Bindings.publish Broker.publish
    rw [he]
    rfl
  rw [hp]
  exact hr.served publish _

end publishing

/-- What one step keeps. -/
theorem Bounded.step (h : Bounded max a) (s : BindingStep) : Bounded max (a.step s) := by
  cases s with
  | accept => exact h.idles a.broker.idles_accept
  | bind id clean k client =>
    cases hp : a.phase k with
    | unbound =>
      simp only [Bindings.step, hp]
      split
      next hi => exact h.bind hp hi id clean client
      next => exact h
    | _ => simpa only [Bindings.step, hp] using h
  | establish k =>
    cases hp : a.phase k with
    | bound id outcome => simpa only [Bindings.step, hp] using h.establish hp
    | _ => simpa only [Bindings.step, hp] using h
  | requeue k =>
    cases hp : a.phase k with
    | failed id unsent => simpa only [Bindings.step, hp] using h.requeue hp
    | _ => simpa only [Bindings.step, hp] using h
  | unbind id k remove => exact h.idles (a.broker.idles_unbind id k remove)
  | expire id => exact h.idles (a.broker.idles_expire id)
  | subscribe client k filter qos => exact h.idles (a.broker.idles_subscribe client k filter qos)
  | unsubscribe id k filter => exact h.idles (a.broker.idles_unsubscribe id k filter)
  | publish publish => exact h.published publish
  | fault k fault =>
    have hi : a.broker.Idles (a.broker.modifyConnection k fun c =>
        { c with transport := c.transport.suffer fault }) := Broker.idles_modifyConnection fun _ => rfl
    exact h.idles hi

/-- What every interleaving keeps. -/
theorem Bounded.run (h : Bounded max a) (steps : List BindingStep) : Bounded max (a.run steps) := by
  induction steps generalizing a with
  | nil => exact h
  | cons s steps ih => exact ih (h.step s)

/-- Some copy worth keeping reaches a client whose connection is not open yet. -/
def IsEarly (a : Bindings) (s : BindingStep) : Prop :=
  ∃ publish id, s = .publish publish ∧
    a.tooEarly publish (a.broker.directory.matching publish.topic).toList id ≠ 0

lemma early_step {s : BindingStep} (h : ¬ a.IsEarly s) : (a.step s).early = a.early := by
  cases s with
  | publish publish =>
    funext id
    change a.early id + _ = a.early id
    rw [Nat.add_eq_left]
    by_contra hn
    exact h ⟨publish, id, rfl, hn⟩
  | bind id clean k client =>
    unfold step bind
    dsimp only
    split
    · split
      · split <;> rfl
      · rfl
    · rfl
  | establish | requeue =>
    unfold step
    dsimp only
    split <;> rfl
  | accept | unbind | expire | subscribe | unsubscribe | fault => rfl

lemma early_run {steps : List BindingStep} (h : ∀ before s later, steps = before ++ s :: later →
    ¬ (a.run before).IsEarly s) : (a.run steps).early = a.early := by
  induction steps generalizing a with
  | nil => rfl
  | cons s steps ih =>
    refine (ih (a := a.step s) fun before t later he => ?_).trans (early_step (h [] s steps rfl))
    exact h (s :: before) t later (congrArg (s :: ·) he)

end Bindings

/-- In every interleaving of connections that are bound, opened, given their messages back, let go
and expire while others publish and transports fail, no queue gets longer than its bound and the
number of copies worth keeping that reached its client before the connection was open.  So it keeps
its bound if there are none. -/
theorem queues_exceed_bound_by_early_copies_only {b : Broker} (h : b.Opened)
    (steps : List BindingStep) :
    let max := b.config.session.maxQueuedMessages
    let final := (Bindings.start b).run steps
    (∀ id session, final.broker.session? id = some session →
      session.queue.length ≤ max + final.early id) ∧
    ((∀ before s later, steps = before ++ s :: later →
        ¬ ((Bindings.start b).run before).IsEarly s) →
      ∀ id session, final.broker.session? id = some session → session.queue.length ≤ max) := by
  intro max final
  have hb : Bindings.Bounded max final := (Bindings.bounded_start h).run steps
  have hq : ∀ id session, final.broker.session? id = some session →
      session.queue.length ≤ max + final.early id := fun id session hs =>
    (Nat.le_add_right _ _).trans (hb.bounded id session hs)
  refine ⟨hq, fun hn id session hs => ?_⟩
  have he : final.early id = 0 := congrFun (Bindings.early_run hn) id
  have hl := hq id session hs
  rwa [he] at hl

/-- The bound is one.  A message is queued, comes back from a transport that broke, and is pushed
out by the next one. -/
theorem queues_exceed_bound_by_early_copies_only_retry :
    let b := Broker.lenient { session := { maxQueuedMessages := 1 } } .empty
    let message (n : UInt8) : Publish := ⟨"a", [n], .atLeastOnce, false, false, none⟩
    let steps : List BindingStep := [.accept, .bind "c" false 0 (.anonymous "c"), .establish 0,
      .subscribe (.anonymous "c") 0 "a" .atLeastOnce, .unbind "c" 0 false, .publish (message 1),
      .accept, .fault 1 (.breaks (1 ≤ ·)), .bind "c" false 1 (.anonymous "c"), .establish 1,
      .requeue 1, .unbind "c" 1 false, .publish (message 2)]
    let final := (Bindings.start b).run steps
    b.Opened ∧ final.early "c" = 0 ∧
      ∃ session, final.broker.session? "c" = some session ∧ session.queue = [message 2] ∧
        session.queue.length ≤ 1 := by
  intro b message steps final
  have hp : b.Opened := Broker.opened_lenient _ _
  have he : final.early "c" = 0 := by decide +kernel
  have hq : (final.broker.session? "c").map (·.queue) = some [message 2] := by decide +kernel
  obtain ⟨session, hs, hq⟩ := Option.map_eq_some_iff.mp hq
  have hl := (queues_exceed_bound_by_early_copies_only hp steps).1 "c" session hs
  exact ⟨hp, he, session, hs, hq, hl.trans_eq (congrArg (1 + ·) he)⟩

/-- The bound is one.  The queued message is handed to a connection, and another one is held there;
when the connection is closed before it opens, both come back. -/
theorem queue_exceeds_bound_by_early_copy :
    let b := Broker.lenient { session := { maxQueuedMessages := 1 } } .empty
    let message (n : UInt8) : Publish := ⟨"a", [n], .atLeastOnce, false, false, none⟩
    let steps : List BindingStep := [.accept, .bind "c" false 0 (.anonymous "c"), .establish 0,
      .subscribe (.anonymous "c") 0 "a" .atLeastOnce, .unbind "c" 0 false, .publish (message 1),
      .accept, .fault 1 (.breaks (1 ≤ ·)), .bind "c" false 1 (.anonymous "c"),
      .publish (message 2), .establish 1, .requeue 1]
    let final := (Bindings.start b).run steps
    b.config.session.maxQueuedMessages = 1 ∧ final.early "c" = 1 ∧
      (final.broker.session? "c").map (·.queue) = some [message 1, message 2] := by
  decide +kernel

end MqttBroker
