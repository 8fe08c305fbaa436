import MqttBroker.Proofs.Broker.Opening
import MqttBroker.Proofs.Broker.Run

/-!
Invariants of what a broker knows of subscriptions.

Sessions, directory and storage hold the subscriptions of the clients.  They change together, and
only when a session is bound, subscribed to a filter, unsubscribed or removed.  What these changes
keep, every operation keeps.
-/
namespace MqttBroker

/-- A session may change but for its subscriptions, and whether it is to be stored. -/
structure Session.SameGrants (session next : Session) : Prop where
  subscriptions : next.subscriptions = session.subscriptions
  clean : next.clean = session.clean
  attached : next.attached = session.attached
  existed : next.existed = session.existed

namespace Broker

/-- A property of sessions, directory and storage that is kept whenever subscriptions change. -/
structure Upheld (P : Broker → Prop) : Prop where
  books {b : Broker} (h : P b) (calls : CallCounts) {stored : Repository StoredSession}
    (hs : b.stored.Consulted stored) (identified : Nat) : P (b.withBooks calls stored identified)
  connections {b : Broker} (h : P b) (connections : Array Connection) : P { b with connections }
  retained {b : Broker} (h : P b) (retained : RetainedStore) : P { b with retained }
  note {b : Broker} (h : P b) (id : ClientId) (episode : Episode) : P (b.note id episode)
  session {b : Broker} (h : P b) {id : ClientId} {session : Session}
    (hs : b.session? id = some session) {next : Session} (hn : session.SameGrants next) :
    P (b.setSession id next)
  subscribed {b : Broker} (h : P b) {id : ClientId} {session : Session}
    (hs : b.session? id = some session) (filter : String) {granted : QoS}
    (hg : granted ≤ b.config.mqtt.qosLimit) (calls : CallCounts) :
    P ((b.subscribed id session filter granted).withBooks calls
      (b.saved id session.clean
        { session with subscriptions := session.subscriptions.insert filter granted })
      b.identified)
  unsubscribed {b : Broker} (h : P b) {id : ClientId} {session : Session}
    (hs : b.session? id = some session) (filter : String) (calls : CallCounts) :
    P ((b.unsubscribed id session filter).withBooks calls
      (b.saved id session.clean
        { session with subscriptions := session.subscriptions.erase filter }) b.identified)
  teardown {b : Broker} (h : P b) {id : ClientId} {session : Session}
    (hs : b.session? id = some session) : P (b.teardown id session)
  rebind {b : Broker} (h : P b) {id : ClientId} {clean : Bool} {client : ClientInfo}
    {session : Session} (hf : b.Found id clean client session) (k : ConnectionId)
    (lost : List String) (calls : CallCounts) :
    P ((b.rebind id clean k client session lost).withBooks calls
      (b.filed id clean session ((session.trimmed clean client lost).rebound clean k))
      b.identified)

namespace Upheld
variable {P : Broker → Prop} (u : Upheld P) {b b' : Broker} {k : ConnectionId}
  {actor : Option ClientId}
include u

lemma modifyConnection (h : P b) (k : ConnectionId) (change : Connection → Connection) :
    P (b.modifyConnection k change) :=
  u.connections h _

section serving

lemma route (h : P b) (id : ClientId) (publish : Publish) : P (b.route id publish).2 := by
  cases hs : b.session? id with
  | none =>
    rw [route_of_none _ hs]
    exact h
  | some session =>
    have ht : P (b.tryDeliver session publish).2 := by
      obtain ⟨-, he⟩ | ⟨k, -, he, -⟩ := tryDeliver_cases publish b session <;> rw [he]
      · exact h
      · exact u.modifyConnection h k _
    obtain ⟨-, he⟩ | ⟨-, -, -, max, -, he⟩ := route_cases publish hs <;> rw [he]
    · exact u.note ht id _
    · have hs' := (session?_tryDeliver publish session).trans hs
      have hq : session.SameGrants (session.enqueue max publish) := ⟨rfl, rfl, rfl, rfl⟩
      exact u.note (u.session ht hs' hq) id _

lemma subscribe (h : P b) (client : ClientInfo) (k : ConnectionId) (filter : String) (qos : QoS) :
    P (b.subscribe .quiet client k filter qos).2 := by
  obtain ⟨calls, he | ⟨session, granted, hs, -, hg, he⟩⟩ :=
    subscribe_cases filter b client k qos <;> rw [he]
  · exact u.books h calls (.refl _) _
  · exact u.subscribed h hs filter (hg ▸ min_le_right _ _) calls

lemma unsubscribe (h : P b) (id : ClientId) (k : ConnectionId) (filter : String) :
    P (b.unsubscribe .quiet id k filter).2 := by
  obtain he | ⟨session, calls, hs, -, he⟩ := unsubscribe_cases filter b id k <;> rw [he]
  · exact h
  · exact u.unsubscribed h hs filter calls

lemma chore (h : P b) (hs : Chore k b b') : P b' := by
  cases hs with
  | books calls hs identified => exact u.books h calls hs identified
  | send | close => exact u.modifyConnection h k _
  | advance => exact u.connections h _

lemma chores (h : P b) (hs : Chores k b b') : P b' := by
  induction hs with
  | refl => exact h
  | tail _ hs ih => exact u.chore ih hs

/-- What one service keeps. -/
lemma serve (h : P b) (hs : Service k actor b b') : P b' := by
  cases hs with
  | chore hs => exact u.chore h hs
  | deliver => exact u.modifyConnection h k _
  | retain publish =>
    obtain ⟨retained, he⟩ := b.retain_eq publish
    rw [he]
    exact u.retained h retained
  | route id publish granted => exact u.route h id _
  | subscribe client filter qos => exact u.subscribe h client k filter qos
  | unsubscribe id filter => exact u.unsubscribe h id k filter

lemma services (h : P b) (hs : Services k actor b b') : P b' := by
  induction hs with
  | refl => exact h
  | tail _ hs ih => exact u.serve ih hs

end serving

section registry

lemma takeWill (h : P b) (id : ClientId) (k : ConnectionId) : P (b.takeWill id k).2 := by
  obtain he | ⟨session, hs, he⟩ := takeWill_cases b id k <;> rw [he]
  · exact h
  · exact u.session h hs ⟨rfl, rfl, rfl, rfl⟩

lemma setWill (h : P b) (id : ClientId) (k : ConnectionId) (will : Option Will) :
    P (b.setWill id k will).2 := by
  obtain he | ⟨session, hs, he⟩ := setWill_cases b id k will <;> rw [he]
  · exact h
  · exact u.session h hs ⟨rfl, rfl, rfl, rfl⟩

lemma clearWill (h : P b) (id : ClientId) : P (b.clearWill id) := by
  obtain he | ⟨session, hs, he⟩ := clearWill_cases b id <;> rw [he]
  · exact h
  · exact u.session h hs ⟨rfl, rfl, rfl, rfl⟩

lemma requeue (h : P b) (id : ClientId) (k : ConnectionId) (unsent : List Publish) :
    P (b.requeue id k unsent).2 := by
  obtain he | ⟨session, hs, he⟩ := requeue_cases b id k unsent <;> rw [he]
  · exact h
  · exact u.session h hs ⟨rfl, rfl, rfl, rfl⟩

lemma unbind (h : P b) (id : ClientId) (k : ConnectionId) (remove : Bool) :
    P (b.unbind id k remove).2 := by
  obtain ⟨-, he⟩ | ⟨session, hs, -, he⟩ := unbind_cases b id k remove <;> rw [he]
  · exact h
  · split
    · exact u.teardown h hs
    · exact u.session h hs ⟨rfl, rfl, rfl, rfl⟩

lemma expire (h : P b) (id : ClientId) : P (b.expire id).2 := by
  refine expire_induction h id (fun k => ?_) fun b session h hs _ => u.teardown h hs
  have hc : P (b.closeConnection k) := u.modifyConnection h k _
  exact hc

lemma bind (h : P b) (id : ClientId) (clean : Bool) (k : ConnectionId) (client : ClientInfo) :
    P (b.bind .quiet id clean k client).2 := by
  obtain ⟨calls, stored, hc, ⟨error, -, he⟩ | ⟨session, lost, hf, -, he⟩⟩ :=
    b.bind_cases id clean k client <;> rw [he]
  · exact u.books h calls hc _
  · have hb := u.rebind (u.books h b.calls hc b.identified)
      (hf.consulted b.calls hc b.identified) k lost calls
    rw [rebind_withBooks] at hb
    exact hb

end registry

section events

/-- What one move of an actor keeps. -/
lemma move (h : P b) (hm : Move k actor b b') : P b' := by
  cases hm with
  | serve hs => exact u.serve h hs
  | forget | noteFired => exact u.modifyConnection h k _
  | takeWill id => exact u.takeWill h id k
  | unbind id => exact u.unbind h id k _

lemma moves (h : P b) (hm : Moves k actor b b') : P b' := by
  induction hm with
  | refl => exact h
  | tail _ hm ih => exact u.move ih hm

lemma establish (h : P b) (k : ConnectionId) (client : ClientInfo) (outcome : BindOutcome) :
    P (b.establish k client outcome).2 := by
  have hc : P (b.onConnection k
      (·.establish (.connack outcome.resumed .accepted) outcome.replay)).2 := u.connections h _
  unfold Broker.establish
  generalize b.onConnection k _ = result at hc ⊢
  obtain ⟨unsent | _, b⟩ := result
  · have hq := u.requeue hc client.id k unsent
    exact u.moves hq (connectionLost_moves (speaksFor_speaker _ k))
  · exact hc

lemma bindAndEstablish (h : P b) (k : ConnectionId) (connect : Connect) (client : ClientInfo)
    (isGiven : Bool) : P (b.bindAndEstablish .quiet k connect client isGiven).2 := by
  have hb := u.bind h client.id connect.clean k client
  unfold Broker.bindAndEstablish
  generalize b.bind .quiet client.id connect.clean k client = result at hb ⊢
  obtain ⟨error | outcome, b⟩ := result
  · exact u.services hb (turnedAway_reject (by simp) b k).refused.services
  · have hi : P (if isGiven then { b with identified := b.identified + 1 } else b) := by
      split
      · exact u.books hb b.calls (.refl _) _
      · exact hb
    have hw := u.setWill hi client.id k connect.will
    exact u.establish (u.modifyConnection hw k _) k client outcome

lemma processConnect (h : P b) (k : ConnectionId) (connect : Connect) :
    P (b.processConnect .quiet k connect).2 := by
  obtain hr | ⟨client, isGiven, calls, hs, -, -, -, he⟩ := b.processConnect_cases k connect
  · exact u.services h hr.services
  · rw [he]
    exact u.bindAndEstablish (u.chores h (awaiting_chores hs calls)) k connect client isGiven

lemma handle (h : P b) (k : ConnectionId) (event : Event) : P (b.handle .quiet k event).2 := by
  obtain hm | ⟨connect, -, -, he⟩ := b.handle_moves k event
  · exact u.moves h hm
  · rw [he]
    exact u.processConnect h k connect

/-- What any operation keeps. -/
theorem perform (h : P b) (operation : Operation) : P (b.perform operation) := by
  cases operation with
  | accept => exact u.connections h _
  | fault k fault => exact u.connections h _
  | connection k change => exact u.modifyConnection h k change
  | connect k connect => exact u.processConnect h k connect
  | event k event => exact u.handle h k event
  | expire id => exact u.expire h id
  | bind id clean k client => exact u.bind h id clean k client
  | unbind id k remove => exact u.unbind h id k remove
  | subscribe client k filter qos => exact u.subscribe h client k filter qos
  | unsubscribe id k filter => exact u.unsubscribe h id k filter
  | publish publish => exact u.services h (publish_services b publish : Services 0 none _ _)
  | publishFrom client publish =>
    exact u.services h (publishFrom_services b client publish : Services 0 none _ _)
  | setWill id k will => exact u.setWill h id k will
  | clearWill id => exact u.clearWill h id
  | takeWill id k => exact u.takeWill h id k
  | fireWill will => exact u.services h (fireWill_services b will : Services 0 none _ _)
  | requeue id k unsent => exact u.requeue h id k unsent

/-- What the end of an admission keeps. -/
lemma joined (h : P b) {client : ClientInfo} {clean : Bool} {will : Option Will}
    {sent unsent : List Publish} (hj : Joined b b' k client clean will sent unsent) : P b' := by
  obtain ⟨waiting, session, change, calls, identified, hc, hf, -, rfl⟩ := hj.enrolled
  have hr := u.rebind (u.chores h hc) hf k (waiting.lostFilters clean client session) calls
  generalize hstored : waiting.filed client.id clean session _ = stored at hr ⊢
  have hs : ((waiting.rebind client.id clean k client session (waiting.lostFilters clean client
      session)).withBooks calls stored waiting.identified).session? client.id =
        some ((session.trimmed clean client (waiting.lostFilters clean client session)).rebound
          clean k) := by
    rw [session?_withBooks, session?_rebind, if_pos rfl]
  have hn : ((session.trimmed clean client (waiting.lostFilters clean client session)).rebound
      clean k).SameGrants (session.enrolled clean k client
        (waiting.lostFilters clean client session) will
          (if clean then [] else Session.keepable unsent)) := ⟨rfl, rfl, rfl, rfl⟩
  have hm := u.modifyConnection (u.session hr hs hn) k change
  exact u.books hm calls (.refl _) identified

/-- What a whole run keeps, whatever is asked of the broker. -/
theorem after (h : P b) (operations : List Operation) : P (b.after operations) := by
  induction operations generalizing b with
  | nil => exact h
  | cons operation operations ih => exact ih (u.perform h operation)

end events
end Upheld

section rules

/-- Nothing changes the configuration, or who is asked about permissions and credentials. -/
lemma upheld_of_rules (P : Config → Authorizer → Authenticator → Prop) :
    Upheld fun b => P b.config b.authorizer b.authenticator where
  books h _ _ _ _ := h
  connections h _ := h
  retained h _ := h
  note h _ _ := h
  session h _ _ _ _ _ := h
  subscribed h _ _ _ _ _ _ _ := h
  unsubscribed h _ _ _ _ _ := h
  teardown {b} h id session _ := by
    obtain ⟨directory, hd⟩ := b.detach_eq id session
    rw [teardown_eq, hd]
    exact h
  rebind {b} h {id clean client session} _ k lost _ := by
    change P (b.rebind id clean k client session lost).config
      (b.rebind id clean k client session lost).authorizer
      (b.rebind id clean k client session lost).authenticator
    rw [(rules_rebind lost).1, (rules_rebind lost).2, authenticator_rebind]
    exact h

lemma upheld_rules (b : Broker) :
    Upheld fun b' => b'.config = b.config ∧ b'.authorizer = b.authorizer :=
  upheld_of_rules fun config authorizer _ => config = b.config ∧ authorizer = b.authorizer

lemma Acts.rules {b b' : Broker} {k : ConnectionId} (h : Acts k b b') :
    b'.config = b.config ∧ b'.authorizer = b.authorizer := by
  induction h with
  | refl => exact ⟨rfl, rfl⟩
  | tail _ ha ih => exact (upheld_rules b).moves ih ha.moves.choose_spec

end rules
end Broker
end MqttBroker
