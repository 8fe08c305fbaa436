import MqttBroker.Proofs.Broker.Binding
import MqttBroker.Proofs.Broker.Run

/-!
A connection that fails to open.  What was to be written on it comes back, and what of that counts
waits in the queue of its session, which is left without a connection.
-/
namespace MqttBroker

namespace Interlude
variable (meanwhile : Interlude)

/-- Connections are never forgotten. -/
def KeepsConnections : Prop :=
  ∀ callout call b, b.connections.size ≤ (meanwhile callout call b).connections.size

/-- Nobody gets at the client's session while it is saved. -/
def LocksSaved (id : ClientId) : Prop :=
  ∀ call b, (meanwhile .save call b).session? id = b.session? id

end Interlude

namespace Broker

variable {b bound : Broker} {k : ConnectionId} {id : ClientId} {client : ClientInfo}
  {meanwhile : Interlude} {connect : Connect} {outcome : BindOutcome} {unsent : List Publish}

section growth

lemma size_callOut (hm : meanwhile.KeepsConnections) (b : Broker) (callout : Callout) :
    b.connections.size ≤ (b.callOut meanwhile callout).connections.size :=
  hm callout _ { b with calls := b.calls.tick callout }

lemma size_authenticate (hm : meanwhile.KeepsConnections) (b : Broker) (connect : Connect)
    (id : ClientId) :
    b.connections.size ≤ (b.authenticate meanwhile connect id).2.connections.size := by
  unfold authenticate askAuthenticator
  split
  · exact le_rfl
  · split
    · exact size_callOut hm b .authenticate
    · exact le_rfl

lemma size_deniedFilters (hm : meanwhile.KeepsConnections) (client : ClientInfo)
    (filters : List String) (b : Broker) :
    b.connections.size ≤ (deniedFilters meanwhile client filters b).2.connections.size := by
  induction filters generalizing b with
  | nil => exact le_rfl
  | cons filter filters ih => exact (size_callOut hm b .read).trans (ih _)

lemma size_reauthorize (hm : meanwhile.KeepsConnections) (b : Broker) (id : ClientId)
    (session : Session) :
    b.connections.size ≤ (b.reauthorize meanwhile id session).2.connections.size := by
  refine (size_deniedFilters hm session.client session.subscriptions.keys b).trans ?_
  unfold reauthorize
  dsimp only
  split <;> exact le_rfl

lemma size_trim (hm : meanwhile.KeepsConnections) (b : Broker) (id : ClientId) (clean : Bool)
    (client : ClientInfo) (session : Session) :
    b.connections.size ≤ (b.trim meanwhile id clean client session).2.connections.size := by
  set dropped := if session.isReset clean then b.detach id session else b with hr
  set cleared := if clean && !(session.existed && session.clean) then dropped.deleteStored id
    else dropped with hc
  have hd : cleared.connections = b.connections := by
    rw [hc, hr]
    split <;> split <;> simp [deleteStored]
  unfold trim
  dsimp only
  rw [← hr, ← hc, ← hd]
  split
  · exact size_reauthorize hm cleared id _
  · exact le_rfl

end growth

section binding

/-- Once a persistent session was bound, the connection has it and nothing waits in its queue. -/
lemma bindSession_bound (hm : meanwhile.KeepsConnections) (hl : meanwhile.LocksSaved id)
    (b : Broker) (k : ConnectionId) (client : ClientInfo) (session : Session) :
    b.connections.size ≤ (b.bindSession meanwhile id false k client session).2.connections.size ∧
      ∃ found, (b.bindSession meanwhile id false k client session).2.session? id = some found ∧
        found.connection = some k ∧ found.clean = false ∧ found.queue = [] := by
  have hv : (b.evictOther session k).connections.size = b.connections.size := by
    obtain he | ⟨old, -, -, he⟩ := b.evictOther_cases session k <;> rw [he]
    exact size_modifyConnection _
  have ht := size_trim hm (b.evictOther session k) id false client session
  unfold bindSession
  generalize (b.evictOther session k).trim meanwhile id false client session = trimmed at ht ⊢
  obtain ⟨kept, b'⟩ := trimmed
  dsimp only at ht ⊢
  rw [if_neg nofun]
  set next : Session :=
    { kept with
      clean := false, existed := true, attached := true, connection := some k, queue := [] }
  set noted := (((b'.attach id kept).setSession id next).modifyConnection k
    (·.setClientId id)).note id (.bound k) with hn
  have hs : noted.connections.size = b'.connections.size := by
    rw [hn]
    refine (size_modifyConnection (·.setClientId id)).trans ?_
    unfold attach
    split <;> rfl
  constructor
  · rw [← hv]
    exact ht.trans (hs.symm.le.trans (size_callOut hm noted .save))
  · refine ⟨next, ?_, rfl, rfl, rfl⟩
    change (noted.callOut meanwhile .save).session? id = some next
    rw [callOut, hl]
    change noted.session? id = some next
    rw [hn, session?_note, session?_modifyConnection, session?_setSession, if_pos rfl]

lemma bind_bound (hm : meanwhile.KeepsConnections) (hl : meanwhile.LocksSaved id)
    (h : b.bind meanwhile id false k client = (.ok outcome, bound)) :
    b.connections.size ≤ bound.connections.size ∧ ∃ found, bound.session? id = some found ∧
      found.connection = some k ∧ found.clean = false ∧ found.queue = [] := by
  obtain ⟨stored, -, hb, -⟩ := b.findOrCreate_cases id false client
  unfold bind at h
  generalize b.findOrCreate id false client = found at hb h
  obtain ⟨error | session, b'⟩ := found
  · cases h
  · dsimp only at hb
    subst hb
    have he : bound = ((b.withBooks b.calls stored b.identified).bindSession meanwhile id false k
        client session).2 := (congrArg Prod.snd h).symm
    rw [he]
    exact bindSession_bound hm hl (b.withBooks b.calls stored b.identified) k client session

end binding

section opening

/-- The identity that comes of a CONNECT bears the identifier, whoever acts meanwhile. -/
lemma authenticate_id (h : (b.authenticate meanwhile connect id).1 = .ok client) :
    client.id = id := by
  unfold authenticate at h
  split at h
  · dsimp only at h
    split at h <;> cases h
    rfl
  · split at h
    · dsimp only at h
      split at h <;> cases h
      rfl
    · cases h

/-- When a connection is lost whose persistent session has no will, the session stays as it is, but
for the connection. -/
lemma session?_connectionLost {session : Session} (hk : k < b.connections.size)
    (hc : (b.connection k).client = some client) (hn : (b.connection k).clean = false)
    (hs : b.session? client.id = some session) (hb : session.connection = some k)
    (hw : session.will = none) :
    (b.connectionLost k).session? client.id = some { session with connection := none } := by
  have hclose : (b.closeConnection k).connection k = (b.connection k).close := by
    rw [closeConnection, connection_modifyConnection _ hk, if_pos rfl]
  set mute := (b.closeConnection k).modifyConnection k fun c => { c with client := none } with hm
  have hbound : mute.boundSession? client.id k = some session :=
    boundSession?_eq_some.mpr ⟨hs, hb⟩
  have hlost : b.connectionLost k = ((mute.setSession client.id
      { session with will := none }).unbind client.id k false).2 := by
    have hclean : (mute.connection k).clean = false := by
      rw [hm, connection_modifyConnection _ (by simpa [closeConnection] using hk), if_pos rfl,
        hclose]
      exact hn
    have hclient : ((b.closeConnection k).connection k).client = some client := by
      rw [hclose]
      exact hc
    have htake : mute.takeWill client.id k =
        (none, mute.setSession client.id { session with will := none }) := by
      unfold takeWill
      rw [hbound]
      exact Prod.ext hw rfl
    unfold connectionLost
    simp only [hclient, ← hm, htake, executeWill, connection_setSession, hclean]
  have hoffered : (mute.setSession client.id { session with will := none }).boundSession? client.id
      k = some { session with will := none } := by
    refine boundSession?_eq_some.mpr ⟨?_, hb⟩
    rw [session?_setSession, if_pos rfl]
  rw [hlost, unbind, hoffered]
  simp [session?_setSession, ← hw]

/-- If a connection fails to open, what was not sent goes back to its persistent session's queue. -/
lemma establish_unsent {session : Session} (hk : k < b.connections.size)
    (hs : b.session? client.id = some session) (hb : session.connection = some k)
    (hp : session.clean = false) (hw : session.will = none) (hq : session.queue = [])
    (ho : ((b.connection k).establish (.connack outcome.resumed .accepted) outcome.replay).1 =
      .error unsent) :
    ((b.recordClient k client false).establish k client outcome).2.session? client.id =
      some { session with queue := Session.keepable unsent, connection := none } := by
  have hrecord := (b.connection k).establish_record (some client) false
    (.connack outcome.resumed .accepted) outcome.replay
  obtain ⟨recorded, hr⟩ : ∃ recorded, recorded = b.recordClient k client false := ⟨_, rfl⟩
  have hrecorded : recorded.connection k =
      { b.connection k with client := some client, clean := false } := by
    rw [hr, recordClient, connection_modifyConnection _ hk, if_pos rfl]
  have hsize : k < recorded.connections.size := by
    rw [hr, recordClient, size_modifyConnection]
    exact hk
  have hsame : recorded.session? client.id = some session := by
    rw [hr]
    exact hs
  rw [← hr, establish_of_error (by rw [hrecorded, hrecord]; exact ho)]
  obtain ⟨opened, hd⟩ : ∃ opened, opened = recorded.modifyConnection k fun c =>
      (c.establish (.connack outcome.resumed .accepted) outcome.replay).2 := ⟨_, rfl⟩
  have hopened : opened.connection k =
      { ((b.connection k).establish (.connack outcome.resumed .accepted) outcome.replay).2 with
        client := some client, clean := false } := by
    rw [hd, connection_modifyConnection _ hsize, if_pos rfl, hrecorded, hrecord]
  obtain ⟨requeued, he⟩ : ∃ requeued,
      requeued = opened.setSession client.id { session with queue := Session.keepable unsent } :=
    ⟨_, rfl⟩
  have hrequeue : (opened.requeue client.id k unsent).2 = requeued := by
    have hbound : opened.boundSession? client.id k = some session := by
      rw [hd]
      exact boundSession?_eq_some.mpr ⟨hsame, hb⟩
    unfold requeue
    rw [hbound, he]
    simp [hp, hq]
  have hclient : (requeued.connection k).client = some client := by
    rw [he, connection_setSession, hopened]
  have hclean : (requeued.connection k).clean = false := by
    rw [he, connection_setSession, hopened]
  have hnext : requeued.session? client.id =
      some { session with queue := Session.keepable unsent } := by
    rw [he, session?_setSession, if_pos rfl]
  rw [← hd, hrequeue]
  refine session?_connectionLost ?_ hclient hclean hnext hb hw
  rw [he, hd]
  simpa [setSession] using hsize

end opening

/-- The client of a CONNECT was told by its credentials, and its session is bound. -/
structure BindsTo (b : Broker) (meanwhile : Interlude) (k : ConnectionId) (connect : Connect)
    (client : ClientInfo) (outcome : BindOutcome) (bound : Broker) : Prop where
  told : ((b.setState k .idle .authenticating).2.authenticate meanwhile connect
    connect.clientId).1 = .ok client
  bound : (((b.setState k .idle .authenticating).2.authenticate meanwhile connect
    connect.clientId).2.setState k .authenticating .binding).2.bind meanwhile client.id
      connect.clean k client = (.ok outcome, bound)

lemma BindsTo.client_id (h : b.BindsTo meanwhile k connect client outcome bound) :
    client.id = connect.clientId := authenticate_id h.told

/-- The persistent session is bound to the connection, which is still there. -/
lemma BindsTo.owner (h : b.BindsTo meanwhile k connect client outcome bound)
    (hm : meanwhile.KeepsConnections) (hl : meanwhile.LocksSaved client.id)
    (hc : connect.clean = false) (hs : (b.connection k).state = .idle) :
    k < bound.connections.size ∧ ∃ found, bound.session? client.id = some found ∧
      found.connection = some k ∧ found.clean = false ∧ found.queue = [] := by
  have hb := h.bound
  rw [hc] at hb
  obtain ⟨hg, hf⟩ := bind_bound hm hl hb
  have ha := size_authenticate hm (b.setState k .idle .authenticating).2 connect connect.clientId
  rw [setState_snd, size_modifyConnection] at ha hg
  exact ⟨(lt_size_of_idle hs).trans_le (ha.trans hg), hf⟩

lemma establish_closed (h : (b.establish k client outcome).1 = .closed) : ∃ unsent,
    ((b.connection k).establish (.connack outcome.resumed .accepted) outcome.replay).1 =
      .error unsent := by
  cases he : ((b.connection k).establish (.connack outcome.resumed .accepted) outcome.replay).1 with
  | error unsent => exact ⟨unsent, rfl⟩
  | ok =>
    rw [establish_of_ok he] at h
    cases h

lemma connection_setWill (b : Broker) (id : ClientId) (k : ConnectionId) (will : Option Will)
    (j : ConnectionId) : (b.setWill id k will).2.connection j = b.connection j := by
  obtain he | ⟨session, -, he⟩ := setWill_cases b id k will <;> rw [he]
  rfl

lemma bindAndEstablish_closed (hc : connect.clean = false) (hw : connect.will = none)
    (h : (b.bindAndEstablish meanwhile k connect client false).1 = .closed) :
    ∃ outcome bound unsent, b.bind meanwhile client.id false k client = (.ok outcome, bound) ∧
      b.bindAndEstablish meanwhile k connect client false =
        ((bound.setWill client.id k none).2.recordClient k client false).establish k client
          outcome ∧
      ((bound.connection k).establish (.connack outcome.resumed .accepted) outcome.replay).1 =
        .error unsent := by
  unfold bindAndEstablish at h ⊢
  rw [hc, hw] at h ⊢
  rcases hb : b.bind meanwhile client.id false k client with ⟨error | outcome, bound⟩
  · rw [hb] at h
    cases h
  · rw [hb] at h
    dsimp only at h ⊢
    rw [if_neg nofun] at h ⊢
    obtain ⟨unsent, hu⟩ := establish_closed h
    refine ⟨outcome, bound, unsent, rfl, rfl, ?_⟩
    rw [← connection_setWill bound client.id k none k]
    generalize (bound.setWill client.id k none).2 = offered at hu ⊢
    obtain he | he := connection_modifyConnection_cases (b := offered) (k := k)
      fun c => { c with client := some client, clean := false }
    · rwa [recordClient, he, Connection.establish_record] at hu
    · rwa [recordClient, he] at hu

lemma authenticateAndBind_closed (hc : connect.clean = false) (hw : connect.will = none)
    (h : (b.authenticateAndBind meanwhile k connect connect.clientId false).1 = .closed) :
    ∃ client outcome bound unsent,
      (b.authenticate meanwhile connect connect.clientId).1 = .ok client ∧
      ((b.authenticate meanwhile connect connect.clientId).2.setState k .authenticating
        .binding).2.bind meanwhile client.id false k client = (.ok outcome, bound) ∧
      b.authenticateAndBind meanwhile k connect connect.clientId false =
        ((bound.setWill client.id k none).2.recordClient k client false).establish k client
          outcome ∧
      ((bound.connection k).establish (.connack outcome.resumed .accepted) outcome.replay).1 =
        .error unsent := by
  unfold authenticateAndBind at h ⊢
  generalize b.authenticate meanwhile connect connect.clientId = result at h ⊢
  obtain ⟨code | client, asked⟩ := result
  · cases h
  dsimp only at h ⊢
  generalize asked.setState k .authenticating .binding = result at h ⊢
  obtain ⟨_ | _, waiting⟩ := result
  · cases h
  · obtain ⟨outcome, bound, unsent, hb, he, hu⟩ := bindAndEstablish_closed hc hw h
    exact ⟨client, outcome, bound, unsent, rfl, hb, he, hu⟩

/-- A CONNECT with a persistent session and without a will is only closed without an answer if its
session was bound and the connection did not open. -/
lemma processConnect_closed (hs : (b.connection k).state = .idle) (hc : connect.clean = false)
    (hw : connect.will = none) (h : (b.processConnect meanwhile k connect).1 = .closed) :
    ∃ client outcome bound unsent, b.BindsTo meanwhile k connect client outcome bound ∧
      b.processConnect meanwhile k connect =
        ((bound.setWill client.id k none).2.recordClient k client false).establish k client
          outcome ∧
      ((bound.connection k).establish (.connack outcome.resumed .accepted) outcome.replay).1 =
        .error unsent := by
  have hwill : b.willAllowed connect = true := by rw [willAllowed, hw]
  unfold processConnect at h ⊢
  rw [if_neg (by simpa using hs)] at h ⊢
  split at h
  · cases h
  next hv =>
  rw [if_neg hv]
  rw [hwill, if_neg nofun] at h ⊢
  unfold resolveId at h ⊢
  by_cases hn : connect.clientId = ""
  · simp [hn, hc, reject] at h
  rw [if_pos hn] at h ⊢
  dsimp only at h ⊢
  have hset : (b.setState k .idle .authenticating).1 = true := by rw [setState_of_state hs]
  rw [show b.setState k .idle .authenticating = (true, (b.setState k .idle .authenticating).2) from
    Prod.ext hset rfl] at h ⊢
  obtain ⟨client, outcome, bound, unsent, ha, hb, he, hu⟩ := authenticateAndBind_closed hc hw h
  refine ⟨client, outcome, bound, unsent, ⟨ha, ?_⟩, he, hu⟩
  rw [hc]
  exact hb

/-- A connection that opens neither loses nor doubles a publish.  It writes the CONNACK, and what is
to be replayed and what it holds as far as the transport takes them; the others come back as they
were.  If that befalls a CONNECT, its persistent session is left offline, and what came back waits
in its queue but for what is sent at most once. -/
theorem establish_conserves_publishes :
    (∀ (c : Connection) (connack : Packet) (replay : List Publish),
      (c.establish connack replay).2.held = [] ∧
      (c.state ≠ .binding → (c.establish connack replay).1 = .error (replay ++ c.held) ∧
        (c.establish connack replay).2.transport = c.transport) ∧
      (c.state = .binding → ∃ sent unsent, replay ++ c.held = sent ++ unsent ∧
        ((c.establish connack replay).2.transport.written.toList =
            c.transport.written.toList ++ connack :: (c.stamped sent).map .publish ∧
          ((c.establish connack replay).1 = .ok () ∧ unsent = [] ∧
              ¬ c.transport.FailsWithin (sent.length + 1) ∨
            (c.establish connack replay).1 = .error unsent ∧ unsent ≠ [] ∧
              c.transport.FailsAfter (sent.length + 1)) ∨
        (c.establish connack replay).2.transport.written = c.transport.written ∧
          (c.establish connack replay).1 = .error unsent ∧ sent = [] ∧
            c.transport.FailsAfter 0))) ∧
    ∀ (b : Broker) (meanwhile : Interlude) (k : ConnectionId) (connect : Connect),
      meanwhile.KeepsConnections → meanwhile.LocksSaved connect.clientId →
      connect.clean = false → connect.will = none → (b.connection k).state = .idle →
      (b.processConnect meanwhile k connect).1 = .closed →
      ∃ client outcome bound unsent session, b.BindsTo meanwhile k connect client outcome bound ∧
        ((bound.connection k).establish (.connack outcome.resumed .accepted) outcome.replay).1 =
          .error unsent ∧
        (b.processConnect meanwhile k connect).2.session? connect.clientId = some session ∧
        session.connection = none ∧ session.queue = Session.keepable unsent := by
  constructor
  · intro c connack replay
    refine ⟨c.held_establish connack replay, fun hs => ?_, fun hs =>
      Connection.establish_stamped hs connack replay⟩
    rw [Connection.establish_of_ne_binding hs]
    exact ⟨rfl, rfl⟩
  · intro b meanwhile k connect hm hl hc hw hs h
    obtain ⟨client, outcome, bound, unsent, hb, he, hu⟩ := processConnect_closed hs hc hw h
    rw [← hb.client_id] at hl ⊢
    obtain ⟨hsize, found, hf, hk, hp, hq⟩ := hb.owner hm hl hc hs
    obtain ⟨offered, ho⟩ : ∃ offered, offered = (bound.setWill client.id k none).2 := ⟨_, rfl⟩
    have hset : offered = bound.setSession client.id { found with will := none } := by
      rw [ho, setWill, boundSession?_eq_some.mpr ⟨hf, hk⟩]
    have hsession : offered.session? client.id = some { found with will := none } := by
      rw [hset, session?_setSession, if_pos rfl]
    rw [← bound.connection_setWill client.id k none k, ← ho] at hu
    refine ⟨client, outcome, bound, unsent,
      { found with will := none, queue := Session.keepable unsent, connection := none },
      hb, ?_, ?_, rfl, rfl⟩
    · rwa [← bound.connection_setWill client.id k none k, ← ho]
    · rw [he, ← ho]
      exact establish_unsent (by rwa [hset]) hsession hk hp rfl hq hu

/-- A client comes back for a queued message, and two more arrive while its session is saved.  The
transport takes the CONNACK and one of the three: what is left waits for the next time. -/
theorem establish_conserves_publishes_interrupted :
    let message (qos : QoS) (payload : UInt8) : Publish := ⟨"a", [payload], qos, false, false, none⟩
    let connect : Connect := ⟨"MQTT", 4, false, "c", none, none, none⟩
    let b := (lenient {} .empty).after [.accept, .accept, .connect 0 connect,
      .subscribe (.anonymous "c") 0 "a" .exactlyOnce, .event 0 .transportClosed,
      .publish (message .atLeastOnce 1), .fault 1 (.breaks (2 ≤ ·))]
    let meanwhile : Interlude := fun callout _ b =>
      if callout = .save then b.modifyConnection 1 fun c =>
        (c.deliver (message .atMostOnce 2)).2.deliver (message .exactlyOnce 3) |>.2
      else b
    let waiting : Connection :=
      { Connection.fresh with state := .binding, held := [message .atMostOnce 2] }
    (waiting.establish (.connack true .accepted) [message .atLeastOnce 1]).2.held = [] ∧
    (waiting.establish (.connack true .accepted) [message .atLeastOnce 1]).1 = .ok () ∧
    (waiting.establish (.connack true .accepted) [message .atLeastOnce 1]).2.transport.written.toList =
      [.connack true .accepted, .publish { message .atLeastOnce 1 with id := some 1 },
        .publish (message .atMostOnce 2)] ∧
    (waiting.close.establish (.connack true .accepted) [message .atLeastOnce 1]).1 =
      .error [message .atLeastOnce 1, message .atMostOnce 2] ∧
    meanwhile.KeepsConnections ∧ meanwhile.LocksSaved "c" ∧
    (b.processConnect meanwhile 1 connect).1 = .closed ∧
    ∃ session, (b.processConnect meanwhile 1 connect).2.session? "c" = some session ∧
      session.connection = none ∧ session.queue = [message .exactlyOnce 3] := by
  intro message connect b meanwhile waiting
  have hm : meanwhile.KeepsConnections := by
    intro callout call b
    dsimp only [meanwhile]
    split
    · exact (size_modifyConnection _).ge
    · exact le_rfl
  have hl : meanwhile.LocksSaved "c" := fun _ _ => rfl
  have hs : (b.connection 1).state = .idle := by decide +kernel
  have hclosed : (b.processConnect meanwhile 1 connect).1 = .closed := by decide +kernel
  have hq : ((b.processConnect meanwhile 1 connect).2.session? "c").map (·.queue) =
      some [message .exactlyOnce 3] := by decide +kernel
  obtain ⟨hconnections, hconnects⟩ := establish_conserves_publishes
  obtain ⟨hheld, -, hopens⟩ :=
    hconnections waiting (.connack true .accepted) [message .atLeastOnce 1]
  obtain ⟨-, hshut, -⟩ :=
    hconnections waiting.close (.connack true .accepted) [message .atLeastOnce 1]
  obtain ⟨client, outcome, bound, unsent, session, -, -, hf, hk, -⟩ :=
    hconnects b meanwhile 1 connect hm hl rfl rfl hs hclosed
  rw [hf] at hq
  have hworks : ∀ writes, ¬ waiting.transport.FailsWithin writes := by
    rintro writes ⟨n, -, h | h | h⟩ <;> cases h
  obtain ⟨sent, unsent, hp, ⟨hw, ⟨hr, rfl, -⟩ | ⟨-, -, hn⟩⟩ | ⟨-, -, -, hn⟩⟩ := hopens rfl
  · rw [List.append_nil] at hp
    rw [← hp] at hw
    exact ⟨hheld, hr, hw, (hshut nofun).1, hm, hl, hclosed, session, hf, hk, Option.some.inj hq⟩
  · exact absurd hn.2 (hworks _)
  · exact absurd hn.2 (hworks _)

end Broker
end MqttBroker
