import MqttBroker.Proofs.Broker.Consistency
import MqttBroker.Proofs.Broker.Invariant
import MqttBroker.Proofs.Session.Queue

/-!
The topics that messages and wills are about: what a broker holds and has sent came from clients
that were allowed to publish it, or from the wills they brought.
-/
namespace MqttBroker

/-- What waits in a session are copies and a will about topics of the set. -/
structure Session.Carries (session : Session) (topics : String → Prop) : Prop where
  queued : ∀ publish ∈ session.queue, publish.IsCopy ∧ topics publish.topic
  will : ∀ will, session.will = some will → topics will.topic

lemma Session.Carries.enqueue {session : Session} {topics : String → Prop} {publish : Publish}
    (h : session.Carries topics) (hc : publish.IsCopy) (ht : topics publish.topic) (max : Nat) :
    (session.enqueue max publish).Carries topics := by
  refine ⟨fun message hm => ?_, h.will⟩
  have hm : message ∈ session.queue ++ [publish] := by
    rw [← session.enqueue_displacedBy max publish]
    exact List.mem_append_right _ hm
  rcases List.mem_append.mp hm with hm | hm
  · exact h.queued message hm
  · cases List.mem_singleton.mp hm
    exact ⟨hc, ht⟩

namespace Broker

/-- All that a broker holds and has sent is about topics of the set. -/
structure Carries (b : Broker) (topics : String → Prop) : Prop where
  written : ∀ k, ∀ publish ∈ (b.connection k).transport.publishes, topics publish.topic
  sessions : ∀ id session, b.session? id = some session → session.Carries topics
  retained : ∀ topic publish, b.retained.get? topic = some publish → topics topic

/-- The client that is admitted on a connection may only publish to topics of the set. -/
def Licenses (b : Broker) (k : ConnectionId) (topics : String → Prop) : Prop :=
  ∀ client topic, (b.connection k).client = some client → b.checkTopicName topic = .ok () →
    b.authorizer.canWrite client topic = true → topics topic

end Broker

/-- Whoever publishes by the operation, or brings a will by it, does so to topics of the set. -/
structure Operation.Respects (topics : String → Prop) (b : Broker) (operation : Operation) :
    Prop where
  driven : operation.IsDriven b
  publishes : ∀ k event, operation = .event k event → b.Licenses k topics
  wills : ∀ k connect will, operation.Presents k connect → connect.will = some will →
    b.checkTopicName will.topic = .ok () → topics will.topic

namespace Broker

variable {b b' : Broker} {k : ConnectionId} {id : ClientId} {topics : String → Prop}
  {publish : Publish}

section rules

lemma Licenses.acts (h : b.Licenses k topics) (ha : Acts k b b') : b'.Licenses k topics := by
  obtain ⟨hc, hr⟩ := ha.rules
  intro client topic hi ht hw
  rw [checkTopicName, hc] at ht
  rw [hr] at hw
  exact h client topic ((ha.kept k).client client hi) ht hw

end rules

namespace Carries

/-- Sessions and connections may change as long as all they carry is about topics of the set. -/
lemma change (h : b.Carries topics) (hr : b'.retained = b.retained)
    (hs : ∀ id session, b'.session? id = some session → session.Carries topics)
    (he : ∀ j, (b.connection j).EmittedAbout topics (b'.connection j)) : b'.Carries topics where
  written j publish hp := by
    obtain ⟨written, hw, ht⟩ := (he j).topics
    rw [hw] at hp
    exact (List.mem_append.mp hp).elim (h.written j publish) (ht publish)
  sessions := hs
  retained := hr ▸ h.retained

lemma connections (h : b.Carries topics) {change : Connection → Connection}
    (he : (b.connection k).EmittedAbout topics (change (b.connection k))) :
    (b.modifyConnection k change).Carries topics :=
  h.change rfl h.sessions (modifyConnection_rel .refl he)

lemma setSession (h : b.Carries topics) {session : Session} (hs : session.Carries topics) :
    (b.setSession id session).Carries topics := by
  refine h.change rfl (fun other next hn => ?_) fun _ => .refl _
  rw [session?_setSession] at hn
  split at hn
  · cases hn
    exact hs
  · exact h.sessions other next hn

section publishing

lemma retain (h : b.Carries topics) (ht : topics publish.topic) :
    (b.retain publish).Carries topics := by
  refine ⟨fun j => ?_, fun id session hs => ?_, fun topic message hm => ?_⟩
  · rw [connection_retain]
    exact h.written j
  · rw [session?_retain] at hs
    exact h.sessions id session hs
  · unfold Broker.retain at hm
    split at hm
    · unfold RetainedStore.get? RetainedStore.apply at hm
      split at hm
      · rw [RetainedStore.clear, Std.ExtTreeMap.getElem?_erase] at hm
        split at hm
        · cases hm
        · exact h.retained topic message hm
      · rw [RetainedStore.set, Std.ExtTreeMap.getElem?_insert] at hm
        split at hm
        next he => exact Std.LawfulEqCmp.eq_of_compare he ▸ ht
        · exact h.retained topic message hm
    · exact h.retained topic message hm

lemma route (h : b.Carries topics) (ht : topics publish.topic) (granted : QoS) :
    (b.route id (publish.copyFor granted)).2.Carries topics := by
  have hcopy : topics (publish.copyFor granted).topic := ht
  refine h.change (retained_route _) (fun other next hn => ?_) fun j =>
    route_rel _ .refl j fun _ _ _ => Connection.emitted_deliver hcopy _
  by_cases ho : id = other
  · subst ho
    obtain ⟨session, hs⟩ : ∃ session, b.session? id = some session := by
      by_contra hs
      rw [route_of_none _ (Option.eq_none_iff_forall_ne_some.mpr fun s he => hs ⟨s, he⟩)] at hn
      exact hs ⟨next, hn⟩
    have hc := h.sessions id session hs
    obtain ⟨-, he⟩ | ⟨-, -, hq, max, -, he⟩ := route_cases (publish.copyFor granted) hs <;>
      rw [he, session?_note] at hn
    · rw [session?_tryDeliver, hs] at hn
      cases hn
      exact hc
    · rw [session?_setSession, if_pos rfl] at hn
      cases hn
      exact hc.enqueue (Publish.isCopy_copyFor hq) ht max
  · rw [(route_of_ne ho _).1] at hn
    exact h.sessions other next hn

lemma fanOut (h : b.Carries topics) (ht : topics publish.topic)
    (targets : List (ClientId × QoS)) : (b.fanOut publish targets).2.Carries topics := by
  induction targets generalizing b with
  | nil => exact h
  | cons target rest ih =>
    exact ih (h.route ht target.2)

lemma published (h : b.Carries topics) (ht : topics publish.topic) :
    (b.publish publish).2.Carries topics :=
  (h.retain ht).fanOut ht _

end publishing

section acts

lemma chore (h : b.Carries topics) (hc : Chore k b b') : b'.Carries topics := by
  refine h.change hc.retained_eq (fun id session hs => ?_) fun j => hc.emitted j
  cases hc with
  | books | send | close | advance => exact h.sessions id session hs

lemma chores (h : b.Carries topics) (hc : Chores k b b') : b'.Carries topics := by
  induction hc with
  | refl => exact h
  | tail _ hc ih => exact ih.chore hc

/-- Who is shown a retained message is shown one that was held. -/
lemma of_shows (h : b.Carries topics) {client : ClientInfo} (hs : b.Shows client publish) :
    topics publish.topic := by
  obtain ⟨filter, message, qos, -, hm, -, rfl⟩ := hs
  obtain ⟨⟨topic, kept⟩, he, rfl⟩ := List.mem_map.mp hm
  have hk := Std.ExtTreeMap.mem_toList_iff_getElem?_eq_some.mp (List.mem_of_mem_filter he)
  change topics kept.topic
  rw [(b.retained.marked topic kept hk).topic]
  exact h.retained topic kept hk

/-- Subscriptions are no matter of topics. -/
lemma setSubscriptions (h : b.Carries topics) {session : Session}
    (hs : b.session? id = some session) (subscriptions : Table QoS) :
    (b.setSession id { session with subscriptions }).Carries topics :=
  h.setSession ⟨(h.sessions id session hs).queued, (h.sessions id session hs).will⟩

lemma errand (h : b.Carries topics) {client : ClientInfo} (hd : Errand k client b b') :
    b'.Carries topics := by
  cases hd with
  | answer hp => exact h.chore (.send hp.control)
  | deliver hs => exact h.connections (Connection.emitted_deliver (h.of_shows hs) _)
  | subscribe filter qos =>
    obtain ⟨calls, he | ⟨session, granted, hs, -, -, he⟩⟩ :=
      subscribe_cases filter b client k qos <;> rw [he]
    · exact ⟨h.written, h.sessions, h.retained⟩
    · have hn := h.setSubscriptions hs (session.subscriptions.insert filter granted)
      exact ⟨hn.written, hn.sessions, hn.retained⟩
  | unsubscribe filter =>
    obtain he | ⟨session, calls, hs, -, he⟩ := unsubscribe_cases filter b client.id k <;> rw [he]
    · exact h
    · have hn := h.setSubscriptions hs (session.subscriptions.erase filter)
      exact ⟨hn.written, hn.sessions, hn.retained⟩

lemma deed (h : b.Carries topics) {client : ClientInfo} (hd : Deed k client b b')
    (hl : ∀ topic, b.checkTopicName topic = .ok () → b.authorizer.canWrite client topic = true →
      topics topic) : b'.Carries topics := by
  cases hd with
  | errand hd => exact h.errand hd
  | publish ht hw => exact h.published (hl _ ht hw)

lemma takeWill (h : b.Carries topics) (id : ClientId) (k : ConnectionId) :
    (b.takeWill id k).2.Carries topics := by
  obtain he | ⟨session, hs, he⟩ := takeWill_cases b id k <;> rw [he]
  · exact h
  · exact h.setSession ⟨(h.sessions id session hs).queued, nofun⟩

/-- A will is published that waited in a session. -/
lemma executeWill (h : b.Carries topics) (id : ClientId) (k : ConnectionId) :
    ((b.takeWill id k).2.executeWill k (b.takeWill id k).1).Carries topics := by
  have ht := h.takeWill id k
  have hw : ∀ will, (b.takeWill id k).1 = some will → topics will.topic := by
    intro will hw
    unfold Broker.takeWill at hw
    split at hw
    · cases hw
    next session hs => exact (h.sessions id session (boundSession?_eq_some.mp hs).1).will will hw
  generalize b.takeWill id k = taken at ht hw
  obtain ⟨will, taken⟩ := taken
  cases will with
  | none => exact ht
  | some will =>
    have hf : (taken.fireWill will).2.Carries topics := by
      unfold fireWill
      split
      · exact ht
      · exact ht.published (hw will rfl)
    have hn : ((taken.fireWill will).2.modifyConnection k (·.noteFired will)).Carries topics :=
      hf.connections (Connection.emitted_of_eq rfl)
    exact hn

lemma teardown (h : b.Carries topics) (id : ClientId) (session : Session) :
    (b.teardown id session).Carries topics := by
  refine h.change ?_ (fun other next hn => ?_) fun j => ?_
  · rw [teardown_eq]
    unfold detach
    split <;> rfl
  · rw [session?_teardown] at hn
    split at hn
    · cases hn
    · exact h.sessions other next hn
  · rw [connection_teardown]
    exact .refl _

lemma unbind (h : b.Carries topics) (id : ClientId) (k : ConnectionId) (remove : Bool) :
    (b.unbind id k remove).2.Carries topics := by
  obtain ⟨-, he⟩ | ⟨session, hs, -, he⟩ := unbind_cases b id k remove <;> rw [he]
  · exact h
  · split
    · exact h.teardown id session
    · exact h.setSession ⟨(h.sessions id session hs).queued, (h.sessions id session hs).will⟩

/-- What letting go of a client keeps. -/
lemma part (h : b.Carries topics) (hp : Parting k b b') : b'.Carries topics := by
  cases hp with
  | close => exact h.chore .close
  | forget => exact h.connections (Connection.emitted_of_eq rfl)
  | bequeath id => exact h.executeWill id k
  | discard id => exact h.takeWill id k
  | unbind id => exact h.unbind id k _

lemma partings (h : b.Carries topics) (hp : Partings k b b') : b'.Carries topics := by
  induction hp with
  | refl => exact h
  | tail _ hp ih => exact ih.part hp

/-- What one act of an actor keeps. -/
theorem act (h : b.Carries topics) (ha : Act k b b') (hl : b.Licenses k topics) :
    b'.Carries topics := by
  cases ha with
  | deed hc hd => exact h.deed hd fun topic => hl _ topic hc
  | part hp => exact h.part hp

theorem acts (h : b.Carries topics) (ha : Acts k b b') (hl : b.Licenses k topics) :
    b'.Carries topics := by
  induction ha with
  | refl => exact h
  | tail hs ha ih => exact ih.act ha (hl.acts hs)

end acts

section runs
variable {client : ClientInfo} {clean : Bool} {will : Option Will} {sent unsent : List Publish}

/-- What a client finds in its session is carried, and what of it is replayed. -/
lemma joined (h : b.Carries topics) (hj : Joined b b' k client clean will sent unsent)
    (hw : ∀ left, will = some left → topics left.topic) : b'.Carries topics := by
  have hreplay : ∀ publish ∈ sent ++ unsent, publish.IsCopy ∧ topics publish.topic := by
    obtain ⟨session, hf, hq⟩ := hj.found
    intro publish hp
    rw [← hq] at hp
    split at hp
    · cases hp
    · obtain hs | ⟨-, -, -, hn⟩ := hf.own_or_new
      · exact (h.sessions client.id session hs).queued publish hp
      · rw [hn] at hp
        cases hp
  obtain ⟨bound, hb, -, -, -, hqueue⟩ := hj.admitted.session
  refine h.change hj.retained_eq (fun id session hs => ?_) fun j => ?_
  · by_cases hi : id = client.id
    · subst hi
      obtain rfl : session = bound := Option.some.inj (hs.symm.trans hb)
      refine ⟨fun publish hp => ?_, fun left hl => hw left ((hj.will_eq hs).symm.trans hl)⟩
      rw [hqueue] at hp
      split at hp
      · cases hp
      · exact hreplay publish (List.mem_append_right _ (List.mem_of_mem_filter hp))
    · rw [hj.admitted.sessions id hi] at hs
      exact h.sessions id session hs
  · by_cases hkj : k = j
    · subst hkj
      exact hj.emitted.mono fun publish hp => (hreplay publish hp).2
    · obtain he | he := hj.admitted.others_cases hkj <;> rw [he]
      · exact .refl _
      · exact Connection.emitted_of_eq rfl

/-- Nobody is admitted as yet, so nobody publishes but by a will. -/
theorem processConnect (h : b.Carries topics) (hc : b.Consistent) (k : ConnectionId)
    {connect : Connect} (hw : ∀ will, connect.will = some will →
      b.checkTopicName will.topic = .ok () → topics will.topic) :
    (b.processConnect .quiet k connect).2.Carries topics := by
  obtain hr | ⟨client, isGiven, sent, unsent, b', hs, ha, -, hj, ho⟩ :=
    b.admission_cases k connect (hc.regular k).held hc.clientId_of_idle
  · exact h.chores hr.chores
  · have hb : b'.Carries topics :=
      h.joined hj fun will hl => hw will hl (checkTopicName_of_willAllowed ha hl)
    exact hb.partings ho.served.partings

theorem handle (h : b.Carries topics) (hc : b.Consistent) (k : ConnectionId) {event : Event}
    (hl : b.Licenses k topics) (hw : ∀ connect will, event = .packet (.connect connect) →
      connect.will = some will → b.checkTopicName will.topic = .ok () → topics will.topic) :
    (b.handle .quiet k event).2.Carries topics := by
  obtain ha | ⟨connect, hp, -, he⟩ := b.handle_acts k event
  · exact h.acts ha hl
  · rw [he]
    exact h.processConnect hc k fun will => hw connect will hp

theorem expire (h : b.Carries topics) (id : ClientId) : (b.expire id).2.Carries topics :=
  expire_induction (P := fun b => b.Carries topics) h id (fun _ => h.chore .close)
    fun _ session h _ _ => h.teardown id session

theorem accept (h : b.Carries topics) : b.accept.2.Carries topics := by
  refine h.change rfl h.sessions fun j => ?_
  rw [connection_accept]
  split
  next hj =>
    refine Connection.emitted_of_eq ?_
    rw [connection_of_not_lt (by rw [hj]; exact lt_irrefl _)]
    rfl
  · exact .refl _

/-- What every operation keeps that is about topics of the set. -/
theorem perform (h : b.Carries topics) (hc : b.Consistent) {operation : Operation}
    (ho : operation.Respects topics b) : (b.perform operation).Carries topics := by
  cases operation with
  | accept => exact h.accept
  | connect k connect => exact h.processConnect hc k fun will => ho.wills k connect will (.inl rfl)
  | event k event =>
    exact h.handle hc k (ho.publishes k event rfl) fun connect will he =>
      ho.wills k connect will (.inr (congrArg _ he))
  | expire id => exact h.expire id
  | fault k fault =>
    have hn : (b.modifyConnection k fun c =>
        { c with transport := c.transport.suffer fault }).Carries topics :=
      h.connections (Connection.emitted_suffer fault _)
    exact hn
  | _ => exact ho.driven.elim

/-- What a whole run keeps. -/
theorem after (h : b.Carries topics) (hc : b.Consistent) {operations : List Operation}
    (ha : b.Allows (Operation.Respects topics) operations) :
    (b.after operations).Consistent ∧ (b.after operations).Carries topics :=
  after_induction (P := fun b => b.Consistent ∧ b.Carries topics)
    (fun _ _ ho ⟨hc, h⟩ => ⟨hc.perform ho.driven, h.perform hc ho⟩) ha ⟨hc, h⟩

lemma of_opened (h : b.Opened)
    (hr : ∀ topic publish, b.retained.get? topic = some publish → topics topic) :
    b.Carries topics where
  written k publish hp := by
    rw [h.connection] at hp
    cases hp
  sessions id session hs := by
    rw [h.session?] at hs
    cases hs
  retained := hr

end runs
end Carries

/-- In a run in which connections are driven by their actors, a topic stays silent to which no
client that is admitted may write and to which no will is addressed: nothing about it is written to
a transport, put in a queue or retained. -/
theorem unwritable_topics_stay_silent (h : b.Opened) {topic : String}
    (hr : b.retained.get? topic = none) {operations : List Operation}
    (ha : b.Allows (fun b operation => operation.IsDriven b) operations)
    (hclients : ∀ client, b.Admits operations client → b.authorizer.canWrite client topic = false)
    (hwills : ∀ operation ∈ operations, ∀ k connect will, operation.Presents k connect →
      connect.will = some will → will.topic ≠ topic) :
    let final := b.after operations
    (∀ k, ∀ publish ∈ (final.connection k).transport.publishes, publish.topic ≠ topic) ∧
      (∀ id session, final.session? id = some session →
        ∀ publish ∈ session.queue, publish.topic ≠ topic) ∧
      final.retained.get? topic = none := by
  intro final
  have hrespects : b.Allows (Operation.Respects (· ≠ topic)) operations := by
    refine allows_iff.mpr fun before operation later he => ?_
    have hrules := (upheld_rules b).after ⟨rfl, rfl⟩ before
    refine ⟨allows_iff.mp ha before operation later he, fun k event _ client other hi _ hw => ?_,
      fun k connect will hp hl _ => ?_⟩
    · rintro rfl
      rw [hrules.2, hclients client ⟨before, ⟨_, he.symm⟩, k, hi⟩] at hw
      cases hw
    · exact hwills operation (he ▸ List.mem_append_right _ List.mem_cons_self) k connect will hp hl
  have hstart : b.Carries (· ≠ topic) := by
    refine .of_opened h fun other publish hm => ?_
    rintro rfl
    rw [hr] at hm
    cases hm
  have hf : final.Carries (· ≠ topic) := (hstart.after (.of_opened h) hrespects).2
  refine ⟨hf.written, fun id session hs publish hp => ?_, ?_⟩
  · exact ((hf.sessions id session hs).queued publish hp).2
  exact Option.eq_none_iff_forall_ne_some.mpr fun publish hm => hf.retained topic publish hm rfl

/-- Nobody may write anything but below one topic.  What a client publishes elsewhere goes
nowhere, while its will goes where it may. -/
theorem unwritable_topics_stay_silent_elsewhere :
    let config : Config := { acl := { enabled := true, anonymous := ⟨["public/#"], ["#"]⟩ } }
    let start : Broker := { lenient config .empty with authorizer := Acl.authorizer config.acl }
    let will : Will := ⟨"public/will", [1], .atLeastOnce, true⟩
    let operations : List Operation := [.accept, .accept,
      .connect 0 ⟨"MQTT", 4, false, "r", none, none, none⟩,
      .event 0 (.packet (.subscribe 1 [("#", .atLeastOnce)])),
      .connect 1 ⟨"MQTT", 4, true, "w", some will, none, none⟩,
      .event 1 (.packet (.publish ⟨"secret", [2], .atLeastOnce, true, false, some 1⟩)),
      .event 1 .transportClosed]
    let final := start.after operations
    start.Opened ∧ start.retained.get? "secret" = none ∧
      start.Allows (fun b operation => operation.IsDriven b) operations ∧
      (∀ client, start.Admits operations client →
        start.authorizer.canWrite client "secret" = false) ∧
      (∀ operation ∈ operations, ∀ k connect will, operation.Presents k connect →
        connect.will = some will → will.topic ≠ "secret") ∧
      (∀ k, ∀ publish ∈ (final.connection k).transport.publishes, publish.topic ≠ "secret") ∧
      final.retained.get? "secret" = none ∧
      (final.connection 0).transport.publishes.map (·.topic) = ["public/will"] := by
  intro config start will operations final
  have hp : start.Opened := ⟨.empty, .empty, _, _, rfl, rfl⟩
  have hr : start.retained.get? "secret" = none := by decide +kernel
  have ha : start.Allows (fun b operation => operation.IsDriven b) operations :=
    ⟨trivial, trivial, trivial, nofun, trivial, nofun, nofun, trivial⟩
  have hclients : ∀ client, start.Admits operations client →
      start.authorizer.canWrite client "secret" = false := by
    rintro client -
    change Acl.permits (Acl.permissionsFor config.acl client).publish client "secret" = false
    unfold Acl.permissionsFor
    cases client.isAnonymous with
    | true => rfl
    | false => cases client.role <;> rfl
  have hwills : ∀ operation ∈ operations, ∀ k connect will, operation.Presents k connect →
      connect.will = some will → will.topic ≠ "secret" := by
    intro operation ho k connect left hp hl
    simp only [operations, Operation.Presents] at ho hp
    grind
  obtain ⟨hwritten, -, hretained⟩ := unwritable_topics_stay_silent hp hr ha hclients hwills
  exact ⟨hp, hr, ha, hclients, hwills, hwritten, hretained, by decide +kernel⟩

/-- A will is published without asking who may write to its topic: here nobody may write anything,
and still a retained message is left behind. -/
theorem will_reaches_unwritable_topic :
    let config : Config := { acl := { enabled := true } }
    let start : Broker := { lenient config .empty with authorizer := Acl.authorizer config.acl }
    let operations : List Operation := [.accept,
      .connect 0 ⟨"MQTT", 4, true, "c", some ⟨"secret", [1], .atMostOnce, true⟩, none, none⟩,
      .event 0 .transportClosed]
    start.Opened ∧ start.retained.isEmpty = true ∧
      start.Allows (fun b operation => operation.IsDriven b) operations ∧
      (∀ client topic, start.authorizer.canWrite client topic = false) ∧
      ((start.after operations).retained.get? "secret").isSome = true := by
  intro config start operations
  refine ⟨⟨.empty, .empty, _, _, rfl, rfl⟩, by decide +kernel, ⟨trivial, trivial, nofun, trivial⟩,
    fun client topic => ?_, by decide +kernel⟩
  change Acl.permits (Acl.permissionsFor config.acl client).publish client topic = false
  unfold Acl.permissionsFor
  cases client.isAnonymous with
  | true => rfl
  | false => cases client.role <;> rfl

end Broker
end MqttBroker
