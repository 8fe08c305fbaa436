import MqttBroker.Proofs.Broker.Delivery
import MqttBroker.Proofs.Broker.Overlap
import MqttBroker.Proofs.Connection.Holding

/-!
What becomes of the copies for a client whose admissions overlap: each is written to one of its
connections, in its queue, pushed out of that, in the hands of an actor, or forfeited.
-/
namespace MqttBroker

/-- The copies written to a connection that was bound to the session of a client. -/
def Connection.copiesFor (c : Connection) (id : ClientId) : List Publish :=
  if c.clientId = some id then c.transport.copies else []

namespace Stage

/-- The copies that are still to be written to a connection. -/
def pending (stage : Stage) (c : Connection) : List Publish :=
  (stage.inHand ++ c.held).filterMap Publish.copy?

/-- What holds of a connection at a stage of its admission to the session of a client: it has
copies in hand only if it was bound to that session, and holds some only if it is to be opened. -/
structure Fits (stage : Stage) (id : ClientId) (c : Connection) : Prop where
  admitted : ∀ info, c.client = some info → c.clientId = some info.id
  idle : c.state = .idle → c.clientId = none ∧ c.transport.copies = []
  ready : (∀ outcome, stage ≠ .bound outcome) →
    c.held = [] ∧ (c.state = .binding → c.clientId = none)
  served : stage ≠ .waiting → stage ≠ .done → c.clientId = some id ∧ c.clean = false
  fresh : ∀ publish ∈ stage.inHand ++ c.held, publish.IsFresh

variable {stage : Stage} {id : ClientId} {c d : Connection} {publish : Publish}

lemma Fits.rests (h : stage.Fits id c) (hr : c.Rests d) : stage.Fits id d where
  admitted info hi := by
    obtain hi | hi := hr.client info hi
    · exact hr.clientId.trans (h.admitted info hi)
    · exact hi
  idle hs := by
    rw [hr.clientId, hr.copies]
    refine h.idle (hr.state.elim (fun he => he.symm.trans hs) fun he => ?_)
    rw [he] at hs
    cases hs
  ready hk := by
    rw [hr.held, hr.clientId]
    obtain ⟨hh, hi⟩ := h.ready hk
    refine ⟨hh, fun hs => hi (hr.state.elim (fun he => he.symm.trans hs) fun he => ?_)⟩
    rw [he] at hs
    cases hs
  served hw hd := by
    obtain ⟨hi, hc⟩ := h.served hw hd
    exact ⟨hr.clientId.trans hi, hr.clean hc⟩
  fresh := by
    rw [hr.held]
    exact h.fresh

lemma copiesFor_rests (hr : c.Rests d) : d.copiesFor id = c.copiesFor id := by
  rw [Connection.copiesFor, hr.clientId, hr.copies, Connection.copiesFor]

lemma pending_rests (hr : c.Rests d) : stage.pending d = stage.pending c := by
  rw [pending, hr.held, pending]

/-- Who was bound to a session is not idle any more. -/
lemma Fits.wrote {copies : List Publish} {other : ClientId} (h : stage.Fits id c)
    (hi : c.clientId = some other) (hw : Connection.Wrote copies c d) : stage.Fits id d := by
  have hf := hw.frame
  generalize d.transport = transport at hf
  rw [hf]
  refine ⟨h.admitted, fun hs => ?_, h.ready, h.served, h.fresh⟩
  rw [(h.idle hs).1] at hi
  cases hi

/-- A copy that is delivered is written or held. -/
lemma Fits.deliver {other : ClientId} (h : stage.Fits id c) (hi : c.clientId = some other)
    (hp : publish.IsFresh) : stage.Fits id (c.deliver publish).2 ∧
      c.copiesFor id <+: (c.deliver publish).2.copiesFor id ∧
      ((c.deliver publish).2.copiesFor id ++ stage.pending (c.deliver publish).2).Perm
        (c.copiesFor id ++ stage.pending c ++
          if other = id ∧ (c.deliver publish).1 = .ok () then publish.copy?.toList else []) := by
  obtain ⟨hs, he⟩ | ⟨hs, ⟨ho, hw⟩ | ⟨ho, hw⟩⟩ := c.deliver_cases publish
  · -- a connection that holds publishes is to be opened, and was bound to the session
    obtain ⟨outcome, rfl⟩ : ∃ outcome, stage = .bound outcome := by
      by_contra hn
      rw [(h.ready fun outcome he => hn ⟨outcome, he⟩).2 hs] at hi
      cases hi
    obtain rfl : id = other := Option.some.inj ((h.served nofun nofun).1.symm.trans hi)
    rw [he]
    refine ⟨⟨h.admitted, fun hs' => ?_, fun hn => absurd rfl (hn outcome), h.served,
      fun message hm => ?_⟩, List.prefix_rfl, ?_⟩
    · rw [(h.idle hs').1] at hi
      cases hi
    · rw [← List.append_assoc, List.mem_append, List.mem_singleton] at hm
      exact hm.elim (h.fresh message) fun he => he ▸ hp
    · have hl : [publish].filterMap Publish.copy? = publish.copy?.toList := by
        cases hc : publish.copy? <;> simp [hc]
      refine .of_eq ?_
      rw [if_pos ⟨rfl, rfl⟩, List.append_assoc, pending, pending, ← List.append_assoc,
        List.filterMap_append, hl]
      rfl
  · have hk := hw.kept.clientId
    have hh : (c.deliver publish).2.held = c.held := by rw [hw.frame]
    refine ⟨h.wrote hi hw, ?_, ?_⟩
    · rw [Connection.copiesFor, Connection.copiesFor, hk, hw.copies]
      split
      · exact List.prefix_append _ _
      · exact List.prefix_rfl
    · rw [pending, hh, ← pending, Connection.copiesFor, Connection.copiesFor, hk, hw.copies, hi]
      simp only [Option.some.injEq, ho, and_true]
      split
      · rw [List.append_assoc, List.append_assoc]
        exact List.perm_append_comm.append_left _
      · simp
  · rw [if_neg fun hn => ho hn.2, List.append_nil, copiesFor_rests hw.rests,
      pending_rests hw.rests]
    exact ⟨h.rests hw.rests, List.prefix_rfl, .refl _⟩

/-- The next stage of a connection that was to be opened. -/
def opened : Except (List Publish) Unit → Stage
  | .ok () => .done
  | .error unsent => .failed unsent

/-- What was pending is written, or in the hands of the actor. -/
lemma Fits.establish {outcome : BindOutcome} (h : (bound outcome).Fits id c) {packet : Packet}
    (hp : packet.publish? = none) :
    let result := c.establish packet outcome.replay
    (opened result.1).Fits id result.2 ∧ result.2.clientId = c.clientId ∧
      c.copiesFor id <+: result.2.copiesFor id ∧
      (result.2.copiesFor id ++ (opened result.1).pending result.2).Perm
        (c.copiesFor id ++ (bound outcome).pending c) := by
  intro result
  obtain ⟨hi, hclean⟩ := h.served nofun nofun
  obtain ⟨sent, unsent, state, hu, hw, hb, hs, hr⟩ :=
    Connection.establish_cases hp c outcome.replay
  have hfresh : ∀ publish ∈ unsent, publish.IsFresh := fun publish hm =>
    h.fresh publish (hu ▸ List.mem_append_right sent hm)
  have hne : state ≠ .idle := by
    rintro rfl
    obtain hs | hs := hs
    · rw [(h.idle hs.symm).1] at hi
      cases hi
    · cases hs
  obtain ⟨hhand, hfail⟩ : (opened result.1).inHand = unsent ∧
      ∀ outcome, opened result.1 ≠ .bound outcome := by
    obtain ⟨he, rfl⟩ | he := hr
    · rw [show result.1 = .ok () from he]
      exact ⟨rfl, nofun⟩
    · rw [show result.1 = .error unsent from he]
      exact ⟨rfl, nofun⟩
  have hk : result.2.clientId = c.clientId := hw.kept.clientId
  have hc : result.2.copiesFor id = c.copiesFor id ++ sent.filterMap Publish.copy? := by
    rw [Connection.copiesFor, Connection.copiesFor, hk, if_pos hi, if_pos hi]
    exact hw.copies
  obtain ⟨transport, nextId, hf⟩ : ∃ transport nextId,
      result.2 = { c with state, held := [], transport, nextId } := ⟨_, _, hw.frame⟩
  refine ⟨?_, hk, hc ▸ List.prefix_append _ _, .of_eq ?_⟩
  · generalize opened result.1 = stage at hhand hfail
    rw [hf]
    refine ⟨h.admitted, fun hs' => absurd hs' hne, fun _ => ⟨rfl, fun hs' => absurd hs' hb⟩,
      fun _ _ => ⟨hi, hclean⟩, ?_⟩
    rw [hhand, List.append_nil]
    exact hfresh
  · have hh : result.2.held = [] := by rw [hf]
    rw [hc, pending, hhand, hh, List.append_nil, pending, List.append_assoc]
    change _ = _ ++ (outcome.replay ++ c.held).filterMap _
    rw [hu, List.filterMap_append]

/-- The session of a client is to be bound to a connection that asked for it. -/
lemma Fits.await (h : waiting.Fits id c) (hs : c.state = .idle) :
    waiting.Fits id { c with state := .binding } :=
  ⟨h.admitted, nofun, fun _ => ⟨(h.ready nofun).1, fun _ => (h.idle hs).1⟩,
    fun hw => absurd rfl hw, h.fresh⟩

/-- A connection that waited has nothing yet, and gets what was queued. -/
lemma Fits.enter (h : waiting.Fits id c) (hb : c.state = .binding) (ht : c.transport.copies = [])
    {client : ClientInfo} (hc : client.id = id) {outcome : BindOutcome}
    (hf : ∀ publish ∈ outcome.replay, publish.IsFresh)
    (hd : d = { c.setClientId client.id with client := some client, clean := false }) :
    (bound outcome).Fits id d ∧ d.clientId = some id ∧ c.copiesFor id = [] ∧
      (d.copiesFor id ++ (bound outcome).pending d).Perm
        (c.copiesFor id ++ waiting.pending c ++ outcome.replay.filterMap Publish.copy?) := by
  subst hc
  obtain ⟨hheld, hn⟩ := h.ready nofun
  have hd : d = { c with clientId := some client.id, client := some client, clean := false } := by
    rw [hd, Connection.setClientId, hn hb]
    rfl
  have hnone : c.copiesFor client.id = [] := by
    rw [Connection.copiesFor, hn hb]
    rfl
  subst hd
  refine ⟨⟨fun info hi => ?_, fun hi => ?_, fun hn => absurd rfl (hn outcome), fun _ _ => ⟨rfl, rfl⟩,
    fun publish hm => hf publish ?_⟩, rfl, hnone, .of_eq ?_⟩
  · rw [← Option.some.inj hi]
  · exact absurd (hb.symm.trans hi) (by simp)
  · rwa [hheld, List.append_nil] at hm
  · rw [hnone, Connection.copiesFor, if_pos rfl, ht, pending, pending, hheld, List.append_nil]
    rfl

/-- Nothing is left in hand once a connection was not opened. -/
lemma Fits.letGo (h : stage.Fits id c) (hb : ∀ outcome, stage ≠ .bound outcome) {next : Stage}
    (hn : next.inHand = []) (hs : next ≠ .waiting → next ≠ .done → stage ≠ .waiting ∧ stage ≠ .done) :
    next.Fits id c where
  admitted := h.admitted
  idle := h.idle
  ready _ := h.ready hb
  served hw hd := h.served (hs hw hd).1 (hs hw hd).2
  fresh publish hp := h.fresh publish (List.mem_append_right _ (by rwa [hn] at hp))

end Stage

/-- A step of the broker that hands over nothing and touches neither the queue of the client nor
what was noted of it. -/
structure Broker.Pauses (id : ClientId) (b b' : Broker) : Prop where
  size : b'.connections.size = b.connections.size
  connections : ∀ k, (b.connection k).Rests (b'.connection k)
  bound : ∀ other next k, b'.session? other = some next → next.connection = some k →
    ∃ session, b.session? other = some session ∧ session.connection = some k
  queue : b.LeavesQueue b' id
  history : b'.history id = b.history id

namespace Broker
variable {b b' : Broker} {id : ClientId} {k : ConnectionId} {session : Session}

section pauses

lemma pauses_of_same (hz : b'.connections.size = b.connections.size)
    (hk : ∀ k, (b.connection k).Rests (b'.connection k))
    (hs : ∀ other, b'.session? other = b.session? other) (hh : b'.history = b.history) :
    Pauses id b b' :=
  ⟨hz, hk, fun other next _ hn hj => ⟨next, hs other ▸ hn, hj⟩, leavesQueue_of_eq (hs id),
    congrFun hh id⟩

lemma Pauses.refl (id : ClientId) (b : Broker) : Pauses id b b :=
  pauses_of_same rfl (fun _ => .refl _) (fun _ => rfl) rfl

lemma pauses_modifyConnection {change : Connection → Connection}
    (h : (b.connection k).Rests (change (b.connection k))) :
    Pauses id b (b.modifyConnection k change) :=
  pauses_of_same (size_modifyConnection change) (modifyConnection_rel .refl h) (fun _ => rfl) rfl

lemma pauses_retain (b : Broker) (publish : Publish) : Pauses id b (b.retain publish) :=
  pauses_of_same (by rw [connections_retain])
    (fun k => by rw [connection_retain]; exact .refl _) (fun _ => session?_retain publish)
    (history_retain publish)

lemma pauses_setSession {other : ClientId} (hs : b.session? other = some session) {next : Session}
    (hn : session.Left next) : Pauses id b (b.setSession other next) where
  size := rfl
  connections _ := .refl _
  bound owner found k hf hk := by
    rw [session?_setSession] at hf
    split at hf
    next ho =>
      cases hf
      exact ⟨session, ho ▸ hs, hn.connection k hk⟩
    next => exact ⟨found, hf, hk⟩
  queue := leavesQueue_setSession hs next hn id
  history := rfl

lemma pauses_takeWill (b : Broker) (other : ClientId) (k : ConnectionId) :
    Pauses id b (b.takeWill other k).2 := by
  obtain he | ⟨session, hs, he⟩ := takeWill_cases b other k <;> rw [he]
  · exact .refl id b
  · exact pauses_setSession hs ⟨rfl, rfl, fun _ hk => hk⟩

lemma pauses_unbind (b : Broker) (other : ClientId) (k : ConnectionId) :
    Pauses id b (b.unbind other k false).2 := by
  obtain ⟨-, he⟩ | ⟨session, hs, -, he⟩ := unbind_cases b other k false <;> rw [he]
  · exact .refl id b
  · rw [if_neg nofun]
    exact pauses_setSession hs ⟨rfl, rfl, nofun⟩

lemma pauses_close (b : Broker) (k : ConnectionId) : Pauses id b (b.closeConnection k) :=
  pauses_modifyConnection (Connection.rests_close _)

end pauses
end Broker

namespace Admissions

/-- The copies that a connection has got or is to get. -/
def share (a : Admissions) (id : ClientId) (k : ConnectionId) : List Publish :=
  (a.broker.connection k).copiesFor id ++ (a.stage k).pending (a.broker.connection k)

/-- The copies that all connections have got or are to get. -/
def shares (a : Admissions) (id : ClientId) : List Publish :=
  (List.range a.broker.connections.size).flatMap (a.share id)

/-- Connections get hold of the copies that are handed to them, and some are taken from them before
they are written. -/
structure Shifts (id : ClientId) (taken handed : List Publish) (a a' : Admissions) : Prop where
  size : a'.broker.connections.size = a.broker.connections.size
  grown : ∀ k, (a.broker.connection k).copiesFor id <+: (a'.broker.connection k).copiesFor id
  shares : (a'.shares id ++ taken).Perm (a.shares id ++ handed)

/-- Copies only appear by being routed, and only disappear by being pushed out of the queue. -/
structure Accounts (id : ClientId) (a a' : Admissions) : Prop where
  size : a'.broker.connections.size = a.broker.connections.size
  grown : ∀ k, (a.broker.connection k).copiesFor id <+: (a'.broker.connection k).copiesFor id
  balanced : ∃ routed displaced,
    a'.broker.routedTo id = a.broker.routedTo id ++ routed ∧
      a'.broker.displacedFrom id = a.broker.displacedFrom id ++ displaced ∧
      (a'.shares id ++ a'.broker.queueOf id ++ a'.forfeited ++ displaced).Perm
        (a.shares id ++ a.broker.queueOf id ++ a.forfeited ++ routed)

/-- What holds in the midst of admissions to the session of a client. -/
structure Orderly (id : ClientId) (a : Admissions) : Prop where
  bound : ∀ other session k, a.broker.session? other = some session →
    session.connection = some k → (a.broker.connection k).clientId = some other
  persistent : ∀ session, a.broker.session? id = some session → session.clean = false
  queued : ∀ publish ∈ a.broker.queueOf id, publish.IsCopy
  fits : ∀ k, (a.stage k).Fits id (a.broker.connection k)

/-- Order is kept, and all copies are accounted for. -/
structure Conserves (id : ClientId) (a a' : Admissions) : Prop where
  orderly : Orderly id a'
  accounts : Accounts id a a'

variable {a a' a'' : Admissions} {id : ClientId} {k : ConnectionId} {b b' : Broker}
  {session : Session} {publish : Publish} {taken handed : List Publish}

section accounts

lemma Accounts.refl (id : ClientId) (a : Admissions) : Accounts id a a :=
  ⟨rfl, fun _ => List.prefix_rfl, [], [], by simp, by simp, .refl _⟩

lemma Accounts.trans (h : Accounts id a a') (h' : Accounts id a' a'') : Accounts id a a'' where
  size := h'.size.trans h.size
  grown k := (h.grown k).trans (h'.grown k)
  balanced := by
    obtain ⟨routed, displaced, hr, hd, hp⟩ := h.balanced
    obtain ⟨routed', displaced', hr', hd', hp'⟩ := h'.balanced
    refine ⟨routed ++ routed', displaced ++ displaced', by rw [hr', hr, List.append_assoc],
      by rw [hd', hd, List.append_assoc], List.perm_iff_count.mpr fun copy => ?_⟩
    have hc := hp.count_eq copy
    have hc' := hp'.count_eq copy
    simp only [List.count_append] at hc hc' ⊢
    omega

/-- What is taken from connections or routed is handed to them, queued, forfeited or displaced. -/
lemma Shifts.accounts (h : Shifts id taken handed a a') (routed displaced : List Publish)
    (hr : a'.broker.routedTo id = a.broker.routedTo id ++ routed)
    (hd : a'.broker.displacedFrom id = a.broker.displacedFrom id ++ displaced)
    (hp : (handed ++ a'.broker.queueOf id ++ a'.forfeited ++ displaced).Perm
      (taken ++ a.broker.queueOf id ++ a.forfeited ++ routed)) : Accounts id a a' where
  size := h.size
  grown := h.grown
  balanced := by
    refine ⟨routed, displaced, hr, hd, List.perm_iff_count.mpr fun copy => ?_⟩
    have hc := h.shares.count_eq copy
    have hc' := hp.count_eq copy
    simp only [List.count_append] at hc hc' ⊢
    omega

lemma Shifts.accounts_same (h : Shifts id [] [] a a')
    (hh : a'.broker.history id = a.broker.history id)
    (hq : a'.broker.queueOf id = a.broker.queueOf id) (hf : a'.forfeited = a.forfeited) :
    Accounts id a a' := by
  refine h.accounts [] [] ?_ ?_ ?_
  · rw [List.append_nil, Broker.routedTo, hh, Broker.routedTo]
  · rw [List.append_nil, Broker.displacedFrom, hh, Broker.displacedFrom]
  · rw [hq, hf]

/-- Lists that differ for one number alone differ by what they are for it. -/
lemma flatMap_swap {f g : ℕ → List Publish} {l : List ℕ} (hl : l.Nodup) (hk : k ∈ l)
    (h : ∀ j, k ≠ j → g j = f j) : (l.flatMap g ++ f k).Perm (l.flatMap f ++ g k) := by
  induction l with
  | nil => cases hk
  | cons j rest ih =>
    obtain ⟨hj, hrest⟩ := List.nodup_cons.mp hl
    refine List.perm_iff_count.mpr fun copy => ?_
    by_cases hkj : k = j
    · subst hkj
      have he : rest.flatMap g = rest.flatMap f :=
        List.flatMap_congr fun i hi => h i (by rintro rfl; exact hj hi)
      simp only [List.flatMap_cons, he, List.count_append]
      omega
    · have hc := (ih hrest (List.mem_of_ne_of_mem hkj hk)).count_eq copy
      simp only [List.flatMap_cons, h j hkj, List.count_append] at hc ⊢
      omega

lemma share_rests (hs : a'.stage k = a.stage k)
    (hr : (a.broker.connection k).Rests (a'.broker.connection k)) :
    a'.share id k = a.share id k := by
  rw [share, hs, Stage.copiesFor_rests hr, Stage.pending_rests hr, share]

/-- One connection is handed copies, or gives some away. -/
lemma shifts_of_connection (hz : a'.broker.connections.size = a.broker.connections.size)
    (hk : k < a.broker.connections.size)
    (ho : ∀ j, k ≠ j → a'.stage j = a.stage j ∧
      (a.broker.connection j).Rests (a'.broker.connection j))
    (hg : (a.broker.connection k).copiesFor id <+: (a'.broker.connection k).copiesFor id)
    (hp : (a'.share id k ++ taken).Perm (a.share id k ++ handed)) :
    Shifts id taken handed a a' where
  size := hz
  grown j := by
    by_cases hkj : k = j
    · exact hkj ▸ hg
    · rw [Stage.copiesFor_rests (ho j hkj).2]
  shares := by
    have hswap : ((List.range a.broker.connections.size).flatMap (a'.share id) ++
        a.share id k).Perm ((List.range a.broker.connections.size).flatMap (a.share id) ++
          a'.share id k) :=
      flatMap_swap List.nodup_range (List.mem_range.mpr hk) fun j hkj =>
        share_rests (ho j hkj).1 (ho j hkj).2
    rw [shares, shares, hz]
    refine List.perm_iff_count.mpr fun copy => ?_
    have hc := hswap.count_eq copy
    have hc' := hp.count_eq copy
    simp only [List.count_append] at hc hc' ⊢
    omega

end accounts

lemma Conserves.trans (h : Conserves id a a') (h' : Conserves id a' a'') : Conserves id a a'' :=
  ⟨h'.orderly, h.accounts.trans h'.accounts⟩

section pauses

lemma Orderly.pauses (h : Orderly id a) (hp : Broker.Pauses id a.broker b) :
    Orderly id { a with broker := b } where
  bound other next k hn hk := by
    obtain ⟨session, hs, hb⟩ := hp.bound other next k hn hk
    exact (hp.connections k).clientId.trans (h.bound other session k hs hb)
  persistent next hn := by
    obtain ⟨session, hs, hl⟩ := hp.queue.exists_left hn
    exact hl.clean.trans (h.persistent session hs)
  queued := by
    rw [hp.queue.queueOf_eq]
    exact h.queued
  fits k := (h.fits k).rests (hp.connections k)

/-- Copies stay where they are during a pause. -/
lemma Orderly.conserves (h : Orderly id a) (hp : Broker.Pauses id a.broker b) :
    Conserves id a { a with broker := b } := by
  have hs : ∀ k, ({ a with broker := b } : Admissions).share id k = a.share id k := fun k =>
    share_rests rfl (hp.connections k)
  have hshares : ({ a with broker := b } : Admissions).shares id = a.shares id := by
    rw [shares, shares, List.flatMap_congr fun k _ => hs k]
    exact congrArg (fun n => (List.range n).flatMap (a.share id)) hp.size
  have hshift : Shifts id [] [] a { a with broker := b } :=
    ⟨hp.size, fun k => by rw [Stage.copiesFor_rests (hp.connections k)], by rw [hshares]⟩
  exact ⟨h.pauses hp, hshift.accounts_same hp.history hp.queue.queueOf_eq rfl⟩

lemma Conserves.pauses (h : Conserves id a { a with broker := b }) (hp : Broker.Pauses id b b') :
    Conserves id a { a with broker := b' } :=
  h.trans (h.orderly.conserves hp)

end pauses

section connection
variable {stage : Stage}

/-- One connection changes, and with it the stage of its admission. -/
lemma Orderly.alter (h : Orderly id a) (hk : k < a.broker.connections.size)
    (hz : b.connections.size = a.broker.connections.size)
    (ho : ∀ j, k ≠ j → b.connection j = a.broker.connection j)
    (hs : ∀ other, b.session? other = a.broker.session? other)
    (hi : (b.connection k).clientId = (a.broker.connection k).clientId)
    (hf : stage.Fits id (b.connection k))
    (hg : (a.broker.connection k).copiesFor id <+: (b.connection k).copiesFor id)
    (hp : ((b.connection k).copiesFor id ++ stage.pending (b.connection k) ++ taken).Perm
      ((a.broker.connection k).copiesFor id ++ (a.stage k).pending (a.broker.connection k) ++
        handed)) :
    Orderly id (a.proceed k stage b) ∧ Shifts id taken handed a (a.proceed k stage b) := by
  have horderly : Orderly id (a.proceed k stage b) :=
    { bound := fun other session j hn hc => by
        have hb := h.bound other session j ((hs other).symm.trans hn) hc
        change (b.connection j).clientId = _
        by_cases hkj : k = j
        · subst hkj
          exact hi.trans hb
        · rwa [ho j hkj]
      persistent := fun session hn => h.persistent session ((hs id).symm.trans hn)
      queued := fun publish hm => h.queued publish (by rwa [Broker.queueOf, ← hs id])
      fits := fun j => by
        change ((a.proceed k stage b).stage j).Fits id (b.connection j)
        by_cases hkj : k = j
        · subst hkj
          rw [stage_proceed_self]
          exact hf
        · rw [a.stage_proceed_of_ne hkj, ho j hkj]
          exact h.fits j }
  refine ⟨horderly, shifts_of_connection hz hk
    (fun j hkj => ⟨a.stage_proceed_of_ne hkj, ?_⟩) hg ?_⟩
  · change (a.broker.connection j).Rests (b.connection j)
    rw [ho j hkj]
    exact .refl _
  · rw [share, stage_proceed_self]
    exact hp

lemma Orderly.modifyConnection (h : Orderly id a) (hk : k < a.broker.connections.size)
    {change : Connection → Connection} {d : Connection} (hd : change (a.broker.connection k) = d)
    (hi : d.clientId = (a.broker.connection k).clientId) (hf : stage.Fits id d)
    (hg : (a.broker.connection k).copiesFor id <+: d.copiesFor id)
    (hp : (d.copiesFor id ++ stage.pending d ++ taken).Perm
      ((a.broker.connection k).copiesFor id ++ (a.stage k).pending (a.broker.connection k) ++
        handed)) :
    Orderly id (a.proceed k stage (a.broker.modifyConnection k change)) ∧
      Shifts id taken handed a (a.proceed k stage (a.broker.modifyConnection k change)) := by
  have hself : (a.broker.modifyConnection k change).connection k = d := by
    rw [Broker.connection_modifyConnection _ hk, if_pos rfl, hd]
  refine h.alter hk (Broker.size_modifyConnection change)
    (fun j hkj => Broker.connection_modifyConnection_of_ne change hkj) (fun _ => rfl) ?_ ?_ ?_ ?_ <;>
    rw [hself]
  · exact hi
  · exact hf
  · exact hg
  · exact hp

/-- What was in hand is let go of. -/
lemma Orderly.letGo (h : Orderly id a) (hk : k < a.broker.connections.size)
    (hb : ∀ outcome, a.stage k ≠ .bound outcome) (hn : stage.inHand = [])
    (hs : stage ≠ .waiting → stage ≠ .done → a.stage k ≠ .waiting ∧ a.stage k ≠ .done) :
    Orderly id (a.proceed k stage a.broker) ∧
      Shifts id ((a.stage k).inHand.filterMap Publish.copy?) [] a (a.proceed k stage a.broker) := by
  refine h.alter hk rfl (fun _ _ => rfl) (fun _ => rfl) rfl ((h.fits k).letGo hb hn hs)
    List.prefix_rfl ?_
  rw [Stage.pending, Stage.pending, hn, List.nil_append, List.filterMap_append, List.append_nil,
    List.append_assoc]
  exact List.perm_append_comm.append_left _

/-- An admission ends with nothing left in hand. -/
lemma Conserves.finish (h : Conserves id a { a with broker := b })
    (hk : k < a.broker.connections.size) (hs : (a.stage k).inHand = [])
    (hb : ∀ outcome, a.stage k ≠ .bound outcome) : Conserves id a (a.proceed k .done b) := by
  obtain ⟨ho, hl⟩ : Orderly id (a.proceed k .done b) ∧
      Shifts id ((a.stage k).inHand.filterMap Publish.copy?) [] { a with broker := b }
        (a.proceed k .done b) :=
    h.orderly.letGo (hk.trans_eq h.accounts.size.symm) hb rfl fun _ hd => absurd rfl hd
  rw [hs] at hl
  exact ⟨ho, h.accounts.trans (hl.accounts_same rfl rfl rfl)⟩

end connection

section route

/-- What is routed is noted of its client alone. -/
lemma Orderly.note (h : Orderly id { a with broker := b }) (other : ClientId) (episode : Episode) :
    Orderly id { a with broker := b.note other episode } :=
  ⟨h.bound, h.persistent, h.queued, h.fits⟩

/-- A copy that is delivered, if it is one for the client, is handed to a connection of it. -/
lemma Orderly.tryDeliver (h : Orderly id a) {other : ClientId}
    (hs : a.broker.session? other = some session) (hp : publish.IsFresh) {delivered : Bool}
    (ht : a.broker.tryDeliver session publish = (delivered, b)) :
    Orderly id { a with broker := b } ∧
      Shifts id [] (if other = id ∧ delivered = true then publish.copy?.toList else []) a
        { a with broker := b } := by
  have hcases := Broker.tryDeliver_cases publish a.broker session
  rw [ht] at hcases
  obtain ⟨-, he⟩ | ⟨k, hk, rfl, hr⟩ := hcases
  · obtain ⟨rfl, rfl⟩ := Prod.mk.inj he
    rw [if_neg fun hn => Bool.false_ne_true hn.2]
    exact ⟨h, rfl, fun _ => List.prefix_rfl, .refl _⟩
  have hi := h.bound other session k hs hk
  obtain ⟨hfits, hgrown, hperm⟩ := (h.fits k).deliver hi hp
  have hr : delivered = true ↔ _ := hr
  simp only [← hr] at hperm
  rw [← proceed_same]
  refine h.modifyConnection (Broker.lt_size_of_clientId hi) rfl
    (Connection.steady_deliver _ publish).clientId hfits hgrown ?_
  rwa [List.append_nil]

/-- Only copies are queued for the client. -/
lemma Orderly.setQueue (h : Orderly id { a with broker := b }) {other : ClientId}
    (hs : b.session? other = some session) {queue : List Publish}
    (hq : other = id → ∀ copy ∈ queue, copy.IsCopy) :
    Orderly id { a with broker := b.setSession other { session with queue } } where
  bound owner found j hf hj := by
    change (b.setSession _ _).session? owner = some found at hf
    rw [Broker.session?_setSession] at hf
    split at hf
    next ho =>
      cases hf
      exact h.bound owner session j (ho ▸ hs) hj
    next => exact h.bound owner found j hf hj
  persistent found hf := by
    change (b.setSession _ _).session? id = some found at hf
    rw [Broker.session?_setSession] at hf
    split at hf
    next ho =>
      cases hf
      exact h.persistent session (ho ▸ hs)
    next => exact h.persistent found hf
  queued copy hm := by
    change copy ∈ (b.setSession _ _).queueOf id at hm
    rw [Broker.queueOf, Broker.session?_setSession] at hm
    split at hm
    next ho => exact hq ho copy hm
    next => exact h.queued copy hm
  fits := h.fits

lemma Orderly.enqueue (h : Orderly id { a with broker := b }) {other : ClientId}
    (hs : b.session? other = some session) (hc : publish.IsCopy) (max : Nat) :
    Orderly id { a with broker := b.setSession other (session.enqueue max publish) } := by
  refine h.setQueue hs fun ho copy hm => ?_
  subst ho
  have hm : copy ∈ session.queue ++ [publish] := by
    rw [← session.enqueue_displacedBy max publish]
    exact List.mem_append_right _ hm
  rcases List.mem_append.mp hm with hm | hm
  · exact h.queued copy (Broker.queueOf_of_session? hs ▸ hm)
  · exact List.mem_singleton.mp hm ▸ hc

/-- A copy for another client changes nothing for this one. -/
lemma Orderly.routeOther (h : Orderly id a) {other : ClientId} (ho : other ≠ id)
    {copy : Publish} (hcopy : copy.qos ≠ .atMostOnce → copy.IsCopy) (hfresh : copy.IsFresh) :
    Conserves id a { a with broker := (a.broker.route other copy).2 } := by
  obtain ⟨hsame, hhistory⟩ := Broker.route_of_ne (b := a.broker) ho copy
  suffices hs : Orderly id { a with broker := (a.broker.route other copy).2 } ∧
      Shifts id [] [] a { a with broker := (a.broker.route other copy).2 } from
    ⟨hs.1, hs.2.accounts_same hhistory (by rw [Broker.queueOf, hsame, Broker.queueOf]) rfl⟩
  cases hs : a.broker.session? other with
  | none =>
    rw [Broker.route_of_none _ hs]
    exact ⟨h, rfl, fun _ => List.prefix_rfl, .refl _⟩
  | some session =>
    have hcases := Broker.route_cases copy hs
    have hsession : (a.broker.tryDeliver session copy).2.session? other = a.broker.session? other :=
      Broker.session?_tryDeliver copy session
    rcases ht : a.broker.tryDeliver session copy with ⟨delivered, tried⟩
    obtain ⟨hord, hshift⟩ := h.tryDeliver hs hfresh ht
    rw [ht] at hcases hsession
    rw [if_neg fun hn => ho hn.1] at hshift
    obtain ⟨-, he⟩ | ⟨-, -, hq, max, -, he⟩ := hcases <;> rw [he]
    · exact ⟨hord.note other _, hshift.size, hshift.grown, hshift.shares⟩
    · exact ⟨(hord.enqueue (hsession.trans hs) (hcopy hq) max).note other _, hshift.size,
        hshift.grown, hshift.shares⟩

/-- What was handed to a connection of the client is noted. -/
lemma Orderly.noteHanded (h : Orderly id { a with broker := b }) {copy : Publish}
    (hfresh : copy.IsFresh) (hshift : Shifts id [] copy.copy?.toList a { a with broker := b })
    (hh : b.history id = a.broker.history id) (hq : b.queueOf id = a.broker.queueOf id) :
    Conserves id a { a with broker := b.note id (.routed copy none) } := by
  have hnoted : Shifts id [] copy.copy?.toList a
      { a with broker := b.note id (.routed copy none) } :=
    ⟨hshift.size, hshift.grown, hshift.shares⟩
  refine ⟨h.note id _, hnoted.accounts copy.copy?.toList [] ?_ ?_ ?_⟩
  · rw [Broker.routedTo_note, hfresh.copy?_eq, Broker.routedTo, hh, Broker.routedTo]
  · refine (Broker.displacedFrom_note _ _).trans ?_
    rw [Broker.displacedFrom, hh, Broker.displacedFrom]
    rfl
  · change (_ ++ b.queueOf id ++ _ ++ _).Perm _
    rw [hq, List.append_nil, List.nil_append, List.append_assoc]
    exact List.perm_append_comm

/-- What no connection took is queued and noted, with what the queue had no room for. -/
lemma Orderly.noteQueued (h : Orderly id { a with broker := b }) (hs : b.session? id = some session)
    {copy : Publish} (hc : copy.IsCopy) (hshift : Shifts id [] [] a { a with broker := b })
    (hh : b.history id = a.broker.history id) (hq : b.queueOf id = a.broker.queueOf id)
    (max : Nat) :
    Conserves id a { a with
      broker := (b.setSession id (session.enqueue max copy)).note id
        (.routed copy (session.displacedBy max copy)) } := by
  set queued := (b.setSession id (session.enqueue max copy)).note id
    (.routed copy (session.displacedBy max copy))
  have hnoted : Shifts id [] [] a { a with broker := queued } :=
    ⟨hshift.size, hshift.grown, hshift.shares⟩
  have hbefore : a.broker.queueOf id = session.queue :=
    hq.symm.trans (Broker.queueOf_of_session? hs)
  have hafter : queued.queueOf id = (session.enqueue max copy).queue :=
    Broker.queueOf_of_session? (by
      rw [Broker.session?_note, Broker.session?_setSession, if_pos rfl])
  refine ⟨(h.enqueue hs hc max).note id _,
    hnoted.accounts [copy] (session.displacedBy max copy).toList ?_ ?_ ?_⟩
  · refine (Broker.routedTo_note _ _).trans ?_
    rw [if_neg hc.qos, Broker.routedTo, Broker.routedTo, ← hh]
    rfl
  · refine (Broker.displacedFrom_note _ _).trans ?_
    rw [Broker.displacedFrom, Broker.displacedFrom, ← hh]
    rfl
  · change (_ ++ queued.queueOf id ++ _ ++ _).Perm _
    rw [hafter, hbefore]
    -- the queue and what it pushes out are together the old queue and the copy
    refine List.perm_iff_count.mpr fun message => ?_
    have hcount := congrArg (List.count message) (session.enqueue_displacedBy max copy)
    simp only [List.count_append] at hcount ⊢
    omega

/-- A copy for the client is handed over, or queued, or it is sent at most once and does not
count. -/
lemma Orderly.routeSelf (h : Orderly id a) {copy : Publish}
    (hcopy : copy.qos ≠ .atMostOnce → copy.IsCopy) (hfresh : copy.IsFresh) :
    Conserves id a { a with broker := (a.broker.route id copy).2 } := by
  cases hs : a.broker.session? id with
  | none =>
    rw [Broker.route_of_none _ hs]
    exact ⟨h, .refl id a⟩
  | some session =>
    have hcases := Broker.route_cases copy hs
    have hsession : (a.broker.tryDeliver session copy).2.session? id = a.broker.session? id :=
      Broker.session?_tryDeliver copy session
    have hhistory := congrFun (Broker.history_tryDeliver (b := a.broker) copy session) id
    rcases ht : a.broker.tryDeliver session copy with ⟨delivered, tried⟩
    obtain ⟨hord, hshift⟩ := h.tryDeliver hs hfresh ht
    rw [ht] at hcases hsession hhistory
    have hqueue : tried.queueOf id = a.broker.queueOf id := by
      rw [Broker.queueOf, hsession, Broker.queueOf]
    obtain ⟨hd, he⟩ | ⟨hd, -, hq, max, -, he⟩ := hcases <;> rw [he]
    · have hhanded : (if id = id ∧ delivered = true then copy.copy?.toList else []) =
          copy.copy?.toList := by
        rw [h.persistent session hs] at hd
        obtain hd | hd | hd := hd
        · exact if_pos ⟨rfl, hd⟩
        · cases hd
        · rw [hfresh.copy?_eq, if_pos hd]
          exact ite_self _
      rw [hhanded] at hshift
      exact hord.noteHanded hfresh hshift hhistory hqueue
    · obtain rfl : delivered = false := hd
      rw [if_neg fun hn => Bool.false_ne_true hn.2] at hshift
      exact hord.noteQueued (hsession.trans hs) (hcopy hq) hshift hhistory hqueue max

/-- What is routed is accounted for. -/
theorem Orderly.route (h : Orderly id a) (other : ClientId) (publish : Publish) (granted : QoS) :
    Conserves id a { a with broker := (a.broker.route other (publish.copyFor granted)).2 } := by
  by_cases ho : other = id
  · subst ho
    exact h.routeSelf Publish.isCopy_copyFor ⟨rfl, rfl⟩
  · exact h.routeOther ho Publish.isCopy_copyFor ⟨rfl, rfl⟩

lemma Orderly.fanOut (h : Orderly id a) (publish : Publish) (targets : List (ClientId × QoS)) :
    Conserves id a { a with broker := (a.broker.fanOut publish targets).2 } := by
  induction targets generalizing a with
  | nil => exact ⟨h, .refl id a⟩
  | cons target rest ih =>
    have hr := h.route target.1 publish target.2
    exact hr.trans (ih hr.orderly)

theorem Orderly.published (h : Orderly id a) (publish : Publish) :
    Conserves id a { a with broker := (a.broker.publish publish).2 } := by
  have hr := h.conserves (Broker.pauses_retain a.broker publish)
  exact hr.trans (hr.orderly.fanOut publish _)

lemma Orderly.executeWill (h : Orderly id a) (k : ConnectionId) (will : Option Will) :
    Conserves id a { a with broker := a.broker.executeWill k will } := by
  cases will with
  | none => exact ⟨h, .refl id a⟩
  | some will =>
    have hf : Conserves id a { a with broker := (a.broker.fireWill will).2 } := by
      unfold Broker.fireWill
      split
      · exact ⟨h, .refl id a⟩
      · exact h.published will.toPublish
    have hn : Broker.Pauses id (a.broker.fireWill will).2
        ((a.broker.fireWill will).2.modifyConnection k (·.noteFired will)) :=
      Broker.pauses_modifyConnection (Connection.rests_noteFired will _)
    exact hf.pauses hn

end route

end Admissions
end MqttBroker
