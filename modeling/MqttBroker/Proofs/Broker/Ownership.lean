import MqttBroker.Proofs.Broker.Consistency

/-!
Every session has one owner: the connection that its client was admitted on last, as long as that
connection lasts.  This holds throughout every run in which connections are driven by their actors.
-/
namespace MqttBroker.Broker

/-- A connection is at its end, and no session is bound to it. -/
structure Spent (b : Broker) (k : ConnectionId) : Prop where
  closed : (b.connection k).state = .closed
  unbound : ∀ id session, b.session? id = some session → session.connection ≠ some k

/-- Sessions and the connections they are bound to agree, but that the actor of one connection may
be taking its leave of a client. -/
structure Owned (b : Broker) (leaving : Option ConnectionId) : Prop where
  established : ∀ k id, (b.connection k).state = .established →
    (b.connection k).clientId = some id →
      ∃ session, b.session? id = some session ∧ session.connection = some k
  admitted : ∀ id session k, b.session? id = some session → session.connection = some k →
    (b.connection k).clean = session.clean ∧
      (leaving = some k ∨ (b.connection k).client = some session.client)
  clean : ∀ id session, b.session? id = some session → session.clean = true →
    session.connection ≠ none ∧ session.queue = []
  will : ∀ id session, b.session? id = some session → session.connection = none →
    session.will = none
  noticed : ∀ k, (b.connection k).evictionNotice = true → b.Spent k

/-- No session that is bound to a connection has a will. -/
def Willless (b : Broker) (k : ConnectionId) : Prop :=
  ∀ id session, b.session? id = some session → session.connection = some k → session.will = none

variable {b b' : Broker} {j k : ConnectionId} {id : ClientId} {actor : Option ClientId}
  {leaving : Option ConnectionId} {session next : Session} {client : ClientInfo}

section spent

lemma Spent.unbound_of (h : b.Spent k) (hu : Unbound b b')
    (hc : (b'.connection k).state = .closed) : b'.Spent k where
  closed := hc
  unbound id session hs hk := by
    obtain ⟨old, ho, -, hb⟩ := hu.sessions id session hs
    exact h.unbound id old ho (hb k hk)

/-- Whatever other actors do, and its own, a connection stays at its end. -/
lemma Spent.moves (h : b.Spent k) (hm : Moves j actor b b') : b'.Spent k :=
  h.unbound_of hm.unbound ((hm.kept k).closed h.closed)

end spent

namespace Owned

/-- Nobody is taking leave who is not bound. -/
lemma leave (h : b.Owned none) (leaving : Option ConnectionId) : b.Owned leaving where
  established := h.established
  admitted id session k hs hk := by
    obtain ⟨hc, hl⟩ := h.admitted id session k hs hk
    exact ⟨hc, .inr (hl.resolve_left nofun)⟩
  clean := h.clean
  will := h.will
  noticed := h.noticed

/-- While nothing is bound, let go or closed for another, owners stay owners. -/
lemma undisturbed (h : b.Owned leaving) (hu : Undisturbed b b')
    (hs : ∀ k, (b.connection k).Steady (b'.connection k)) : b'.Owned leaving where
  established k id he hi := by
    have hi' : (b.connection k).clientId = some id := (hs k).clientId.symm.trans hi
    obtain ⟨session, hf, hk⟩ := h.established k id ((hs k).established he) hi'
    obtain ⟨next, hn, ha⟩ := hu.exists_after hf
    exact ⟨next, hn, ha.connection.trans hk⟩
  admitted id next k hn hk := by
    obtain ⟨session, hf, ha⟩ := hu.exists_before hn
    obtain ⟨hc, hl⟩ := h.admitted id session k hf (ha.connection.symm.trans hk)
    refine ⟨(hs k).clean.trans (hc.trans ha.clean.symm), hl.imp_right fun hl => ?_⟩
    rw [(hs k).sameClient, hl, ha.client]
  clean id next hn hc := by
    obtain ⟨session, hf, ha⟩ := hu.exists_before hn
    have hc' : session.clean = true := ha.clean.symm.trans hc
    obtain ⟨hb, hq⟩ := h.clean id session hf hc'
    rw [ha.connection, ha.queue hc']
    exact ⟨hb, hq⟩
  will id next hn hk := by
    obtain ⟨session, hf, ha⟩ := hu.exists_before hn
    exact ha.will (h.will id session hf (ha.connection.symm.trans hk))
  noticed k hn := by
    have hp : b.Spent k := h.noticed k ((hs k).notice.symm.trans hn)
    exact hp.unbound_of hu.unbound ((hs k).closed hp.closed)

lemma serve (h : b.Owned leaving) (hs : Service k actor b b') : b'.Owned leaving :=
  h.undisturbed hs.undisturbed hs.steady

lemma services (h : b.Owned leaving) (hs : Services k actor b b') : b'.Owned leaving := by
  induction hs with
  | refl => exact h
  | tail _ hs ih => exact ih.serve hs

end Owned

section leaving

lemma Willless.undisturbed (h : b.Willless k) (hu : Undisturbed b b') : b'.Willless k := by
  intro id next hn hk
  obtain ⟨session, hs, ha⟩ := hu.exists_before hn
  exact ha.will (h id session hs (ha.connection.symm.trans hk))

/-- A connection has only one session that could have a will. -/
lemma willless_takeWill (hc : b.Consistent) (hi : (b.connection k).clientId = some id) :
    (b.takeWill id k).2.Willless k := by
  intro other next hn hk
  have ho : other = id := by
    obtain ⟨session, hs, ha⟩ := (undisturbed_takeWill b id k).exists_before hn
    have hb := hc.bound other session k hs (ha.connection.symm.trans hk)
    exact Option.some.inj (hb.symm.trans hi)
  subst ho
  unfold takeWill at hn
  split at hn
  next hb =>
    rw [boundSession?_eq_some.mpr ⟨hn, hk⟩] at hb
    cases hb
  next =>
    rw [session?_setSession, if_pos rfl] at hn
    cases hn
    rfl

/-- A closed connection whose will was taken is about to let go of the session of its client. -/
structure Leaving (b : Broker) (k : ConnectionId) (id : ClientId) : Prop where
  owned : b.Owned (some k)
  consistent : b.Consistent
  closed : (b.connection k).state = .closed
  clientId : (b.connection k).clientId = some id
  willless : b.Willless k

namespace Leaving

lemma services (h : b.Leaving k id) (hs : Services k none b b') : b'.Leaving k id where
  owned := h.owned.services hs
  consistent := h.consistent.moves hs.moves nofun
  closed := (hs.moves.kept k).closed h.closed
  clientId := (hs.moves.kept k).clientId.trans h.clientId
  willless := h.willless.undisturbed hs.undisturbed

lemma noteFired (h : b.Leaving k id) (will : Will) :
    (b.modifyConnection k (·.noteFired will)).Leaving k id where
  owned := h.owned.undisturbed (undisturbed_of_same (fun _ => rfl) rfl)
    (modifyConnection_rel .refl (Connection.steady_noteFired will _))
  consistent := h.consistent.move (.noteFired will : Move k none b _) nofun
  closed := ((Move.noteFired will : Move k none b _).kept k).closed h.closed
  clientId := ((Move.noteFired will : Move k none b _).kept k).clientId.trans h.clientId
  willless := h.willless

lemma executeWill (h : b.Leaving k id) (will : Option Will) :
    (b.executeWill k will).Leaving k id := by
  cases will with
  | none => exact h
  | some will => exact (h.services (fireWill_services b will)).noteFired will

/-- Nothing but the session of its client is bound to the connection. -/
lemma eq_of_bound (h : b.Leaving k id) {other : ClientId} (hs : b.session? other = some session)
    (hk : session.connection = some k) : other = id :=
  Option.some.inj ((h.consistent.bound other session k hs hk).symm.trans h.clientId)

end Leaving

/-- A session is removed, or a persistent one is bound to nothing any more, once the connection
that had it was closed. -/
lemma Owned.release (h : b.Owned leaving) (hs : b.session? id = some session)
    (hclosed : ∀ k, session.connection = some k → (b.connection k).state = .closed)
    (hl : ∀ other found k, b.session? other = some found → found.connection = some k →
      leaving = some k → id = other)
    (hc : ∀ k, b'.connection k = b.connection k)
    (ho : ∀ other, id ≠ other → b'.session? other = b.session? other)
    (hn : ∀ next, b'.session? id = some next →
      next.connection = none ∧ next.clean = false ∧ next.will = none) : b'.Owned none := by
  have hne : ∀ other found k, b'.session? other = some found → found.connection = some k →
      id ≠ other := by
    rintro other found k hf hk rfl
    rw [(hn found hf).1] at hk
    cases hk
  constructor
  case established =>
    intro k other he hi
    rw [hc] at he hi
    obtain ⟨found, hf, hk⟩ := h.established k other he hi
    by_cases hid : id = other
    · -- the session that is released was not bound to an open connection
      subst hid
      rw [hs] at hf
      cases hf
      rw [hclosed k hk] at he
      cases he
    · exact ⟨found, (ho other hid).trans hf, hk⟩
  case admitted =>
    intro other found k hf hk
    have hid := hne other found k hf hk
    rw [ho other hid] at hf
    obtain ⟨hclean, hleft⟩ := h.admitted other found k hf hk
    rw [hc]
    exact ⟨hclean, .inr (hleft.resolve_left fun he => hid (hl other found k hf hk he))⟩
  case clean =>
    intro other found hf hclean
    have hid : id ≠ other := by
      rintro rfl
      rw [(hn found hf).2.1] at hclean
      cases hclean
    rw [ho other hid] at hf
    exact h.clean other found hf hclean
  case will =>
    intro other found hf hk
    by_cases hid : id = other
    · subst hid
      exact (hn found hf).2.2
    · rw [ho other hid] at hf
      exact h.will other found hf hk
  case noticed =>
    intro k hnotice
    rw [hc] at hnotice
    have hp := h.noticed k hnotice
    refine ⟨(hc k).symm ▸ hp.closed, fun other found hf hk => ?_⟩
    rw [ho other (hne other found k hf hk)] at hf
    exact hp.unbound other found hf hk

/-- A connection that has lost the session of its client already is at its end. -/
lemma Leaving.spent (h : b.Leaving k id) (hb : b.boundSession? id k = none) : b.Spent k where
  closed := h.closed
  unbound other found hf hk := by
    rw [h.eq_of_bound hf hk] at hf
    rw [boundSession?_eq_some.mpr ⟨hf, hk⟩] at hb
    cases hb

/-- Nobody has to take leave once the connection is at its end. -/
lemma Owned.left (h : b.Owned (some k)) (hp : b.Spent k) : b.Owned none where
  established := h.established
  admitted other found j hf hj := by
    obtain ⟨hclean, hl⟩ := h.admitted other found j hf hj
    refine ⟨hclean, .inr (hl.resolve_left fun hj' => ?_)⟩
    cases hj'
    exact hp.unbound other found hf hj
  clean := h.clean
  will := h.will
  noticed := h.noticed

/-- A session that its connection lets go of is bound to nothing, and is kept only if it is
persistent. -/
lemma Leaving.released (h : b.Leaving k id) (hs : b.session? id = some session)
    (hk : session.connection = some k)
    (hn : (b.unbind id k (b.connection k).clean).2.session? id = some next) :
    next.connection = none ∧ next.clean = false ∧ next.will = none := by
  obtain ⟨hb, -⟩ | ⟨found, hf, -, he⟩ := unbind_cases b id k (b.connection k).clean
  · rw [boundSession?_eq_some.mpr ⟨hs, hk⟩] at hb
    cases hb
  obtain rfl : session = found := Option.some.inj (hs.symm.trans hf)
  rw [he] at hn
  split at hn
  · rw [session?_teardown, if_pos rfl] at hn
    cases hn
  next hr =>
    rw [session?_setSession, if_pos rfl] at hn
    cases hn
    rw [(h.owned.admitted id session k hs hk).1] at hr
    exact ⟨rfl, Bool.eq_false_of_not_eq_true hr, h.willless id session hs hk⟩

/-- The last move of an actor: the session of its client is removed or waits for the next
connection. -/
lemma Leaving.unbind (h : b.Leaving k id) :
    (b.unbind id k (b.connection k).clean).2.Owned none ∧
      (b.unbind id k (b.connection k).clean).2.Spent k := by
  have hu : Unbound b (b.unbind id k (b.connection k).clean).2 :=
    (Move.unbind id : Move k (some id) b _).unbound
  obtain ⟨hb, he⟩ | ⟨session, hs, hk, he⟩ := unbind_cases b id k (b.connection k).clean
  · rw [he]
    exact ⟨h.owned.left (h.spent hb), h.spent hb⟩
  have hn : ∀ next, (b.unbind id k (b.connection k).clean).2.session? id = some next →
      next.connection = none ∧ next.clean = false ∧ next.will = none :=
    fun next => h.released hs hk
  have ho : ∀ other, id ≠ other →
      (b.unbind id k (b.connection k).clean).2.session? other = b.session? other := by
    intro other ho
    rw [he]
    split
    · rw [session?_teardown, if_neg ho]
    · rw [session?_setSession, if_neg ho]
  have hc : ((b.unbind id k (b.connection k).clean).2.connection k).state = .closed := by
    rw [connection_unbind]
    exact h.closed
  refine ⟨h.owned.release hs ?_ ?_ (fun _ => connection_unbind _) ho hn, hc, ?_⟩
  · intro j hj
    rw [hk] at hj
    cases hj
    exact h.closed
  · rintro other found j hf hj ⟨⟩
    exact (h.eq_of_bound hf hj).symm
  · intro other found hf hj
    obtain ⟨old, hold, -, hb⟩ := hu.sessions other found hf
    cases h.eq_of_bound hold (hb k hj)
    rw [(hn found hf).1] at hj
    cases hj

end leaving

section ending

lemma Owned.takeWill (h : b.Owned leaving) (id : ClientId) (k : ConnectionId) :
    (b.takeWill id k).2.Owned leaving := by
  refine h.undisturbed (undisturbed_takeWill b id k) fun j => ?_
  rw [connection_takeWill]
  exact .refl _

/-- Whoever is admitted on a connection is forgotten before its session is let go. -/
lemma Owned.forget (h : b.Owned none) (k : ConnectionId) :
    (b.modifyConnection k fun c => { c with client := none }).Owned (some k) := by
  have hr : ∀ j, ∃ client, (b.modifyConnection k fun c => { c with client := none }).connection j =
      { b.connection j with client } :=
    modifyConnection_rel (P := fun c d => ∃ client, d = { c with client })
      (fun c => ⟨c.client, rfl⟩) ⟨none, rfl⟩
  refine
    { established := fun j id he hi => ?_
      admitted := fun id session j hs hj => ?_
      clean := h.clean
      will := h.will
      noticed := fun j hn => ?_ }
  · obtain ⟨client, hj⟩ := hr j
    rw [hj] at he hi
    exact h.established j id he hi
  · obtain ⟨hc, hl⟩ := h.admitted id session j hs hj
    by_cases hkj : k = j
    · obtain ⟨client, hj⟩ := hr j
      rw [hj]
      exact ⟨hc, .inl (congrArg some hkj)⟩
    · rw [connection_modifyConnection_of_ne _ hkj]
      exact ⟨hc, .inr (hl.resolve_left nofun)⟩
  · obtain ⟨client, hj⟩ := hr j
    rw [hj] at hn
    have hp := h.noticed j hn
    refine ⟨?_, hp.unbound⟩
    rw [hj]
    exact hp.closed

/-- A lost connection has let go of its session. -/
theorem Owned.connectionLost (h : b.Owned none) (hc : b.Consistent) (k : ConnectionId) :
    (b.connectionLost k).Owned none ∧ (b.connectionLost k).Spent k := by
  have hclose : Service k none b (b.closeConnection k) := .chore .close
  have ho : (b.closeConnection k).Owned none := h.serve hclose
  have hcons : (b.closeConnection k).Consistent := hc.close k
  have hclosed := b.state_closeConnection k
  unfold Broker.connectionLost
  generalize b.closeConnection k = closed at ho hcons hclosed
  dsimp only
  split
  next hn =>
    refine ⟨ho, hclosed, fun id session hs hk => ?_⟩
    have hl := (ho.admitted id session k hs hk).2.resolve_left nofun
    rw [hn] at hl
    cases hl
  next client hcl =>
    have hforget : Move k none closed (closed.modifyConnection k fun c =>
        { c with client := none }) := .forget
    have hi : (closed.connection k).clientId = some client.id := (hcons.regular k).admitted _ hcl
    have ho' := ho.forget k
    have hcons' := hcons.move hforget nofun
    have hi' := (hforget.kept k).clientId.trans hi
    have hclosed' := (hforget.kept k).closed hclosed
    generalize closed.modifyConnection k (fun c => { c with client := none }) = forgotten at *
    have htake : Move k (some client.id) forgotten (forgotten.takeWill client.id k).2 :=
      .takeWill client.id
    have hl : (forgotten.takeWill client.id k).2.Leaving k client.id := by
      refine ⟨ho'.takeWill client.id k, hcons'.move htake fun id he => ?_,
        (htake.kept k).closed hclosed', (htake.kept k).clientId.trans hi',
        willless_takeWill hcons' hi'⟩
      cases he
      exact hi'
    generalize forgotten.takeWill client.id k = taken at hl
    obtain ⟨will, taken⟩ := taken
    exact (hl.executeWill will).unbind

/-- So has one whose client has taken its leave. -/
theorem Owned.onDisconnect (h : b.Owned none) (hc : b.Consistent)
    (hi : (b.connection k).clientId = some client.id) :
    (b.onDisconnect client k).Owned none ∧ (b.onDisconnect client k).Spent k := by
  have htake : Move k (some client.id) b (b.takeWill client.id k).2 := .takeWill client.id
  have ht : (b.takeWill client.id k).2.Consistent := hc.move htake fun id he => by
    cases he
    exact hi
  have hclose : Service k none (b.takeWill client.id k).2
      ((b.takeWill client.id k).2.closeConnection k) := .chore .close
  have hl : ((b.takeWill client.id k).2.closeConnection k).Leaving k client.id :=
    ⟨((h.takeWill client.id k).serve hclose).leave (some k), ht.close k,
      state_closeConnection _ k,
      (hclose.steady k).clientId.trans ((htake.kept k).clientId.trans hi),
      (willless_takeWill hc hi).undisturbed hclose.undisturbed⟩
  exact hl.unbind

/-- Whatever was done for a client, if its actor does not go on its connection is spent. -/
theorem Owned.served {result : Bool × Broker} (h : b.Owned none) (hc : b.Consistent)
    (ha : ∀ id, actor = some id → (b.connection k).clientId = some id)
    (hh : Served k (Services k actor) b result) :
    result.2.Owned none ∧ (result.1 = false → result.2.Spent k) := by
  cases hh with
  | goesOn hs => exact ⟨h.services hs, nofun⟩
  | lost hs =>
    obtain ⟨ho, hp⟩ := (h.services hs).connectionLost (hc.moves hs.moves ha) k
    exact ⟨ho, fun _ => hp⟩

end ending

end MqttBroker.Broker
