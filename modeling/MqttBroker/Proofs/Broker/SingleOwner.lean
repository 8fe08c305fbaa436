import MqttBroker.Proofs.Broker.Ownership

/-!
Sessions and connections agree on who owns what, after every operation of a run in which
connections are driven by their actors.
-/
namespace MqttBroker.Broker

variable {b b' : Broker} {k : ConnectionId} {id : ClientId} {client : ClientInfo} {clean : Bool}
  {will : Option Will} {sent unsent : List Publish}

section admission

/-- Once a client is admitted, the connection that had its session is closed. -/
lemma Joined.others (hc : b.Consistent) (hj : Joined b b' k client clean will sent unsent)
    {j : ConnectionId} (hkj : k ≠ j) :
    (b'.connection j = b.connection j ∧ ∀ session, b.session? client.id = some session →
      session.connection ≠ some j) ∨
    (b'.connection j = (b.connection j).evict ∧ (b.connection j).clientId = some client.id) := by
  have ho := hj.admitted.others j hkj
  by_cases hb : ∃ session, b.session? client.id = some session ∧ session.connection = some j
  · obtain ⟨session, hs, hk⟩ := hb
    have hi := hc.bound client.id session j hs hk
    rw [boundSession?_eq_some.mpr ⟨hs, hk⟩, if_pos ⟨rfl, lt_size_of_clientId hi⟩] at ho
    exact .inr ⟨ho, hi⟩
  · have hn : b.boundSession? client.id j = none := by
      refine Option.eq_none_iff_forall_ne_some.mpr fun session hs => hb ⟨session, ?_⟩
      exact boundSession?_eq_some.mp hs
    rw [hn, if_neg (by simp)] at ho
    exact .inl ⟨ho, fun session hs hk => hb ⟨session, hs, hk⟩⟩

/-- A connection that nobody was admitted on has no session yet. -/
lemma Consistent.unbound_of_idle (hc : b.Consistent) (hs : (b.connection k).state = .idle)
    {session : Session} (hf : b.session? id = some session) : session.connection ≠ some k := by
  intro hk
  exact hc.ne_of_idle hs (hc.bound id session k hf hk) rfl

/-- A session that is bound once a client was admitted is that of the client, or it was bound to the
same connection before. -/
lemma Joined.bound_cases (hc : b.Consistent) (hs : (b.connection k).state = .idle)
    (hj : Joined b b' k client clean will sent unsent) {session : Session} {j : ConnectionId}
    (hf : b'.session? id = some session) (hb : session.connection = some j) :
    (id = client.id ∧ j = k) ∨ (id ≠ client.id ∧ k ≠ j ∧ b.session? id = some session) := by
  by_cases hi : id = client.id
  · subst hi
    obtain ⟨bound, hbound, -, hk, -⟩ := hj.admitted.session
    obtain rfl : session = bound := Option.some.inj (hf.symm.trans hbound)
    exact .inl ⟨rfl, Option.some.inj (hb.symm.trans hk)⟩
  · rw [hj.admitted.sessions id hi] at hf
    refine .inr ⟨hi, ?_, hf⟩
    rintro rfl
    exact hc.unbound_of_idle hs hf hb

/-- The session of the client that was admitted is bound to the connection. -/
lemma Joined.session_eq (hj : Joined b b' k client clean will sent unsent) {session : Session}
    (hf : b'.session? client.id = some session) :
    session.client = client ∧ session.connection = some k ∧ session.clean = clean ∧
      session.queue = if clean then [] else Session.keepable unsent := by
  obtain ⟨bound, hb, hbound⟩ := hj.admitted.session
  obtain rfl : session = bound := Option.some.inj (hf.symm.trans hb)
  exact hbound

/-- Nobody else is given a session by an admission. -/
lemma Joined.unbound (hc : b.Consistent) (hs : (b.connection k).state = .idle)
    (hj : Joined b b' k client clean will sent unsent) {j : ConnectionId} (hkj : k ≠ j)
    (hn : ∀ id session, id ≠ client.id → b.session? id = some session →
      session.connection ≠ some j) :
    ∀ id session, b'.session? id = some session → session.connection ≠ some j := by
  intro id session hf hb
  obtain ⟨-, rfl⟩ | ⟨hid, -, hold⟩ := hj.bound_cases hc hs hf hb
  · exact hkj rfl
  · exact hn id session hid hold hb

namespace Owned

/-- The end of an admission: the connection owns the session of its client from now on. -/
lemma joined (h : b.Owned none) (hc : b.Consistent) (hs : (b.connection k).state = .idle)
    (hj : Joined b b' k client clean will sent unsent) : b'.Owned none where
  established j id he hi := by
    by_cases hkj : k = j
    · subst hkj
      rw [hj.wrote.steady.clientId] at hi
      cases hi
      obtain ⟨bound, hb, -, hk, -⟩ := hj.admitted.session
      exact ⟨bound, hb, hk⟩
    · obtain ⟨ho, hno⟩ | ⟨ho, -⟩ := hj.others hc hkj <;> rw [ho] at he hi
      · obtain ⟨session, hf, hb⟩ := h.established j id he hi
        have hid : id ≠ client.id := by
          rintro rfl
          exact hno session hf hb
        exact ⟨session, (hj.admitted.sessions id hid).trans hf, hb⟩
      · cases he
  admitted id session j hf hb := by
    obtain ⟨rfl, rfl⟩ | ⟨-, hkj, hold⟩ := hj.bound_cases hc hs hf hb
    · obtain ⟨hclient, -, hclean, -⟩ := hj.session_eq hf
      rw [hj.wrote.steady.clean, hj.wrote.steady.sameClient, hclient, hclean]
      exact ⟨rfl, .inr rfl⟩
    · have hold' := h.admitted id session j hold hb
      obtain ⟨ho, -⟩ | ⟨ho, -⟩ := hj.others hc hkj <;> rw [ho]
      · exact hold'
      · exact hold'
  clean id session hf hclean := by
    by_cases hi : id = client.id
    · subst hi
      obtain ⟨-, hk, hc', hqueue⟩ := hj.session_eq hf
      rw [hk, hqueue, ← hc', if_pos hclean]
      exact ⟨nofun, rfl⟩
    · exact h.clean id session (hj.admitted.sessions id hi ▸ hf) hclean
  will id session hf hn := by
    by_cases hi : id = client.id
    · subst hi
      rw [(hj.session_eq hf).2.1] at hn
      cases hn
    · exact h.will id session (hj.admitted.sessions id hi ▸ hf) hn
  noticed j hn := by
    by_cases hkj : k = j
    · subst hkj
      -- who was told to go is closed, and so nobody is admitted on it
      have hp := h.noticed k (hj.wrote.steady.notice.symm.trans hn)
      rw [hp.closed] at hs
      cases hs
    · obtain ⟨ho, -⟩ | ⟨ho, hi⟩ := hj.others hc hkj
      · have hp := h.noticed j (ho ▸ hn)
        exact ⟨ho ▸ hp.closed, hj.unbound hc hs hkj fun id session _ => hp.unbound id session⟩
      · refine ⟨by rw [ho]; rfl, hj.unbound hc hs hkj fun id session hid hold hb => hid ?_⟩
        rw [hc.bound id session j hold hb] at hi
        exact Option.some.inj hi

/-- A CONNECT that is not accepted leaves its connection spent, unless that serves a client
already. -/
theorem processConnect (h : b.Owned none) (hc : b.Consistent) (k : ConnectionId)
    (connect : Connect) :
    (b.processConnect .quiet k connect).2.Owned none ∧
      ((b.connection k).client = none →
        (b.processConnect .quiet k connect).1.isAccepted = false →
        (b.processConnect .quiet k connect).2.Spent k) := by
  obtain hr | ⟨client, isGiven, sent, unsent, b', hs, -, -, hj, hd⟩ :=
    b.admission_cases k connect (hc.regular k).held hc.clientId_of_idle
  · refine ⟨h.services hr.services, fun hn _ => ⟨hr.closed, fun id session hs hk => ?_⟩⟩
    obtain ⟨old, hold, -, hb⟩ := hr.services.undisturbed.unbound.sessions id session hs
    have hl := (h.admitted id old k hold (hb k hk)).2.resolve_left nofun
    rw [hn] at hl
    cases hl
  · have ha : ∀ id, some client.id = some id → (b'.connection k).clientId = some id := by
      rintro id ⟨⟩
      exact hj.wrote.steady.clientId
    obtain ⟨ho, hp⟩ := (h.joined hc hs hj).served (hc.joined hs hj) ha hd.served.still
    exact ⟨ho, fun _ => hp⟩

/-- An actor that does not go on leaves its connection spent. -/
theorem handle (h : b.Owned none) (hc : b.Consistent) (k : ConnectionId) {event : Event}
    (he : event = .evicted → (b.connection k).evictionNotice = true) :
    (b.handle .quiet k event).2.Owned none ∧
      ((b.handle .quiet k event).1 = false → (b.handle .quiet k event).2.Spent k) := by
  by_cases hv : event = .evicted
  · subst hv
    exact ⟨h, fun _ => h.noticed k (he rfl)⟩
  cases hn : (b.connection k).client with
  | none =>
    obtain hv' | hh | ⟨connect, -, hh⟩ := handle_unadmitted hn event
    · exact absurd hv' hv
    · rw [hh]
      obtain ⟨ho, hp⟩ := h.connectionLost hc k
      exact ⟨ho, fun _ => hp⟩
    · obtain ⟨ho, hp⟩ := h.processConnect hc k connect
      rw [hh]
      exact ⟨ho, hp hn⟩
  | some client =>
    have hi : (b.connection k).clientId = some client.id := (hc.regular k).admitted client hn
    obtain ⟨-, hd⟩ | ⟨-, hh⟩ := handle_admitted hn hv
    · refine h.served hc (fun id ha => ?_) hd.services
      cases ha
      exact hi
    · rw [hh]
      obtain ⟨ho, hp⟩ := h.onDisconnect hc hi
      exact ⟨ho, fun _ => hp⟩

end Owned
end admission

namespace Owned

section run

theorem expire (h : b.Owned none) (id : ClientId) : (b.expire id).2.Owned none := by
  refine expire_induction (P := fun b => b.Owned none) h id (fun k => ?_) fun b session h hs hk => ?_
  · have hclose : Service k none b (b.closeConnection k) := .chore .close
    exact h.serve hclose
  · refine h.release hs hk (fun _ _ _ _ _ => nofun) (fun _ => connection_teardown session)
      (fun other ho => ?_) fun next hn => ?_
    · rw [session?_teardown, if_neg ho]
    · rw [session?_teardown, if_pos rfl] at hn
      cases hn

theorem fault (h : b.Owned none) (k : ConnectionId) (fault : Fault) :
    (b.perform (.fault k fault)).Owned none := by
  refine h.undisturbed (undisturbed_of_same (fun _ => rfl) rfl)
    (modifyConnection_rel .refl ?_)
  exact ⟨⟨rfl, rfl, fun _ => id, id, id⟩, rfl, id, rfl⟩

theorem accept (h : b.Owned none) (hc : b.Consistent) : b.accept.2.Owned none := by
  have hn : ∀ id, (b.connection b.connections.size).clientId ≠ some id := fun id hi =>
    lt_irrefl _ (lt_size_of_clientId hi)
  have hbound : ∀ id session k, b.session? id = some session → session.connection = some k →
      b.accept.2.connection k = b.connection k := by
    intro id session k hs hk
    rw [connection_accept, if_neg]
    rintro rfl
    exact hn id (hc.bound id session _ hs hk)
  refine
    { established := fun k id he hi => ?_
      admitted := fun id session k hs hk => ?_
      clean := h.clean
      will := h.will
      noticed := fun k hk => ?_ }
  · rw [connection_accept] at he hi
    split at he
    · cases he
    next hk =>
      rw [if_neg hk] at hi
      exact h.established k id he hi
  · rw [hbound id session k hs hk]
    exact h.admitted id session k hs hk
  · rw [connection_accept] at hk
    split at hk
    · cases hk
    next hne =>
      have hp := h.noticed k hk
      refine ⟨?_, hp.unbound⟩
      rw [connection_accept, if_neg hne]
      exact hp.closed

/-- What every operation of the actors keeps. -/
theorem perform (h : b.Owned none) (hc : b.Consistent) {operation : Operation}
    (ho : operation.IsDriven b) : (b.perform operation).Owned none := by
  cases operation with
  | accept => exact h.accept hc
  | connect k connect => exact (h.processConnect hc k connect).1
  | event k event => exact (h.handle hc k ho).1
  | expire id => exact h.expire id
  | fault k fault => exact h.fault k fault
  | _ => exact ho.elim

/-- What a whole run keeps. -/
theorem after (h : b.Owned none) (hc : b.Consistent) {operations : List Operation}
    (ha : b.Allows (fun b operation => operation.IsDriven b) operations) :
    (b.after operations).Consistent ∧ (b.after operations).Owned none :=
  after_induction (P := fun b => b.Consistent ∧ b.Owned none)
    (fun _ _ ho ⟨hc, h⟩ => ⟨hc.perform ho, h.perform hc ho⟩) ha ⟨hc, h⟩

theorem of_opened (h : b.Opened) : b.Owned none where
  established k id he := by
    rw [h.connection] at he
    cases he
  admitted id session k hs := by
    rw [h.session?] at hs
    cases hs
  clean id session hs := by
    rw [h.session?] at hs
    cases hs
  will id session hs := by
    rw [h.session?] at hs
    cases hs
  noticed k hn := by
    rw [h.connection] at hn
    cases hn

end run

/-- A clean session does not outlive its connection. -/
lemma session?_ended (h : b.Owned none) (hc : b.Consistent) {event : Event}
    (he : event = .evicted → (b.connection k).evictionNotice = true)
    (hf : (b.handle .quiet k event).1 = false) {session : Session}
    (hs : b.session? id = some session) (hclean : session.clean = true)
    (hk : session.connection = some k) : (b.handle .quiet k event).2.session? id = none := by
  obtain ⟨ho, hp⟩ := h.handle hc k he
  have hu : Unbound b (b.handle .quiet k event).2 := by
    obtain hm | ⟨connect, -, hn, -⟩ := b.handle_moves k event
    · exact hm.unbound
    · have hl := (h.admitted id session k hs hk).2.resolve_left nofun
      rw [hn] at hl
      cases hl
  refine Option.eq_none_iff_forall_ne_some.mpr fun next hn => ?_
  obtain ⟨old, hold, hc', hb⟩ := hu.sessions id next hn
  obtain rfl : session = old := Option.some.inj (hs.symm.trans hold)
  obtain ⟨j, hj⟩ := Option.ne_none_iff_exists'.mp (ho.clean id next hn (hc'.trans hclean)).1
  obtain rfl : k = j := Option.some.inj (hk.symm.trans (hb j hj))
  exact (hp hf).unbound id next hn hj

end Owned

/-- So every run of a broker that was just opened keeps owners. -/
lemma Opened.owned (h : b.Opened) {operations : List Operation}
    (ha : b.Allows (fun b operation => operation.IsDriven b) operations) :
    (b.after operations).Consistent ∧ (b.after operations).Owned none :=
  (Owned.of_opened h).after (.of_opened h) ha

/-- In a run in which connections are driven by their actors, every established connection is the
one that the session of its client is bound to, so a client has no two connections that are not
closed.  The session is that of the client the connection was admitted for, clean if that asked for
a clean one.  A clean session is bound and has nothing queued, and is removed when its connection
ends; a session that is not bound has no will. -/
theorem sessions_have_one_owner (h : b.Opened) {operations : List Operation}
    (ha : b.Allows (fun b operation => operation.IsDriven b) operations) :
    let final := b.after operations
    (∀ k id, (final.connection k).state = .established →
      (final.connection k).clientId = some id →
        ∃ session, final.session? id = some session ∧ session.connection = some k) ∧
    (∀ j k id, (final.connection j).state ≠ .closed → (final.connection k).state ≠ .closed →
      (final.connection j).clientId = some id → (final.connection k).clientId = some id → j = k) ∧
    (∀ id session k, final.session? id = some session → session.connection = some k →
      (final.connection k).clientId = some id ∧
        (final.connection k).client = some session.client ∧
        (final.connection k).clean = session.clean) ∧
    (∀ id session, final.session? id = some session → session.clean = true →
      ∃ k, session.connection = some k ∧ session.queue = [] ∧
        ∀ event, (event = .evicted → (final.connection k).evictionNotice = true) →
          (final.handle .quiet k event).1 = false →
            (final.handle .quiet k event).2.session? id = none) ∧
    ∀ id session, final.session? id = some session → session.connection = none →
      session.will = none := by
  intro final
  obtain ⟨hc, ho⟩ := h.owned ha
  have hbound : ∀ k id, (final.connection k).state ≠ .closed →
      (final.connection k).clientId = some id →
        ∃ session, final.session? id = some session ∧ session.connection = some k := by
    intro k id hn hi
    exact ho.established k id ((hc.begun hi).resolve_right hn) hi
  refine ⟨ho.established, fun j k id hj hk hij hik => ?_, fun id session k hs hk => ?_,
    fun id session hs hclean => ?_, ho.will⟩
  · obtain ⟨session, hs, hb⟩ := hbound j id hj hij
    obtain ⟨other, hs', hb'⟩ := hbound k id hk hik
    obtain rfl : session = other := Option.some.inj (hs.symm.trans hs')
    exact Option.some.inj (hb.symm.trans hb')
  · obtain ⟨hclean, hl⟩ := ho.admitted id session k hs hk
    exact ⟨hc.bound id session k hs hk, hl.resolve_left nofun, hclean⟩
  · obtain ⟨hn, hq⟩ := ho.clean id session hs hclean
    obtain ⟨k, hk⟩ := Option.ne_none_iff_exists'.mp hn
    exact ⟨k, hk, hq, fun event he hf => ho.session?_ended hc he hf hs hclean hk⟩

/-- A clean connection takes over from a persistent one of the same client, which is told. -/
theorem sessions_have_one_owner_takeover :
    let operations : List Operation := [.accept, .accept,
      .connect 0 ⟨"MQTT", 4, false, "c", some ⟨"w", [1], .atLeastOnce, false⟩, none, none⟩,
      .connect 1 ⟨"MQTT", 4, true, "c", none, none, none⟩, .event 0 .evicted]
    let final := (lenient {} .empty).after operations
    (lenient {} .empty).Opened ∧
      (lenient {} .empty).Allows (fun b operation => operation.IsDriven b) operations ∧
      (final.connection 0).clientId = (final.connection 1).clientId ∧
      (final.connection 0).state = .closed ∧
      (∃ session, final.session? "c" = some session ∧ session.connection = some 1) ∧
      (final.handle .quiet 1 .transportClosed).2.session? "c" = none := by
  intro operations final
  have hp : (lenient {} .empty).Opened := opened_lenient {} .empty
  have ha : (lenient {} .empty).Allows (fun b operation => operation.IsDriven b) operations :=
    ⟨trivial, trivial, trivial, trivial, fun _ => by decide +kernel, trivial⟩
  obtain ⟨hestablished, hsingle, -, hclean, -⟩ := sessions_have_one_owner hp ha
  have he : (final.connection 1).state = .established := by decide +kernel
  have hi : (final.connection 0).clientId = some "c" ∧ (final.connection 1).clientId = some "c" := by
    decide +kernel
  obtain ⟨session, hs, hk⟩ := hestablished 1 "c" he hi.2
  have hc : (final.session? "c").map (·.clean) = some true := by decide +kernel
  have hsc : session.clean = true := by
    rw [hs, Option.map_some] at hc
    exact Option.some.inj hc
  obtain ⟨k, hk', -, hend⟩ := hclean "c" session hs hsc
  obtain rfl : 1 = k := Option.some.inj (hk.symm.trans hk')
  refine ⟨hp, ha, hi.1.trans hi.2.symm, ?_, ⟨session, hs, hk⟩,
    hend .transportClosed nofun (by decide +kernel)⟩
  by_contra hn
  have hcontra := hsingle 0 1 "c" hn (by rw [he]; nofun) hi.1 hi.2
  cases hcontra

end MqttBroker.Broker
