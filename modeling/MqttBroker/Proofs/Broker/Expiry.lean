import MqttBroker.Proofs.Broker.Lasting

/-!
The end of a session.  Whatever is in memory of a session that expires is gone for good, and so is
what is stored of it.  What is stored of a client that has no session in memory is not reached.
-/
namespace MqttBroker.Broker
open Subscription

/-- What may become of a broker later on.  It is opened again at times, but not while a client has
a session. -/
inductive Aftermath (id : ClientId) (b : Broker) : Broker → Prop
  | start : Aftermath id b b
  | performed {m} (h : Aftermath id b m) (operation : Operation) :
    Aftermath id b (m.perform operation)
  | restarted {m later} (h : Aftermath id b m) (hn : m.session? id = none) (ho : later.Opened)
    (hs : later.stored = m.stored) : Aftermath id b later

variable {b b' m : Broker} {k : ConnectionId} {id : ClientId} {clean : Bool} {client : ClientInfo}

section aftermath

/-- What every operation keeps lasts, if it can be found again on what is stored. -/
lemma Aftermath.keeps {P : Broker → Prop} (h : Aftermath id b m) (u : Upheld P)
    (reopen : ∀ m later, P m → m.session? id = none → later.Opened → later.stored = m.stored →
      P later) (hb : P b) : P m := by
  induction h with
  | start => exact hb
  | performed _ operation ih => exact u.perform ih operation
  | restarted _ hn ho hs ih => exact reopen _ _ ih hn ho hs

lemma Aftermath.faithful (h : Aftermath id b m) (hb : b.Faithful) : m.Faithful :=
  h.keeps Faithful.upheld (fun _ _ hm _ ho hs => .of_opened ho (hs ▸ hm.reliable)) hb

lemma Aftermath.mirrored (h : Aftermath id b m) (hb : b.Mirrored) : m.Mirrored :=
  h.keeps Mirrored.upheld (fun _ _ _ _ ho _ => .of_opened ho) hb

end aftermath

section forgetting

/-- Of a client without a session nothing is stored. -/
structure Forgets (id : ClientId) (b : Broker) : Prop where
  faithful : b.Faithful
  unstored : b.session? id = none → b.stored.records[id]? = none

namespace Forgets

/-- Nothing is stored as long as there is a session, or nothing that concerns the client changes. -/
lemma of_same (h : Forgets id b) (hf : b'.Faithful)
    (hs : (∃ session, b'.session? id = some session) ∨
      b'.session? id = b.session? id ∧ b'.stored.records[id]? = b.stored.records[id]?) :
    Forgets id b' where
  faithful := hf
  unstored hn := by
    obtain ⟨session, hs⟩ | ⟨hs, hr⟩ := hs
    · rw [hs] at hn
      cases hn
    · rw [hr]
      exact h.unstored (hs ▸ hn)

/-- Some client has a session by now, and nothing else of what is stored is changed. -/
lemma of_session (h : Forgets id b) (hf : b'.Faithful) {other : ClientId} {next : Session}
    (hs : ∀ someone, b'.session? someone =
      if other = someone then some next else b.session? someone)
    (hr : other ≠ id → b'.stored.records[id]? = b.stored.records[id]?) : Forgets id b' := by
  refine h.of_same hf ?_
  by_cases ho : other = id
  · exact .inl ⟨next, by rw [hs, if_pos ho]⟩
  · exact .inr ⟨by rw [hs, if_neg ho], hr ho⟩

/-- What is stored of a session goes with it. -/
lemma teardown (h : Forgets id b) {other : ClientId} {session : Session}
    (hs : b.session? other = some session) : Forgets id (b.teardown other session) where
  faithful := h.faithful.teardown other session
  unstored hn := by
    have hk := h.faithful.kept?_teardown hs id
    rw [session?_teardown] at hn
    by_cases ho : other = id
    · rw [if_pos ho, kept?, Option.map_eq_none_iff] at hk
      exact hk
    · rw [if_neg ho] at hn
      rw [if_neg ho, kept?, kept?, h.unstored hn] at hk
      exact Option.map_eq_none_iff.mp hk

/-- Only a session in memory is ever stored. -/
theorem upheld (id : ClientId) : Upheld (Forgets id) where
  books h calls _ hs identified :=
    h.of_same (Faithful.upheld.books h.faithful calls hs identified)
      (.inr ⟨rfl, congrArg (·[id]?) hs.records⟩)
  connections h connections :=
    h.of_same (Faithful.upheld.connections h.faithful connections) (.inr ⟨rfl, rfl⟩)
  retained h retained := h.of_same (Faithful.upheld.retained h.faithful retained) (.inr ⟨rfl, rfl⟩)
  note h other episode :=
    h.of_same (Faithful.upheld.note h.faithful other episode) (.inr ⟨rfl, rfl⟩)
  session {b} h other _ hs next hn := h.of_session (Faithful.upheld.session h.faithful hs hn)
    (fun someone => session?_setSession b other someone next) fun _ => rfl
  subscribed h _ _ hs filter _ hg calls :=
    h.of_session (Faithful.upheld.subscribed h.faithful hs filter hg calls)
      (fun someone => session?_setSession _ _ someone _)
      fun ho => (getElem?_saved h.faithful.reliable _ id _ _).trans (if_neg fun hn => ho hn.2)
  unsubscribed h _ _ hs filter calls :=
    h.of_session (Faithful.upheld.unsubscribed h.faithful hs filter calls)
      (fun someone => session?_setSession _ _ someone _)
      fun ho => (getElem?_saved h.faithful.reliable _ id _ _).trans (if_neg fun hn => ho hn.2)
  teardown h _ _ hs := h.teardown hs
  rebind h _ _ _ _ hf k lost calls :=
    h.of_session (Faithful.upheld.rebind h.faithful hf k lost calls)
      (fun someone => session?_rebind lost someone)
      fun ho => (h.faithful.getElem?_filed hf rfl id).trans (if_neg ho)

end Forgets

lemma Aftermath.forgets (h : Aftermath id b m) (hb : Forgets id b) : Forgets id m :=
  h.keeps (Forgets.upheld id) (fun _ _ hm hn ho hs =>
    ⟨.of_opened ho (hs ▸ hm.faithful.reliable), fun _ => hs ▸ hm.unstored hn⟩) hb

end forgetting

section expiry

/-- If the bind is clean, or nothing is stored, the client gets a session that has nothing of an
earlier one, and so has what is stored of it. -/
lemma Faithful.bind_anew (h : b.Faithful) (hr : clean = true ∨ b.stored.records[id]? = none)
    (k : ConnectionId) (client : ClientInfo) : ∃ bound,
    b.bind .quiet id clean k client = (.ok ⟨(b.session? id).isSome, false, []⟩, bound) ∧
      bound.session? id = some ((Session.fresh clean client).rebound clean k) ∧
      bound.stored.records[id]? = ((Session.fresh clean client).rebound clean k).durable := by
  obtain ⟨calls, stored, hc, ⟨error, ho, -⟩ | ⟨session, lost, hf, hl, he⟩⟩ :=
    b.bind_cases id clean k client
  · cases (h.reliable _ _).symm.trans ho
  have hresumed : (session.existed && !session.isReset clean) = false := by
    rw [h.resumed_eq hf, kept?]
    obtain rfl | hr := hr
    · rfl
    · rw [hr]
      exact Bool.and_false _
  have hnew : session.existed = (b.session? id).isSome ∧
      (if session.isReset clean then [] else session.queue) = [] ∧
      (if session.isReset clean then none else session.will) = none := by
    cases hf with
    | own hs =>
      have he := h.existed id session hs
      have hreset : session.isReset clean = true := by simpa [he] using hresumed
      rw [he, hs, hreset]
      exact ⟨rfl, rfl, rfl⟩
    | fresh hs => exact ⟨by rw [hs]; rfl, rfl, rfl⟩
    | restored hs hclean record hn =>
      rw [hclean, hn] at hr
      exact absurd hr (by simp)
  obtain ⟨hpresent, hqueue, hwill⟩ := hnew
  have hsubscriptions : session.subscriptions.eraseAll lost = ∅ := by
    rw [hl, h.subscriptions_eq hf, kept?]
    obtain rfl | hr := hr
    · rfl
    · rw [hr]
      exact (congrArg _ (Turn.apply_bound_empty clean _)).trans (ite_self _)
  have hfresh : (session.trimmed clean client lost).rebound clean k =
      (Session.fresh clean client).rebound clean k := by
    simp only [Session.rebound, Session.trimmed, hsubscriptions, hwill]
    rfl
  rw [he, hresumed, hqueue, hpresent]
  refine ⟨_, rfl, ?_, ?_⟩
  · rw [session?_withBooks, session?_rebind, if_pos rfl, hfresh]
  · have hbooks := Faithful.upheld.books h b.calls hc b.identified
    refine (hbooks.getElem?_filed (hf.consulted b.calls hc b.identified) rfl id).trans ?_
    rw [if_pos rfl, hfresh]

/-- Whoever is unknown in memory, and is not to be restored, starts from nothing. -/
lemma Faithful.bind_unknown (h : b.Faithful) (hm : b.Mirrored) (hs : b.session? id = none)
    (hr : clean = true ∨ b.stored.records[id]? = none) (k : ConnectionId) (client : ClientInfo) :
    ∃ bound session, b.bind .quiet id clean k client = (.ok ⟨false, false, []⟩, bound) ∧
      bound.session? id = some session ∧ session.connection = some k ∧
      session.subscriptions = ∅ ∧ session.queue = [] ∧ session.will = none ∧
      ∀ filter, bound.directory.find? filter id = none := by
  have hb := Mirrored.upheld.bind hm id clean k client
  obtain ⟨bound, he, hbound, -⟩ := h.bind_anew hr k client
  rw [hs] at he
  rw [he] at hb
  refine ⟨bound, _, he, hbound, rfl, rfl, rfl, rfl, fun filter => ?_⟩
  rw [hb.routed, held?, hbound, Option.bind_some]
  exact Std.ExtTreeMap.getElem?_empty

/-- What is stored goes with a session in memory, and stays if there is none. -/
lemma Faithful.getElem?_expire (h : b.Faithful) (id : ClientId) :
    (b.expire id).2.stored.records[id]? =
      if (b.session? id).isSome then none else b.stored.records[id]? := by
  cases hs : b.session? id with
  | none =>
    obtain ⟨he, -⟩ | ⟨session, hn, -⟩ := expire_cases b id
    · rw [he]
      rfl
    · rw [hs] at hn
      cases hn
  | some session =>
    have hk := h.kept?_expire id id
    rw [expire_fst, hs, if_pos ⟨rfl, rfl⟩] at hk
    exact Option.map_eq_none_iff.mp hk

/-- Once a session expired on storage that works, there is no session of its client, the directory
does not have the client, and the connection that had the session is closed; and what was stored of
it is deleted, provided that the session was in memory.  So the client finds nothing when it is
bound again, at once or much later, even by a broker that was opened again on the same storage: no
session, no subscription, nothing queued.  Was the session in storage only, then this holds of a
clean bind. -/
theorem expired_sessions_are_gone (h : b.Opened) (hr : b.stored.Reliable)
    (operations : List Operation) (id : ClientId) :
    let before := b.after operations
    let expired := (before.expire id).2
    (before.expire id).1 = (before.session? id).isSome ∧ expired.session? id = none ∧
    (∀ filter, expired.directory.find? filter id = none) ∧
    (∀ topic, id ∉ expired.directory.matching topic) ∧
    (∀ session k, before.session? id = some session → session.connection = some k →
      (expired.connection k).state = .closed ∧ (expired.connection k).isOpen = false) ∧
    expired.stored.records[id]? =
      (if (before.session? id).isSome then none else before.stored.records[id]?) ∧
    ∀ later, Aftermath id expired later → later.session? id = none → ∀ clean k client,
      (before.session? id).isSome ∨ clean = true ∨ before.stored.records[id]? = none →
      ∃ bound session, later.bind .quiet id clean k client = (.ok ⟨false, false, []⟩, bound) ∧
        bound.session? id = some session ∧ session.connection = some k ∧
        session.subscriptions = ∅ ∧ session.queue = [] ∧ session.will = none ∧
        ∀ filter, bound.directory.find? filter id = none := by
  intro before expired
  have hbefore : before.Faithful := Faithful.upheld.after (.of_opened h hr) operations
  have hfaithful : expired.Faithful := Faithful.upheld.expire hbefore id
  have hmirrored : expired.Mirrored :=
    Mirrored.upheld.expire ((Mirrored.of_opened h).after operations) id
  have hn : expired.session? id = none := session?_expire before id
  have hd : ∀ filter, expired.directory.find? filter id = none := fun filter => by
    rw [hmirrored.routed, held?, hn, Option.bind_none]
  have hrecord : expired.stored.records[id]? = _ := hbefore.getElem?_expire id
  refine ⟨expire_fst before id, hn, hd, fun topic hmem => ?_, fun session k hs hk => ?_, hrecord,
    fun later hl hs clean k client hc => ?_⟩
  · obtain ⟨filter, hf, -⟩ := (Directory.mem_matching_iff hmirrored.wellFormed topic id).mp hmem
    rw [Directory.contains, hd] at hf
    cases hf
  · have hstate : (expired.connection k).state = .closed := state_expire hs hk
    exact ⟨hstate, by rw [Connection.isOpen, hstate]; rfl⟩
  · refine (hl.faithful hfaithful).bind_unknown (hl.mirrored hmirrored) hs ?_ k client
    have hforgets : expired.stored.records[id]? = none → later.stored.records[id]? = none :=
      fun he => (hl.forgets ⟨hfaithful, fun _ => he⟩).unstored hs
    obtain hc | hc | hc := hc
    · exact .inr (hforgets (by rw [hrecord, if_pos hc]))
    · exact .inl hc
    · refine .inr (hforgets ?_)
      rw [hrecord, hc, ite_self]

/-- A persistent session expires while it is connected; the broker is opened again, and the client
comes back. -/
theorem expired_sessions_are_gone_restart :
    let operations : List Operation := [.accept,
      .connect 0 ⟨"MQTT", 4, false, "c", none, none, none⟩,
      .event 0 (.packet (.subscribe 1 [("a", .atLeastOnce)]))]
    let before := (lenient {} .empty).after operations
    let later := (lenient {} (before.expire "c").2.stored).perform .accept
    (before.stored.records["c"]?).isSome = true ∧
      ((before.expire "c").2.connection 0).isOpen = false ∧
      ∃ bound session, later.bind .quiet "c" false 0 (.anonymous "c") =
          (.ok ⟨false, false, []⟩, bound) ∧
        bound.session? "c" = some session ∧ session.subscriptions = ∅ := by
  intro operations before later
  obtain ⟨-, hn, -, -, hclosed, -, hbind⟩ := expired_sessions_are_gone (opened_lenient {} .empty)
    (fun _ _ => rfl) operations "c"
  have hl : Aftermath "c" (before.expire "c").2 later :=
    (Aftermath.start.restarted hn (opened_lenient {} _) rfl).performed .accept
  have hsome : (before.session? "c").map (·.connection) = some (some 0) := by decide +kernel
  obtain ⟨session, hs, hk⟩ := Option.map_eq_some_iff.mp hsome
  obtain ⟨bound, session', he, hs', -, hempty, -⟩ :=
    hbind later hl (by decide +kernel) false 0 (.anonymous "c") (.inl (by decide +kernel))
  exact ⟨by decide +kernel, (hclosed session 0 hs hk).2, bound, session', he, hs', hempty⟩

/-- A session that is in storage only does not expire: its record stays, and the client gets its
subscriptions back. -/
theorem expired_session_comes_back :
    let b := lenient {} (.ofRecords (Table.ofEntries [("c", ⟨[("a", 1)]⟩)]))
    let expired := (b.expire "c").2
    let (result, bound) := (expired.perform .accept).bind .quiet "c" false 0 (.anonymous "c")
    b.Opened ∧ b.stored.Reliable ∧ (b.expire "c").1 = false ∧
      expired.stored.records["c"]? = some ⟨[("a", 1)]⟩ ∧
      (result.map fun outcome => (outcome.wasPresent, outcome.resumed)).toOption =
        some (true, true) ∧
      (bound.session? "c").map (·.subscriptions.toList) = some [("a", .atLeastOnce)] ∧
      bound.directory.find? "a" "c" = some .atLeastOnce := by
  refine ⟨opened_lenient {} _, fun _ _ => rfl, ?_⟩
  decide +kernel

end expiry
end MqttBroker.Broker
