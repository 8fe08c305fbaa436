import MqttBroker.Proofs.Broker.Mirror

/-!
Storage holds the persistent sessions as they are in memory, but for those whose latest write
failed, and a broker that is opened on it later finds them there.
-/
namespace MqttBroker

namespace Session

/-- What is to be stored of a session. -/
def durable (session : Session) : Option StoredSession :=
  if session.clean then none else some session.toStored

lemma restoredSubscriptions_toStored (session : Session) :
    restoredSubscriptions session.toStored = session.subscriptions := by
  have he : session.toStored.subscriptions.filterMap (fun entry =>
      (QoS.ofNat? entry.2).map fun qos => (entry.1, qos)) = session.subscriptions.toList := by
    rw [toStored, List.filterMap_map]
    conv_rhs => rw [← List.filterMap_some (l := session.subscriptions.toList)]
    refine List.filterMap_congr fun entry _ => ?_
    simp
  rw [restoredSubscriptions, he, Table.ofEntries_toList]

lemma SameGrants.durable {session next : Session} (h : session.SameGrants next) :
    next.durable = session.durable := by
  simp only [Session.durable, toStored, h.clean, h.subscriptions]

end Session

namespace Broker

/-- What is to be stored of a client's session. -/
def recordOf (b : Broker) (id : ClientId) : Option StoredSession :=
  (b.session? id).bind Session.durable

/-- Unless the latest write for a client failed, what is to be stored for it is stored. -/
def Recorded (b : Broker) : Prop := ∀ id, b.stored.Holds id (b.recordOf id)

variable {b b' : Broker} {id other : ClientId} {session next : Session}

section writes
variable {record : Option StoredSession}

lemma holds_saved {clean : Bool} (hc : next.clean = clean)
    (h : clean = true → b.stored.Holds id none) :
    (b.saved id clean next).Holds id next.durable := by
  unfold saved Session.durable
  rw [hc]
  cases clean with
  | true => exact h rfl
  | false => exact Repository.holds_save _ _ _

lemma holds_saved_of_ne (h : b.stored.Holds other record) (hn : id ≠ other) (clean : Bool)
    (session : Session) : (b.saved id clean session).Holds other record := by
  unfold saved
  split
  · exact h
  · exact h.save_of_ne hn _

lemma holds_cleared {due : Bool} (h : due = false → b.stored.Holds id none) :
    (b.cleared id due).Holds id none := by
  unfold cleared
  cases due with
  | true => exact Repository.holds_delete _ _
  | false => exact h rfl

lemma holds_cleared_of_ne (h : b.stored.Holds other record) (hn : id ≠ other) (due : Bool) :
    (b.cleared id due).Holds other record := by
  unfold cleared
  split
  · exact h.delete_of_ne hn
  · exact h

/-- Nothing is to be stored of a clean session, and it is deleted unless it was clean before. -/
lemma holds_filed {clean : Bool} (hc : next.clean = clean)
    (h : session.existed = true → session.clean = true → b.stored.Holds id none) :
    (b.filed id clean session next).Holds id next.durable := by
  unfold filed Session.durable
  rw [hc]
  cases clean with
  | true =>
    refine holds_cleared fun hd => ?_
    rw [Bool.not_eq_eq_eq_not, Bool.not_false, Bool.and_eq_true] at hd
    exact h hd.1 hd.2
  | false => exact Repository.holds_save _ _ _

lemma holds_filed_of_ne (h : b.stored.Holds other record) (hn : id ≠ other) (clean : Bool) :
    (b.filed id clean session next).Holds other record := by
  unfold filed
  split
  · exact holds_cleared_of_ne h hn _
  · exact h.save_of_ne hn _

end writes

namespace Recorded

/-- Of a client with a clean session nothing is stored. -/
lemma holds_none (h : b.Recorded) (hs : b.session? id = some session)
    (hc : session.clean = true) : b.stored.Holds id none := by
  have hr := h id
  rw [recordOf, hs, Option.bind_some, Session.durable, if_pos hc] at hr
  exact hr

/-- Only the sessions and the storage matter. -/
lemma congr (h : b.Recorded) (hs : ∀ id, b'.session? id = b.session? id)
    (hc : b.stored.Consulted b'.stored) : b'.Recorded := by
  intro id
  rw [recordOf, hs]
  exact hc.holds (h id)

/-- The session of one client is changed, and what is stored for it. -/
lemma change (h : b.Recorded) (id : ClientId)
    (hs : ∀ other, id ≠ other → b'.session? other = b.session? other)
    (ho : ∀ other record, id ≠ other → b.stored.Holds other record →
      b'.stored.Holds other record)
    (hi : b'.stored.Holds id (b'.recordOf id)) : b'.Recorded := by
  intro other
  by_cases he : id = other
  · subst he
    exact hi
  · rw [recordOf, hs other he]
    exact ho other _ he (h other)

lemma setSession (h : b.Recorded) (hs : b.session? id = some session)
    (hn : session.SameGrants next) : (b.setSession id next).Recorded := by
  refine h.change id (fun other ho => ?_) (fun _ _ _ hr => hr) ?_
  · rw [session?_setSession, if_neg ho]
  · have hr := h id
    rw [recordOf, hs, Option.bind_some, ← hn.durable] at hr
    rw [recordOf, session?_setSession, if_pos rfl]
    exact hr

/-- A session is changed and saved, or is clean and was so before. -/
lemma saved (h : b.Recorded) (hs : b.session? id = some session)
    (hc : next.clean = session.clean) (directory : Subscription.Directory) (calls : CallCounts) :
    (({ b with directory }.setSession id next).withBooks calls (b.saved id session.clean next)
      b.identified).Recorded := by
  refine h.change id (fun other ho => ?_) (fun other record ho hr => ?_) ?_
  · rw [session?_withBooks, session?_setSession, if_neg ho]
    rfl
  · exact holds_saved_of_ne hr ho _ _
  · rw [recordOf, session?_withBooks, session?_setSession, if_pos rfl]
    exact holds_saved hc (h.holds_none hs)

lemma teardown (h : b.Recorded) (hs : b.session? id = some session) :
    (b.teardown id session).Recorded := by
  have he := teardown_eq b id session
  refine h.change id (fun other ho => ?_) (fun other record ho hr => ?_) ?_
  · rw [session?_teardown, if_neg ho]
  · rw [he]
    exact holds_cleared_of_ne hr ho _
  · rw [recordOf, session?_teardown, if_pos rfl, he]
    exact holds_cleared fun hclean => h.holds_none hs (by simpa using hclean)

lemma rebind (h : b.Recorded) {clean : Bool} {client : ClientInfo}
    (hf : b.Found id clean client session) (k : ConnectionId) (lost : List String)
    (calls : CallCounts) :
    ((b.rebind id clean k client session lost).withBooks calls
      (b.filed id clean session ((session.trimmed clean client lost).rebound clean k))
      b.identified).Recorded := by
  refine h.change id (fun other ho => ?_) (fun other record ho hr => ?_) ?_
  · rw [session?_withBooks, session?_rebind, if_neg ho]
  · exact holds_filed_of_ne hr ho _
  · rw [recordOf, session?_withBooks, session?_rebind, if_pos rfl]
    refine holds_filed rfl fun hexisted hclean => ?_
    cases hf with
    | own hs => exact h.holds_none hs hclean
    | fresh => cases hexisted
    | restored => cases hclean

/-- Whenever sessions change, storage follows. -/
theorem upheld : Upheld Recorded where
  books h _ _ hs _ := h.congr (fun _ => rfl) hs
  connections h _ := h.congr (fun _ => rfl) (.refl _)
  retained h _ := h.congr (fun _ => rfl) (.refl _)
  note h _ _ := h.congr (fun _ => rfl) (.refl _)
  session h _ _ hs _ hn := h.setSession hs hn
  subscribed h _ _ hs _ _ _ calls := h.saved hs (by rfl) _ calls
  unsubscribed h _ _ hs _ calls := h.saved hs (by rfl) _ calls
  teardown h _ _ hs := h.teardown hs
  rebind h _ _ _ _ hf k lost calls := h.rebind hf k lost calls

theorem of_opened (h : b.Opened) (he : b.stored.records = ∅) : b.Recorded := by
  intro id _
  rw [he, recordOf, h.session?]
  simp

end Recorded

section restart
variable {client : ClientInfo}

/-- A subscription is checked again when its client connects, and may not be kept. -/
def forbids (b : Broker) (client : ClientInfo) (filter : String) : Bool :=
  b.config.admission.reauthorizeSubscriptionsOnConnect && !b.authorizer.canRead client filter

/-- A session that is kept over a bind loses the subscriptions that are not allowed any more. -/
lemma getElem?_eraseAll_lostFilters {clean : Bool} (hr : session.isReset clean = false)
    (filter : String) :
    (session.subscriptions.eraseAll (b.lostFilters clean client session))[filter]? =
      if b.forbids client filter then none else session.subscriptions[filter]? := by
  have hl : filter ∈ b.lostFilters clean client session ↔
      b.forbids client filter ∧ filter ∈ session.subscriptions := by
    rw [lostFilters, hr, if_neg nofun, forbids]
    cases b.config.admission.reauthorizeSubscriptionsOnConnect with
    | false => simp
    | true => simp [and_comm]
  rw [Table.getElem?_eraseAll]
  simp only [hl]
  by_cases hm : filter ∈ session.subscriptions
  · simp [hm]
  · have hn : session.subscriptions[filter]? = none := by simpa using hm
    simp [hn]

/-- Unless storage fails, a client that has no session in memory finds the one that is stored. -/
lemma bind_stored (hm : b.Mirrored) (hs : b.session? id = none)
    (ho : b.stored.obstacle (.load id) = none) (k : ConnectionId) (client : ClientInfo) :
    ∃ outcome later, b.bind .quiet id false k client = (.ok outcome, later) ∧
      ((b.stored.records[id]? = none ∧ outcome.wasPresent = false ∧ outcome.resumed = false) ∨
        ∃ record bound, b.stored.records[id]? = some record ∧
          outcome.wasPresent = true ∧ outcome.resumed = true ∧
          later.session? id = some bound ∧ bound.connection = some k ∧
          ∀ filter, later.directory.find? filter id = bound.subscriptions[filter]? ∧
            bound.subscriptions[filter]? = if b.forbids client filter then none
              else (Session.restoredSubscriptions record)[filter]?) := by
  have hb := Mirrored.upheld.bind hm id false k client
  obtain ⟨calls, stored, hc, ⟨error, hl, -⟩ | ⟨session, lost, hf, rfl, he⟩⟩ :=
    b.bind_cases id false k client
  · rw [ho] at hl
    cases hl
  rw [he] at hb
  refine ⟨_, _, he, ?_⟩
  cases hf with
  | own h =>
    rw [hs] at h
    cases h
  | fresh h hr => exact .inl ⟨hr.resolve_left nofun, rfl, rfl⟩
  | restored h _ record hr =>
    generalize hl : b.lostFilters false client (.restore record client) = lost at hb he ⊢
    have hbound : (b.rebind id false k client (.restore record client) lost).session? id =
        some (((Session.restore record client).trimmed false client lost).rebound false k) := by
      rw [session?_rebind, if_pos rfl]
    refine .inr ⟨record, _, hr, rfl, rfl, hbound, rfl, fun filter => ⟨?_, ?_⟩⟩
    · rw [hb.routed, held?, session?_withBooks, hbound, Option.bind_some]
    · rw [← hl]
      exact getElem?_eraseAll_lostFilters rfl filter

end restart

/-- However a run of an empty broker goes and whatever calls of its storage fail, for every client
whose latest write did not fail its persistent session is stored as it is in memory, and nothing
else.  A broker that is opened on that storage later resumes exactly these sessions: their
subscriptions are those from before, but for those that are not allowed any more, and it has them
in its directory. -/
theorem storage_mirrors_sessions (h : b.Opened) (he : b.stored.records = ∅)
    (operations : List Operation) :
    let final := b.after operations
    ∀ id, ¬ final.stored.Stale id →
      final.stored.records[id]? = final.recordOf id ∧
      ∀ (later : Broker) (k : ConnectionId) (client : ClientInfo), later.Opened →
        later.stored.records = final.stored.records → later.stored.obstacle (.load id) = none →
        ∃ outcome bound, later.bind .quiet id false k client = (.ok outcome, bound) ∧
          (((∀ session, final.session? id = some session → session.clean = true) ∧
              outcome.wasPresent = false ∧ outcome.resumed = false) ∨
            ∃ session restored, final.session? id = some session ∧ session.clean = false ∧
              outcome.wasPresent = true ∧ outcome.resumed = true ∧
              bound.session? id = some restored ∧ restored.connection = some k ∧
              ∀ filter, bound.directory.find? filter id = restored.subscriptions[filter]? ∧
                restored.subscriptions[filter]? = if later.forbids client filter then none
                  else session.subscriptions[filter]?) := by
  intro final id hw
  have hr : final.stored.records[id]? = final.recordOf id :=
    Recorded.upheld.after (Recorded.of_opened h he) operations id hw
  refine ⟨hr, fun later k client hl hs ho => ?_⟩
  obtain ⟨outcome, bound, hb, hf⟩ :=
    bind_stored (.of_opened hl) (hl.session? id) ho k client
  refine ⟨outcome, bound, hb, ?_⟩
  rw [hs, hr, recordOf] at hf
  obtain ⟨hn, hp, hq⟩ | ⟨record, restored, hn, hp, hq, hi, hk, hg⟩ := hf
  · refine .inl ⟨fun session hi => ?_, hp, hq⟩
    rw [hi, Option.bind_some, Session.durable] at hn
    by_contra hc
    rw [if_neg hc] at hn
    cases hn
  · obtain ⟨session, hfound, hd⟩ := Option.bind_eq_some_iff.mp hn
    obtain ⟨hc, rfl⟩ : session.clean = false ∧ session.toStored = record := by
      simpa [Session.durable] using hd
    rw [session.restoredSubscriptions_toStored] at hg
    exact .inr ⟨session, restored, hfound, hc, hp, hq, hi, hk, hg⟩

/-- The first write for a client fails and the next one works.  What comes back after a restart is
what the client had, but for a filter that it may not read any more. -/
theorem storage_mirrors_sessions_restart :
    let stored : Repository StoredSession :=
      { Repository.empty with failure := fun n _ => if n = 1 then some (.write "full") else none }
    let operations : List Operation := [.accept,
      .connect 0 ⟨"MQTT", 4, false, "c", none, none, none⟩,
      .event 0 (.packet (.subscribe 1 [("a/#", .atLeastOnce), ("b", .exactlyOnce)]))]
    let final := (lenient {} stored).after operations
    let strict (stored : Repository StoredSession) : Broker :=
      { lenient { admission := { reauthorizeSubscriptionsOnConnect := true } } stored with
        authorizer := { Authorizer.allowAll with canRead := fun _ filter => filter != "b" } }
    (lenient {} stored).Opened ∧ stored.records = ∅ ∧ (strict final.stored).Opened ∧
      ¬ final.stored.Stale "c" ∧
      final.stored.records["c"]? = some ⟨[("a/#", 1), ("b", 2)]⟩ ∧
      ∃ outcome bound,
        (strict final.stored).bind .quiet "c" false 0 (.anonymous "c") = (.ok outcome, bound) ∧
        outcome.resumed = true ∧ bound.directory.find? "a/#" "c" = some .atLeastOnce ∧
        bound.directory.find? "b" "c" = none := by
  intro stored operations final strict
  have hp : (lenient {} stored).Opened := opened_lenient {} stored
  have hp' : ∀ stored, (strict stored).Opened := fun stored => ⟨.empty, stored, _, _, rfl, rfl⟩
  have hk : ∀ stored, (strict stored).stored.records = stored.records := fun _ => rfl
  have hw : final.stored.lastWrite? "c" = some ⟨.save "c", none⟩ := by decide +kernel
  have hn : ¬ final.stored.Stale "c" := by
    rintro ⟨past, hl, hf⟩
    rw [hw] at hl
    cases hl
    exact hf rfl
  have ho : (strict final.stored).stored.obstacle (.load "c") = none := by decide +kernel
  have hfinal : (lenient {} stored).after operations = final := rfl
  obtain ⟨hr, hb⟩ := storage_mirrors_sessions hp rfl operations "c" hn
  -- the run is not to be evaluated again
  rw [hfinal] at hr hb
  have hs : (final.session? "c").map (fun session => (session.clean, session.subscriptions.toList)) =
      some (false, [("a/#", .atLeastOnce), ("b", .exactlyOnce)]) := by decide +kernel
  obtain ⟨session, hc, ht⟩ := Option.map_eq_some_iff.mp hs
  obtain ⟨hclean, ht⟩ := Prod.mk.inj ht
  obtain ⟨outcome, bound, he, hf⟩ := hb (strict final.stored) 0 (.anonymous "c") (hp' _) (hk _) ho
  obtain ⟨hall, -, -⟩ | ⟨found, restored, hfound, -, -, hresumed, -, -, hg⟩ := hf
  · rw [hall session hc] at hclean
    cases hclean
  obtain rfl : session = found := Option.some.inj (hc.symm.trans hfound)
  refine ⟨hp, rfl, hp' _, hn, ?_, outcome, bound, he, hresumed, ?_, ?_⟩
  · rw [hr, recordOf, hc, Option.bind_some, Session.durable, hclean, if_neg nofun,
      Session.toStored, ht]
    rfl
  · obtain ⟨hd, hv⟩ := hg "a/#"
    rw [hd, hv, if_neg (by decide +kernel), ← Std.ExtTreeMap.mem_toList_iff_getElem?_eq_some, ht]
    exact .head _
  · obtain ⟨hd, hv⟩ := hg "b"
    rw [hd, hv, if_pos (by decide +kernel)]

end Broker
end MqttBroker
