import MqttBroker.Proofs.Connection.Writing
import MqttBroker.Session.Basic

/-!
What a connection holds while its session is being bound to it, and what becomes of it when the
connection opens or fails to.
-/
namespace MqttBroker

/-- A message as it leaves its publisher: it gets its packet identifier when it is written. -/
structure Publish.IsFresh (publish : Publish) : Prop where
  retain : publish.retain = false
  id : publish.id = none

namespace Publish
variable {publish : Publish}

lemma IsCopy.isFresh (h : publish.IsCopy) : publish.IsFresh := ⟨h.retain, h.id⟩

lemma IsFresh.copy?_eq (h : publish.IsFresh) :
    publish.copy? = if publish.qos = .atMostOnce then none else some publish := by
  split
  next hq => exact if_pos (.inr hq)
  next hq => exact IsCopy.copy?_eq ⟨hq, h.retain, h.id⟩

end Publish

namespace Session
variable {publishes : List Publish}

lemma isCopy_of_mem_keepable (h : ∀ publish ∈ publishes, publish.IsFresh) {publish : Publish}
    (hm : publish ∈ keepable publishes) : publish.IsCopy := by
  obtain ⟨hm, hq⟩ := List.mem_filter.mp hm
  exact ⟨by simpa using hq, (h publish hm).retain, (h publish hm).id⟩

/-- What is kept for later are the copies that count. -/
lemma filterMap_copy?_eq_keepable (h : ∀ publish ∈ publishes, publish.IsFresh) :
    publishes.filterMap Publish.copy? = keepable publishes := by
  induction publishes with
  | nil => rfl
  | cons publish rest ih =>
    rw [List.forall_mem_cons] at h
    rw [List.filterMap_cons, h.1.copy?_eq, ih h.2]
    by_cases hq : publish.qos = .atMostOnce <;> simp [keepable, hq]

end Session

namespace Connection
variable {c d : Connection} {publish : Publish} {packet : Packet}

/-- Nothing was handed over or held, and no admission went on. -/
structure Rests (c d : Connection) : Prop where
  clientId : d.clientId = c.clientId
  clean : c.clean = false → d.clean = false
  client : ∀ info, d.client = some info → c.client = some info ∨ d.clientId = some info.id
  held : d.held = c.held
  copies : d.transport.copies = c.transport.copies
  state : d.state = c.state ∨ d.state = .closed

lemma Rests.refl (c : Connection) : Rests c c := ⟨rfl, id, fun _ => .inl, rfl, rfl, .inl rfl⟩

lemma rests_close (c : Connection) : Rests c c.close :=
  ⟨rfl, id, fun _ => .inl, rfl, rfl, .inr rfl⟩

lemma rests_evict (c : Connection) : Rests c c.evict :=
  ⟨rfl, id, fun _ => .inl, rfl, rfl, .inr rfl⟩

lemma rests_forget (c : Connection) : Rests c { c with client := none } :=
  ⟨rfl, id, nofun, rfl, rfl, .inl rfl⟩

lemma rests_noteFired (will : Will) (c : Connection) : Rests c (c.noteFired will) :=
  ⟨rfl, id, fun _ => .inl, rfl, rfl, .inl rfl⟩

lemma Wrote.rests (h : Wrote [] c d) : Rests c d := by
  have hc := h.copies
  have hf := h.frame
  rw [List.append_nil] at hc
  generalize d.transport = transport at hf hc
  rw [hf]
  exact ⟨rfl, id, fun _ => .inl, rfl, hc, .inl rfl⟩

/-- A publish is held while the connection is being bound, and else written or refused. -/
lemma deliver_cases (c : Connection) (publish : Publish) :
    c.state = .binding ∧ c.deliver publish = (.ok (), { c with held := c.held ++ [publish] }) ∨
      c.state ≠ .binding ∧
        ((c.deliver publish).1 = .ok () ∧ Wrote publish.copy?.toList c (c.deliver publish).2 ∨
          (c.deliver publish).1 ≠ .ok () ∧ Wrote [] c (c.deliver publish).2) := by
  have hb : c.Begun → (c.deliver publish).1 = .ok () ∧
        Wrote publish.copy?.toList c (c.deliver publish).2 ∨
      (c.deliver publish).1 ≠ .ok () ∧ Wrote [] c (c.deliver publish).2 := fun hb =>
    (deliver_begun hb publish).imp (fun h => ⟨h.1, h.2.1⟩) fun h => ⟨h.1, h.2.1⟩
  cases hs : c.state with
  | binding => exact .inl ⟨rfl, by simp only [deliver, hs]⟩
  | established => exact .inr ⟨by simp, hb (.inl hs)⟩
  | closed => exact .inr ⟨by simp, hb (.inr hs)⟩
  | idle | authenticating =>
    refine .inr ⟨by simp, .inr ?_⟩
    simp only [deliver, hs]
    exact ⟨by simp, .refl c⟩

/-- The replay and what is held are written when a connection opens, up to the first failure; the
rest comes back. -/
lemma establish_cases (hp : packet.publish? = none) (c : Connection) (replay : List Publish) :
    ∃ sent unsent state, replay ++ c.held = sent ++ unsent ∧
      Wrote (sent.filterMap Publish.copy?) { c with state, held := [] }
        (c.establish packet replay).2 ∧
      state ≠ .binding ∧ (state = c.state ∨ state = .established) ∧
      ((c.establish packet replay).1 = .ok () ∧ unsent = [] ∨
        (c.establish packet replay).1 = .error unsent) := by
  by_cases hs : c.state = .binding
  · have he : c.establish packet replay =
        ({ c with held := [] } : Connection).establish packet (replay ++ c.held) := by
      unfold establish
      rw [List.append_nil]
    obtain ⟨sent, unsent, hu, hw, hr⟩ :=
      establish_binding (c := { c with held := [] }) hs rfl hp (replay ++ c.held)
    rw [he]
    exact ⟨sent, unsent, .established, hu, hw, nofun, .inr rfl, hr.imp_right fun h => h.1⟩
  · have he : c.establish packet replay =
        (.error (replay ++ c.held), { c with held := [] }) := by
      simp [establish, transition, hs]
    rw [he]
    exact ⟨[], replay ++ c.held, c.state, rfl, .refl _, hs, .inl rfl, .inr rfl⟩

end Connection
end MqttBroker
