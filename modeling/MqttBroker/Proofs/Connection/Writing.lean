import MqttBroker.Proofs.Connection.Transport

/-!
What the operations of a connection write to its transport, and changes that bring a connection
nearer to its end.
-/
namespace MqttBroker.Connection

/-- Only writes were made, and they handed over the given copies. -/
structure Wrote (copies : List Publish) (c d : Connection) : Prop where
  frame : d = { c with transport := d.transport, nextId := d.nextId }
  copies : d.transport.copies = c.transport.copies ++ copies
  sound : c.transport.Sound → d.transport.Sound
  broken : c.transport.Broken → d.transport.Broken
  permanent : c.transport.Permanent → d.transport.Permanent

/-- The connection is past its admission. -/
def Begun (c : Connection) : Prop := c.state = .established ∨ c.state = .closed

/-- The connection was closed or a write to it has failed. -/
def Stopped (c : Connection) : Prop := c.state = .closed ∨ c.transport.Broken

/-- Nobody else was admitted. -/
structure Kept (c d : Connection) : Prop where
  clientId : d.clientId = c.clientId
  clean : d.clean = c.clean
  client : ∀ info, d.client = some info → c.client = some info
  begun : c.Begun → d.Begun
  closed : c.state = .closed → d.state = .closed

/-- Whoever is served goes on to be served, unless the connection is closed. -/
structure Steady (c d : Connection) : Prop extends Kept c d where
  sameClient : d.client = c.client
  established : d.state = .established → c.state = .established
  notice : d.evictionNotice = c.evictionNotice

/-- No copy was handed over, and nothing was taken back. -/
structure Onward (c d : Connection) : Prop extends Kept c d where
  held : c.held = [] → d.held = []
  stopped : c.Stopped → d.Stopped
  copies : d.transport.copies = c.transport.copies
  sound : c.transport.Sound → d.transport.Sound

variable {c d e : Connection} {publish : Publish} {packet : Packet} {error : WriteError}

/-- What every connection of a running broker satisfies between the steps of its actor: before the
end of its admission nobody is served on it. -/
structure Regular (c : Connection) : Prop where
  admitted : ∀ info, c.client = some info → c.clientId = some info.id
  waiting : ¬ c.Begun → c.clientId = none ∧ c.transport.copies = []
  held : c.held = []
  sound : c.transport.Sound

section wrote

lemma Wrote.refl (c : Connection) : Wrote [] c c := ⟨rfl, by simp, id, id, id⟩

lemma Wrote.trans {first second : List Publish} (h : Wrote first c d) (h' : Wrote second d e) :
    Wrote (first ++ second) c e where
  frame := by
    rw [h'.frame, h.frame]
  copies := by rw [h'.copies, h.copies, List.append_assoc]
  sound hc := h'.sound (h.sound hc)
  broken hc := h'.broken (h.broken hc)
  permanent hc := h'.permanent (h.permanent hc)

lemma wrote_send (h : c.send packet = (.ok (), d)) : Wrote packet.copy?.toList c d := by
  obtain ⟨hr, rfl⟩ := Prod.mk.inj h
  exact ⟨rfl, Transport.copies_send hr, (·.send _), (·.send _), (·.send _)⟩

lemma wrote_send_error (h : c.send packet = (.error error, d)) :
    Wrote [] c d ∧ (c.transport.Sound → d.transport.Broken) := by
  obtain ⟨hr, rfl⟩ := Prod.mk.inj h
  refine ⟨⟨rfl, ?_, (·.send _), (·.send _), (·.send _)⟩, fun hs => hs.broken_of_error hr⟩
  rw [List.append_nil]
  exact Transport.copies_send_error hr

lemma allocateId_eq (c : Connection) : ∃ id nextId, c.allocateId = (id, { c with nextId }) := by
  rw [allocateId_eq_ite]
  split
  · exact ⟨_, _, rfl⟩
  · exact ⟨_, _, rfl⟩

/-- The packet of a publish carries its copy, whatever its identifier. -/
lemma writePublish_eq (c : Connection) (publish : Publish) : ∃ packet nextId,
    packet.copy? = publish.copy? ∧ c.writePublish publish = { c with nextId }.send packet := by
  unfold writePublish
  split
  next hq => exact ⟨_, c.nextId, by simp [Packet.copy?, Packet.publish?, Publish.copy?, hq], rfl⟩
  next =>
    obtain ⟨id, nextId, ha⟩ := c.allocateId_eq
    rw [ha]
    exact ⟨.publish { publish with id := some id }, nextId, rfl, rfl⟩

lemma wrote_nextId (c : Connection) (nextId : PacketId) : Wrote [] c { c with nextId } :=
  ⟨rfl, by simp, id, id, id⟩

lemma wrote_writePublish (h : c.writePublish publish = (.ok (), d)) :
    Wrote publish.copy?.toList c d := by
  obtain ⟨packet, nextId, hc, hw⟩ := c.writePublish_eq publish
  rw [hw] at h
  rw [← hc]
  exact (wrote_nextId c nextId).trans (wrote_send h)

lemma wrote_writePublish_error (h : c.writePublish publish = (.error error, d)) :
    Wrote [] c d ∧ (c.transport.Sound → d.transport.Broken) := by
  obtain ⟨packet, nextId, hc, hw⟩ := c.writePublish_eq publish
  rw [hw] at h
  obtain ⟨hd, hb⟩ := wrote_send_error h
  exact ⟨(wrote_nextId c nextId).trans hd, hb⟩

/-- The publishes written and those that come back are the list, in its order. -/
lemma wrote_writeAll {publishes : List Publish} {result : Except (List Publish) Unit}
    (h : c.writeAll publishes = (result, d)) : ∃ sent unsent, publishes = sent ++ unsent ∧
      Wrote (sent.filterMap Publish.copy?) c d ∧
      (result = .ok () ∧ unsent = [] ∨
        result = .error unsent ∧ (c.transport.Sound → d.transport.Broken)) := by
  induction publishes generalizing c with
  | nil =>
    cases h
    exact ⟨[], [], rfl, .refl _, .inl ⟨rfl, rfl⟩⟩
  | cons publish rest ih =>
    unfold writeAll at h
    split at h
    next e he =>
      have hw := wrote_writePublish he
      obtain ⟨sent, unsent, rfl, hd, hr⟩ := ih h
      refine ⟨publish :: sent, unsent, rfl, ?_, ?_⟩
      · have hs := hw.trans hd
        cases hp : publish.copy? <;> simpa [hp] using hs
      · exact hr.imp_right fun ⟨he, hb⟩ => ⟨he, fun hs => hb (hw.sound hs)⟩
    next error e he =>
      cases h
      obtain ⟨hw, hb⟩ := wrote_writePublish_error he
      exact ⟨[], publish :: rest, rfl, hw, .inr ⟨rfl, hb⟩⟩

/-- A connection that is bound opens, whatever of the replay gets through. -/
lemma establish_binding (hs : c.state = .binding) (hh : c.held = []) (hp : packet.publish? = none)
    (replay : List Publish) : ∃ sent unsent, replay = sent ++ unsent ∧
      Wrote (sent.filterMap Publish.copy?) { c with state := .established, held := [] }
        (c.establish packet replay).2 ∧
      ((c.establish packet replay).1 = .ok () ∧ unsent = [] ∨
        (c.establish packet replay).1 = .error unsent ∧
          (c.transport.Sound → (c.establish packet replay).2.transport.Broken)) := by
  have ht : ({ c with held := [] } : Connection).transition .binding .established =
      (true, { c with state := .established, held := [] }) := by
    simp [transition, hs]
  unfold establish
  simp only [ht, hh, List.append_nil]
  match he : ({ c with state := .established, held := [] } : Connection).send packet with
  | (.error error, d) =>
    obtain ⟨hw, hb⟩ := wrote_send_error he
    exact ⟨[], replay, rfl, hw, .inr ⟨rfl, hb⟩⟩
  | (.ok (), d) =>
    have hw := wrote_send he
    rw [Packet.copy?_of_control hp] at hw
    obtain ⟨sent, unsent, hu, hd, hr⟩ := wrote_writeAll
      (rfl : d.writeAll replay = ((d.writeAll replay).1, (d.writeAll replay).2))
    exact ⟨sent, unsent, hu, hw.trans hd,
      hr.imp_right fun ⟨he, hb⟩ => ⟨he, fun hs => hb (hw.sound hs)⟩⟩

end wrote

section onward

lemma Kept.refl (c : Connection) : Kept c c := ⟨rfl, rfl, fun _ => id, id, id⟩

lemma Kept.trans (h : Kept c d) (h' : Kept d e) : Kept c e where
  clientId := h'.clientId.trans h.clientId
  clean := h'.clean.trans h.clean
  client info hc := h.client info (h'.client info hc)
  begun hc := h'.begun (h.begun hc)
  closed hc := h'.closed (h.closed hc)

lemma Steady.refl (c : Connection) : Steady c c := ⟨.refl c, rfl, id, rfl⟩

lemma Steady.trans (h : Steady c d) (h' : Steady d e) : Steady c e where
  toKept := h.toKept.trans h'.toKept
  sameClient := h'.sameClient.trans h.sameClient
  established he := h.established (h'.established he)
  notice := h'.notice.trans h.notice

lemma Wrote.steady {copies : List Publish} (h : Wrote copies c d) : Steady c d := by
  rw [h.frame]
  exact ⟨⟨rfl, rfl, fun _ => id, id, id⟩, rfl, id, rfl⟩

lemma Wrote.kept {copies : List Publish} (h : Wrote copies c d) : Kept c d := h.steady.toKept

lemma steady_deliver (c : Connection) (publish : Publish) : Steady c (c.deliver publish).2 := by
  unfold deliver
  split
  · match he : c.writePublish publish with
    | (.ok (), d) => exact (wrote_writePublish he).steady
    | (.error _, d) => exact (wrote_writePublish_error he).1.steady
  · exact ⟨⟨rfl, rfl, fun _ => id, id, id⟩, rfl, id, rfl⟩
  · exact .refl c

lemma steady_noteFired (will : Will) (c : Connection) : Steady c (c.noteFired will) :=
  ⟨⟨rfl, rfl, fun _ => id, id, id⟩, rfl, id, rfl⟩

lemma steady_close (c : Connection) : Steady c c.close :=
  ⟨⟨rfl, rfl, fun _ => id, fun _ => .inr rfl, fun _ => rfl⟩, rfl, nofun, rfl⟩

/-- A state that its own connection leaves is none of the last two, and the admission is not ended
by it. -/
lemma steady_transition {source target : ConnectionState}
    (h : source ≠ .established ∧ source ≠ .closed) (ht : target ≠ .established) (c : Connection) :
    Steady c (c.transition source target).2 := by
  unfold transition
  split
  next hs =>
    have hb : ¬ c.Begun := by rintro (he | he) <;> simp_all
    have hc : c.state ≠ .closed := fun he => hb (.inr he)
    exact ⟨⟨rfl, rfl, fun _ => id, fun hb' => absurd hb' hb, fun he => absurd he hc⟩, rfl,
      fun he => absurd he ht, rfl⟩
  next => exact .refl c

lemma Onward.refl (c : Connection) : Onward c c := ⟨.refl c, id, id, rfl, id⟩

lemma Wrote.onward (h : Wrote [] c d) : Onward c d where
  toKept := h.kept
  held := by
    rw [h.frame]
    exact id
  stopped := by
    have hs : d.state = c.state := by rw [h.frame]
    rw [Stopped, Stopped, hs]
    exact Or.imp_right h.broken
  copies := by rw [h.copies, List.append_nil]
  sound := h.sound

lemma wrote_control (h : packet.publish? = none) (c : Connection) :
    Wrote [] c (c.send packet).2 := by
  match he : c.send packet with
  | (.ok (), d) => simpa [Packet.copy?_of_control h] using wrote_send he
  | (.error _, d) => exact (wrote_send_error he).1

lemma onward_close (c : Connection) : Onward c c.close :=
  ⟨(steady_close c).toKept, id, fun _ => .inl rfl, rfl, id⟩

lemma onward_evict (c : Connection) : Onward c c.evict :=
  ⟨⟨rfl, rfl, fun _ => id, fun _ => .inr rfl, fun _ => rfl⟩, id, fun _ => .inl rfl, rfl, id⟩

lemma onward_forget (c : Connection) : Onward c { c with client := none } :=
  ⟨⟨rfl, rfl, nofun, id, id⟩, id, id, rfl, id⟩

lemma onward_noteFired (will : Will) (c : Connection) : Onward c (c.noteFired will) :=
  ⟨⟨rfl, rfl, fun _ => id, id, id⟩, id, id, rfl, id⟩

/-- A state before the end of the admission is only left by its own connection. -/
lemma onward_transition {source target : ConnectionState}
    (h : source ≠ .established ∧ source ≠ .closed) (ht : target ≠ .established) (c : Connection) :
    Onward c (c.transition source target).2 := by
  have hk := (steady_transition h ht c).toKept
  unfold transition at hk ⊢
  split
  next hs =>
    rw [if_pos hs] at hk
    refine ⟨hk, id, ?_, rfl, id⟩
    rintro (he | he)
    · exact .inl (hk.closed he)
    · exact .inr he
  next => exact .refl c

end onward

section deliver

/-- Past its admission a connection writes what it is to deliver, or it has stopped. -/
lemma deliver_begun (hb : c.Begun) (publish : Publish) :
    ((c.deliver publish).1 = .ok () ∧ Wrote publish.copy?.toList c (c.deliver publish).2 ∧
      (c.transport.Permanent → ¬ c.Stopped)) ∨
    ((c.deliver publish).1 ≠ .ok () ∧ Wrote [] c (c.deliver publish).2 ∧
      (c.transport.Sound → (c.deliver publish).2.Stopped)) := by
  rcases hb with hs | hs
  · simp only [deliver, hs]
    match he : c.writePublish publish with
    | (.ok (), d) =>
      refine .inl ⟨rfl, wrote_writePublish he, fun hp => ?_⟩
      obtain ⟨packet, nextId, -, hw⟩ := c.writePublish_eq publish
      rw [hw] at he
      rintro (hc | hc)
      · rw [hs] at hc
        cases hc
      · exact hp.not_broken (congrArg Prod.fst he) hc
    | (.error _, d) =>
      obtain ⟨hw, hb⟩ := wrote_writePublish_error he
      exact .inr ⟨nofun, hw, fun hc => .inr (hb hc)⟩
  · simp only [deliver, hs]
    exact .inr ⟨nofun, .refl c, fun _ => .inl hs⟩

/-- A retained message is no copy. -/
lemma wrote_deliver_retained (h : publish.retain = true) (hb : c.Begun) :
    Wrote [] c (c.deliver publish).2 := by
  obtain ⟨-, hw, -⟩ | ⟨-, hw, -⟩ := deliver_begun hb publish
  · rwa [show publish.copy? = none by simp [Publish.copy?, h]] at hw
  · exact hw

end deliver

section regular

lemma regular_absent : absent.Regular :=
  ⟨nofun, fun h => absurd (.inr rfl) h, rfl, Nat.le_refl 0⟩

lemma regular_fresh : fresh.Regular := ⟨nofun, fun _ => ⟨rfl, rfl⟩, rfl, Nat.le_refl 0⟩

lemma Onward.regular (h : Onward c d) (hc : c.Regular) : d.Regular where
  admitted info hi := h.clientId ▸ hc.admitted info (h.client info hi)
  waiting hd := by
    rw [h.clientId, h.copies]
    exact hc.waiting fun hb => hd (h.begun hb)
  held := h.held hc.held
  sound := h.sound hc.sound

lemma Wrote.regular {copies : List Publish} (h : Wrote copies c d) (hb : c.Begun)
    (hc : c.Regular) : d.Regular where
  admitted info hi := h.kept.clientId ▸ hc.admitted info (h.kept.client info hi)
  waiting hd := absurd (h.kept.begun hb) hd
  held := by
    rw [h.frame]
    exact hc.held
  sound := h.sound hc.sound

/-- Nothing is held on a connection past its admission. -/
lemma Regular.deliver (hc : c.Regular) (hb : c.Begun) (publish : Publish) :
    (c.deliver publish).2.Regular := by
  obtain ⟨-, hw, -⟩ | ⟨-, hw, -⟩ := deliver_begun hb publish
  · exact hw.regular hb hc
  · exact hw.regular hb hc

end regular
end MqttBroker.Connection
