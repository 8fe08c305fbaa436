import MqttBroker.Proofs.Connection.Emission

/-!
What the peer of a connection gets of a list of publishes: each as it was stamped with a packet
identifier, up to the first write that fails.  A connection that opens writes its CONNACK before
them, and whatever did not get through comes back as it was.
-/
namespace MqttBroker

namespace Transport
variable {transport : Transport}

/-- So many writes get through, and the one after them fails. -/
def FailsAfter (transport : Transport) (writes : Nat) : Prop :=
  ¬ transport.FailsWithin writes ∧ transport.FailsWithin (writes + 1)

lemma FailsWithin.mono {writes more : Nat} (h : transport.FailsWithin writes)
    (hle : writes ≤ more) : transport.FailsWithin more := by
  obtain ⟨n, hn, hf⟩ := h
  exact ⟨n, hn.trans_le hle, hf⟩

lemma failsAfter_zero : transport.FailsAfter 0 ↔ transport.Fails := by
  constructor
  · rintro ⟨-, n, hn, hf⟩
    obtain rfl := Nat.lt_one_iff.mp hn
    exact hf
  · exact fun hf => ⟨not_failsWithin_zero, 0, Nat.one_pos, hf⟩

lemma FailsAfter.failsWithin {writes more : Nat} (h : transport.FailsAfter writes)
    (hlt : writes < more) : transport.FailsWithin more := h.2.mono hlt

/-- The first of the writes that get through, and what is said of the others. -/
lemma failsAfter_succ (packet : Packet) (writes : Nat) : transport.FailsAfter (writes + 1) ↔
    ¬ transport.Fails ∧ (transport.send packet).2.FailsAfter writes := by
  rw [FailsAfter, failsWithin_succ packet, failsWithin_succ packet, FailsAfter]
  tauto

end Transport

namespace Connection

/-- The publish as it is written, and the connection that has allocated an identifier for it.  At
most once needs none. -/
def stamp (c : Connection) (publish : Publish) : Publish × Connection :=
  match publish.qos with
  | .atMostOnce => ({ publish with id := none }, c)
  | _ => ({ publish with id := some c.allocateId.1 }, c.allocateId.2)

/-- The publishes as they are written one after the other. -/
def stamped (c : Connection) : List Publish → List Publish
  | [] => []
  | publish :: rest => (c.stamp publish).1 :: (c.stamp publish).2.stamped rest

variable {c d : Connection} {publish : Publish} {packet : Packet}

section stamping

lemma writePublish_eq_send (c : Connection) (publish : Publish) :
    c.writePublish publish = (c.stamp publish).2.send (.publish (c.stamp publish).1) := by
  unfold writePublish stamp
  cases publish.qos <;> rfl

@[simp] lemma transport_stamp (c : Connection) (publish : Publish) :
    (c.stamp publish).2.transport = c.transport := by
  obtain ⟨id, nextId, ha⟩ := c.allocateId_eq
  unfold stamp
  split
  · rfl
  · rw [ha]

/-- Identifiers are counted whatever else happens to the connection. -/
lemma stamp_congr (h : d.nextId = c.nextId) (publish : Publish) :
    (d.stamp publish).1 = (c.stamp publish).1 ∧
      (d.stamp publish).2.nextId = (c.stamp publish).2.nextId := by
  simp only [stamp, allocateId_eq_ite]
  split
  · exact ⟨rfl, h⟩
  · rw [h]
    split <;> exact ⟨rfl, rfl⟩

lemma stamped_congr (h : d.nextId = c.nextId) (publishes : List Publish) :
    d.stamped publishes = c.stamped publishes := by
  induction publishes generalizing c d with
  | nil => rfl
  | cons publish rest ih =>
    obtain ⟨hp, hn⟩ := stamp_congr h publish
    rw [stamped, stamped, hp, ih hn]

/-- The publish arrives as it was stamped, unless the write fails. -/
lemma writePublish_cases (c : Connection) (publish : Publish) :
    (¬ c.transport.Fails ∧ ∃ d, c.writePublish publish = (.ok (), d) ∧
      d.transport = (c.transport.send (.publish (c.stamp publish).1)).2 ∧
      d.transport.written.toList =
        c.transport.written.toList ++ [.publish (c.stamp publish).1] ∧
      d.nextId = (c.stamp publish).2.nextId) ∨
    (c.transport.Fails ∧ ∃ error d, c.writePublish publish = (.error error, d) ∧
      d.transport.written = c.transport.written) := by
  rw [c.writePublish_eq_send publish, send, transport_stamp]
  obtain ⟨hf, he⟩ | ⟨hf, error, he⟩ := c.transport.send_cases (.publish (c.stamp publish).1)
  · rw [he]
    exact .inl ⟨hf, _, rfl, rfl, by simp, rfl⟩
  · rw [he]
    exact .inr ⟨hf, error, _, rfl, rfl⟩

/-- The publishes before the first write that fails arrive as they were stamped, and the others
come back. -/
theorem writeAll_cases (publishes : List Publish) (c : Connection) : ∃ sent unsent,
    publishes = sent ++ unsent ∧
    (c.writeAll publishes).2.transport.written.toList =
      c.transport.written.toList ++ (c.stamped sent).map .publish ∧
    ((c.writeAll publishes).1 = .ok () ∧ unsent = [] ∧
        ¬ c.transport.FailsWithin publishes.length ∨
      (c.writeAll publishes).1 = .error unsent ∧ unsent ≠ [] ∧
        c.transport.FailsAfter sent.length) := by
  induction publishes generalizing c with
  | nil =>
    exact ⟨[], [], rfl, by simp [writeAll, stamped],
      .inl ⟨rfl, rfl, Transport.not_failsWithin_zero⟩⟩
  | cons publish rest ih =>
    obtain ⟨hf, d, he, ht, hw, hn⟩ | ⟨hf, error, d, he, hw⟩ := c.writePublish_cases publish
    · obtain ⟨sent, unsent, hp, hd, hr⟩ := ih d
      have hall : c.writeAll (publish :: rest) = d.writeAll rest := by
        simp only [writeAll, he]
      refine ⟨publish :: sent, unsent, by rw [hp, List.cons_append], ?_, ?_⟩
      · rw [hall, hd, hw, stamped, stamped_congr hn, List.map_cons, List.append_assoc,
          List.singleton_append]
      · rw [hall, List.length_cons, List.length_cons, Transport.failsWithin_succ,
          Transport.failsAfter_succ, ← ht]
        refine hr.imp (fun ⟨hr, hu, hn⟩ => ⟨hr, hu, ?_⟩) fun ⟨hr, hu, hn⟩ => ⟨hr, hu, hf, hn⟩
        rintro (h | ⟨-, h⟩)
        · exact hf h
        · exact hn h
    · have hall : c.writeAll (publish :: rest) = (.error (publish :: rest), d) := by
        simp only [writeAll, he]
      rw [hall]
      exact ⟨[], publish :: rest, rfl, by simp [hw, stamped],
        .inr ⟨rfl, nofun, Transport.failsAfter_zero.mpr hf⟩⟩

/-- All the publishes arrive exactly if none of their writes fails. -/
lemma writeAll_fst (c : Connection) (publishes : List Publish) :
    (c.writeAll publishes).1 = .ok () ↔ ¬ c.transport.FailsWithin publishes.length := by
  obtain ⟨sent, unsent, hp, -, ⟨hr, -, hn⟩ | ⟨hr, hu, hf⟩⟩ := c.writeAll_cases publishes
  · exact iff_of_true hr hn
  · have hpos := List.length_pos_iff.mpr hu
    have hlt : sent.length < publishes.length := by
      rw [hp, List.length_append]
      omega
    exact iff_of_false (by rw [hr]; nofun) fun hn => hn (hf.failsWithin hlt)

end stamping

section opening

/-- A connection that does not wait for its session writes nothing, and everything comes back. -/
lemma establish_of_ne_binding (hs : c.state ≠ .binding) (packet : Packet)
    (replay : List Publish) :
    c.establish packet replay = (.error (replay ++ c.held), { c with held := [] }) := by
  simp [establish, transition, hs]

/-- A connection that waits for its session writes its CONNACK first. -/
lemma establish_of_binding (hs : c.state = .binding) (packet : Packet) (replay : List Publish) :
    (¬ c.transport.Fails ∧ ∃ d : Connection,
      c.establish packet replay = d.writeAll (replay ++ c.held) ∧
      d.transport = (c.transport.send packet).2 ∧
      d.transport.written.toList = c.transport.written.toList ++ [packet] ∧
      d.nextId = c.nextId ∧ d.held = []) ∨
    (c.transport.Fails ∧ ∃ d : Connection,
      c.establish packet replay = (.error (replay ++ c.held), d) ∧
      d.transport.written = c.transport.written ∧ d.held = []) := by
  have ht : ({ c with held := [] } : Connection).transition .binding .established =
      (true, { c with state := .established, held := [] }) := by
    simp [transition, hs]
  unfold establish send
  obtain ⟨hf, he⟩ | ⟨hf, error, he⟩ := c.transport.send_cases packet
  · simp only [ht, he]
    exact .inl ⟨hf, _, rfl, rfl, by simp, rfl, rfl⟩
  · simp only [ht, he]
    exact .inr ⟨hf, _, rfl, rfl, rfl⟩

lemma held_writeAll (publishes : List Publish) (c : Connection) :
    (c.writeAll publishes).2.held = c.held := by
  obtain ⟨sent, unsent, -, hw, -⟩ := wrote_writeAll (Prod.eta (c.writeAll publishes)).symm
  rw [hw.frame]

/-- Nothing is held any more, whatever got through. -/
lemma held_establish (c : Connection) (packet : Packet) (replay : List Publish) :
    (c.establish packet replay).2.held = [] := by
  by_cases hs : c.state = .binding
  · obtain ⟨-, d, he, -, -, -, hh⟩ | ⟨-, d, he, -, hh⟩ := establish_of_binding hs packet replay
    · rw [he, held_writeAll, hh]
    · rw [he, hh]
  · rw [establish_of_ne_binding hs]

/-- A connection that waits for its session writes the CONNACK and then what is to be replayed and
what it holds, up to the first write that fails. -/
theorem establish_stamped (hs : c.state = .binding) (packet : Packet) (replay : List Publish) :
    ∃ sent unsent, replay ++ c.held = sent ++ unsent ∧
      ((c.establish packet replay).2.transport.written.toList =
          c.transport.written.toList ++ packet :: (c.stamped sent).map .publish ∧
        ((c.establish packet replay).1 = .ok () ∧ unsent = [] ∧
            ¬ c.transport.FailsWithin (sent.length + 1) ∨
          (c.establish packet replay).1 = .error unsent ∧ unsent ≠ [] ∧
            c.transport.FailsAfter (sent.length + 1)) ∨
      (c.establish packet replay).2.transport.written = c.transport.written ∧
        (c.establish packet replay).1 = .error unsent ∧ sent = [] ∧
          c.transport.FailsAfter 0) := by
  obtain ⟨hf, d, he, ht, hd, hn, -⟩ | ⟨hf, d, he, hw, -⟩ := establish_of_binding hs packet replay
  · obtain ⟨sent, unsent, hp, hw, hr⟩ := d.writeAll_cases (replay ++ c.held)
    refine ⟨sent, unsent, hp, .inl ?_⟩
    rw [he, Transport.failsWithin_succ packet, Transport.failsAfter_succ packet, ← ht]
    constructor
    · rw [hw, hd, stamped_congr hn, List.append_assoc, List.singleton_append]
    · refine hr.imp (fun ⟨hr, hu, hn⟩ => ⟨hr, hu, ?_⟩) fun ⟨hr, hu, hn⟩ => ⟨hr, hu, hf, hn⟩
      rw [hp, hu, List.append_nil] at hn
      rintro (h | ⟨-, h⟩)
      · exact hf h
      · exact hn h
  · rw [he]
    exact ⟨[], replay ++ c.held, rfl, .inr ⟨hw, rfl, rfl, Transport.failsAfter_zero.mpr hf⟩⟩

/-- A connection that waits for its session opens exactly if its CONNACK and all the publishes get
through. -/
lemma establish_fst (hs : c.state = .binding) (packet : Packet) (replay : List Publish) :
    (c.establish packet replay).1 = .ok () ↔
      ¬ c.transport.FailsWithin ((replay ++ c.held).length + 1) := by
  obtain ⟨sent, unsent, hp, ⟨-, ⟨hr, rfl, hn⟩ | ⟨hr, hu, hf⟩⟩ | ⟨-, hr, rfl, hf⟩⟩ :=
    establish_stamped hs packet replay
  · rw [hp, List.append_nil]
    exact iff_of_true hr hn
  · have hpos := List.length_pos_iff.mpr hu
    have hlt : sent.length + 1 < (replay ++ c.held).length + 1 := by
      rw [hp, List.length_append]
      omega
    exact iff_of_false (by rw [hr]; nofun) fun hn => hn (hf.failsWithin hlt)
  · exact iff_of_false (by rw [hr]; nofun) fun hn => hn (hf.failsWithin (Nat.succ_pos _))

/-- The CONNACK that accepts was written if the transport took it, and nothing but publishes
after it. -/
def Greeted (resumed : Bool) (c d : Connection) : Prop :=
  c.transport.Fails ∧ d.transport.written = c.transport.written ∨
    ¬ c.transport.Fails ∧ ∃ publishes : List Publish, d.transport.written.toList =
      c.transport.written.toList ++ .connack resumed .accepted :: publishes.map .publish

lemma greeted_establish (hs : c.state = .binding) (resumed : Bool) (replay : List Publish) :
    Greeted resumed c (c.establish (.connack resumed .accepted) replay).2 := by
  obtain ⟨sent, unsent, -, ⟨hw, hr⟩ | ⟨hw, -, -, hf⟩⟩ :=
    establish_stamped hs (.connack resumed .accepted) replay
  · refine .inr ⟨fun hf => ?_, c.stamped sent, hw⟩
    have hf := (Transport.failsAfter_zero.mpr hf).failsWithin (Nat.succ_pos sent.length)
    obtain ⟨-, -, hn⟩ | ⟨-, -, hn⟩ := hr
    · exact hn hf
    · exact hn.1 hf
  · exact .inl ⟨Transport.failsAfter_zero.mp hf, hw⟩

end opening

section record
variable (c : Connection) (client : Option ClientInfo) (clean : Bool)

/-- Who was admitted on a connection has no say in what is written. -/
lemma writePublish_record (publish : Publish) :
    ({ c with client, clean } : Connection).writePublish publish =
      ((c.writePublish publish).1, { (c.writePublish publish).2 with client, clean }) := by
  simp only [writePublish, allocateId_eq_ite]
  cases publish.qos with
  | atMostOnce => rfl
  | atLeastOnce | exactlyOnce =>
    dsimp only
    split <;> rfl

lemma writeAll_record (publishes : List Publish) :
    ({ c with client, clean } : Connection).writeAll publishes =
      ((c.writeAll publishes).1, { (c.writeAll publishes).2 with client, clean }) := by
  induction publishes generalizing c with
  | nil => rfl
  | cons publish rest ih =>
    unfold writeAll
    rw [writePublish_record]
    obtain ⟨error | _, d⟩ := c.writePublish publish
    · rfl
    · exact ih d

lemma establish_record (packet : Packet) (replay : List Publish) :
    ({ c with client, clean } : Connection).establish packet replay =
      ((c.establish packet replay).1, { (c.establish packet replay).2 with client, clean }) := by
  by_cases hs : c.state = .binding
  · simp only [establish, transition, hs, if_true, send]
    obtain ⟨error | ⟨⟨⟩⟩, transport⟩ := c.transport.send packet
    · rfl
    · exact writeAll_record { c with state := .established, held := [], transport } client clean
        (replay ++ c.held)
  · rw [establish_of_ne_binding (c := c) hs, establish_of_ne_binding (by exact hs)]

end record

end Connection
end MqttBroker
