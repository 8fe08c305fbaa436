import MqttBroker.Proofs.Connection.Stamping

/-!
Packet identifiers.  The counter wraps at 65536 and zero is passed over, so that identifiers come in
rounds of 65535, whatever becomes of the writes that they were taken for.
-/
namespace MqttBroker.Connection

/-- What was done with the counter of a connection, or with a publish. -/
inductive Entry where
  | allocated (id : PacketId)
  /-- The publish as it was stamped, and whether its write got through. -/
  | attempted (publish : Publish) (arrived : Bool)

/-- The identifier that was taken. -/
def Entry.id? : Entry → Option PacketId
  | allocated id => some id
  | attempted publish _ => publish.id

/-- The publish that got through. -/
def Entry.arrived? : Entry → Option Publish
  | attempted publish true => some publish
  | _ => none

/-- How one connection became another, and the log of it: identifiers were allocated, publishes were
written or failed to be, and anything else left the counter alone and got no publish through. -/
inductive Logged (c : Connection) : List Entry → Connection → Prop
  | start : Logged c [] c
  | allocate {log d} (h : Logged c log d) :
    Logged c (log ++ [.allocated d.allocateId.1]) d.allocateId.2
  | write {log d} (h : Logged c log d) (publish) :
    Logged c (log ++ [.attempted (d.stamp publish).1 (d.writePublish publish).1.isOk])
      (d.writePublish publish).2
  | aside {log d e} (h : Logged c log d) (hn : e.nextId = d.nextId)
    (ht : e.transport.publishes = d.transport.publishes) : Logged c log e

/-- There is a log of how one connection became the other. -/
def Traced (c d : Connection) : Prop := ∃ log, Logged c log d

/-- What the counter says when so many identifiers have been taken. -/
def Due (taken : ℕ) (c : Connection) : Prop :=
  c.nextId.toNat = taken % 65535 + 1 ∨ c.nextId = 0 ∧ taken % 65535 = 0

/-- Identifiers count up from one, and from 65535 to one again. -/
def Cyclic (taken : List PacketId) : Prop :=
  ∀ i id, taken[i]? = some id → id.toNat = i % 65535 + 1

/-- The identifiers of a log. -/
def ids (log : List Entry) : List PacketId := log.filterMap Entry.id?

variable {c d e : Connection} {publish : Publish} {packet : Packet} {log : List Entry}
  {taken : List PacketId} {k : ℕ}

section counting

lemma due_fresh : Due 0 fresh := .inl rfl

lemma due_congr (h : d.nextId = c.nextId) : Due k d ↔ Due k c := by rw [Due, Due, h]

/-- One allocation: the identifier that is due, and the counter moves on. -/
lemma Due.allocateId (h : Due k c) :
    c.allocateId.1.toNat = k % 65535 + 1 ∧ Due (k + 1) c.allocateId.2 := by
  rw [allocateId_eq_ite]
  obtain hn | ⟨hz, hk⟩ := h
  · have hne : c.nextId ≠ 0 := by
      intro hz
      rw [hz] at hn
      exact absurd hn (Nat.succ_ne_zero _).symm
    rw [if_neg hne]
    refine ⟨hn, ?_⟩
    have hnext : (c.nextId + 1).toNat = (c.nextId.toNat + 1) % 65536 := UInt16.toNat_add _ _
    by_cases hlast : k % 65535 = 65534
    · -- the round ends at the last value of the counter
      refine .inr ⟨UInt16.toNat_inj.mp ?_, by omega⟩
      rw [hnext, hn, hlast]
      rfl
    · refine .inl ?_
      change (c.nextId + 1).toNat = _
      omega
  · rw [if_pos hz]
    refine ⟨by rw [hk]; rfl, .inl ?_⟩
    change 2 = (k + 1) % 65535 + 1
    omega

/-- After so many allocations the next identifier is due. -/
lemma due_iterate (k : ℕ) : Due k ((fun c : Connection => c.allocateId.2)^[k] fresh) := by
  induction k with
  | zero => exact due_fresh
  | succ k ih =>
    rw [Function.iterate_succ_apply']
    exact ih.allocateId.2

/-- The loop is over when the counter is not zero, which it is not twice. -/
lemma allocateId_rounds (c : Connection) :
    c.fetchId.1 ≠ 0 ∧ c.allocateId = c.fetchId ∨
      c.fetchId.1 = 0 ∧ c.fetchId.2.fetchId.1 ≠ 0 ∧ c.allocateId = c.fetchId.2.fetchId := by
  rw [allocateId]
  by_cases hz : c.fetchId.1 = 0
  · have hone : c.fetchId.2.fetchId.1 ≠ 0 := by
      have hnext : c.fetchId.2.fetchId.1 = c.fetchId.1 + 1 := rfl
      rw [hnext, hz]
      decide
    rw [if_pos hz, allocateId, if_neg hone]
    exact .inr ⟨hz, hone, rfl⟩
  · rw [if_neg hz]
    exact .inl ⟨hz, rfl⟩

lemma Cyclic.concat (h : Cyclic taken) {id : PacketId} (hi : id.toNat = taken.length % 65535 + 1) :
    Cyclic (taken ++ [id]) := by
  intro i other ho
  rw [List.getElem?_append] at ho
  split at ho
  · exact h i other ho
  next hlen =>
    rw [List.getElem?_singleton, Option.ite_none_right_eq_some] at ho
    obtain ⟨hz, ho⟩ := ho
    cases ho
    rw [hi, show i = taken.length by omega]

lemma Cyclic.zero_notMem (h : Cyclic taken) : 0 ∉ taken := by
  intro hm
  obtain ⟨i, hi⟩ := List.mem_iff_getElem?.mp hm
  exact absurd (h i 0 hi) (Nat.succ_ne_zero _).symm

/-- An identifier comes back when a round is over. -/
lemma Cyclic.mod_eq (h : Cyclic taken) {i j : ℕ} {id : PacketId} (hi : taken[i]? = some id)
    (hj : taken[j]? = some id) : i % 65535 = j % 65535 :=
  Nat.succ.inj ((h i id hi).symm.trans (h j id hj))

/-- No identifier is taken twice in a round, wherever the round begins. -/
lemma Cyclic.nodup (h : Cyclic taken) (start : ℕ) : ((taken.drop start).take 65535).Nodup := by
  refine List.nodup_iff_getElem?_ne_getElem?.mpr fun i j hij hj he => ?_
  have hlast : j < 65535 := hj.trans_le (List.length_take_le _ _)
  have hid := List.getElem?_eq_getElem hj
  rw [hid, List.getElem?_take_of_lt (hij.trans hlast), List.getElem?_drop] at he
  rw [List.getElem?_take_of_lt hlast, List.getElem?_drop] at hid
  have hround := h.mod_eq he hid
  omega

end counting

section logging

lemma ids_append (log later : List Entry) : ids (log ++ later) = ids log ++ ids later :=
  List.filterMap_append

/-- At most once takes no identifier, and any other publish the next one. -/
lemma stamp_cases (c : Connection) (publish : Publish) :
    publish.qos = .atMostOnce ∧ c.stamp publish = ({ publish with id := none }, c) ∨
      publish.qos ≠ .atMostOnce ∧
        c.stamp publish = ({ publish with id := some c.allocateId.1 }, c.allocateId.2) := by
  unfold stamp
  cases publish.qos with
  | atMostOnce => exact .inl ⟨rfl, rfl⟩
  | atLeastOnce | exactlyOnce => exact .inr ⟨by simp, rfl⟩

lemma nextId_writePublish (c : Connection) (publish : Publish) :
    (c.writePublish publish).2.nextId = (c.stamp publish).2.nextId := by
  rw [writePublish_eq_send]
  rfl

/-- Whatever is done to a connection, the identifiers it takes are those that are due. -/
theorem Logged.counts (h : Logged c log d) (hc : Due 0 c) :
    Cyclic (ids log) ∧ Due (ids log).length d := by
  induction h with
  | start => exact ⟨nofun, hc⟩
  | @allocate log d h ih =>
    obtain ⟨hids, hdue⟩ := ih
    obtain ⟨hid, hnext⟩ := hdue.allocateId
    rw [ids_append, List.length_append]
    exact ⟨hids.concat hid, hnext⟩
  | @write log d h publish ih =>
    obtain ⟨hids, hdue⟩ := ih
    rw [ids_append, List.length_append, due_congr (nextId_writePublish d publish)]
    obtain ⟨-, he⟩ | ⟨-, he⟩ := d.stamp_cases publish <;> rw [he]
    · refine ⟨?_, hdue⟩
      rwa [← List.append_nil (ids log)] at hids
    · obtain ⟨hid, hnext⟩ := hdue.allocateId
      exact ⟨hids.concat hid, hnext⟩
  | aside h hn ht ih => exact ⟨ih.1, (due_congr hn).mpr ih.2⟩

/-- The publishes that got through are those of the log. -/
theorem Logged.publishes (h : Logged c log d) :
    d.transport.publishes = c.transport.publishes ++ log.filterMap Entry.arrived? := by
  induction h with
  | start => rw [List.filterMap_nil, List.append_nil]
  | @allocate log d h ih =>
    obtain ⟨id, nextId, he⟩ := d.allocateId_eq
    rw [he, List.filterMap_append, ← List.append_assoc, ← ih]
    exact (List.append_nil _).symm
  | @write log d h publish ih =>
    rw [List.filterMap_append, ← List.append_assoc, ← ih, writePublish_eq_send, send,
      transport_stamp]
    obtain ⟨-, he⟩ | ⟨-, error, he⟩ := d.transport.send_cases (.publish (d.stamp publish).1) <;>
      rw [he]
    · simp [Except.isOk, Except.toBool, Entry.arrived?, Transport.publishes, Packet.publish?]
    · simp [Except.isOk, Except.toBool, Entry.arrived?, Transport.publishes]
  | aside h hn ht ih => rw [ht, ih]

/-- A publish carries an identifier exactly if it takes one. -/
theorem Logged.stamped (h : Logged c log d) {arrived : Bool}
    (hm : .attempted publish arrived ∈ log) : publish.id.isSome ↔ publish.qos ≠ .atMostOnce := by
  induction h with
  | start => cases hm
  | allocate h ih => exact ih (by simpa using hm)
  | @write log d h other ih =>
    obtain hm | hm := List.mem_append.mp hm
    · exact ih hm
    · obtain ⟨rfl, -⟩ := Entry.attempted.inj (List.mem_singleton.mp hm)
      obtain ⟨hq, he⟩ | ⟨hq, he⟩ := d.stamp_cases other <;> rw [he] <;> simp [hq]
  | aside h hn ht ih => exact ih hm

lemma attempted_of_arrived (h : publish ∈ log.filterMap Entry.arrived?) :
    .attempted publish true ∈ log := by
  obtain ⟨entry, hm, he⟩ := List.mem_filterMap.mp h
  match entry, he with
  | .attempted publish true, rfl => exact hm

/-- Two publishes with an identifier have different ones, unless the second one comes so late that
a round is over. -/
theorem Cyclic.apart {before between after : List Entry} {first second : Publish}
    {arrived reached : Bool} (h : Cyclic (ids (before ++ .attempted first arrived ::
      (between ++ .attempted second reached :: after))))
    (hlt : (ids between).length + 1 < 65535) (hid : first.id.isSome) : first.id ≠ second.id := by
  intro he
  obtain ⟨id, hf⟩ := Option.isSome_iff_exists.mp hid
  have hs := he.symm.trans hf
  have hids : ids (before ++ .attempted first arrived ::
      (between ++ .attempted second reached :: after)) =
        ids before ++ id :: (ids between ++ id :: ids after) := by
    simp [ids, Entry.id?, hf, hs]
  rw [hids] at h
  have hi : (ids before ++ id :: (ids between ++ id :: ids after))[(ids before).length]? =
      some id := by simp
  have hj : (ids before ++ id :: (ids between ++ id :: ids after))[
      (ids before).length + ((ids between).length + 1)]? = some id := by simp
  have hround := h.mod_eq hi hj
  omega

end logging

section traces

lemma Traced.refl (c : Connection) : Traced c c := ⟨[], .start⟩

lemma Traced.trans (h : Traced c d) (h' : Traced d e) : Traced c e := by
  obtain ⟨log, h⟩ := h
  obtain ⟨later, h'⟩ := h'
  refine ⟨log ++ later, ?_⟩
  induction h' with
  | start => rwa [List.append_nil]
  | allocate h' ih => simpa using ih.allocate
  | write h' publish ih => simpa using ih.write publish
  | aside h' hn ht ih => exact ih.aside hn ht

lemma traced_aside (hn : d.nextId = c.nextId)
    (ht : d.transport.publishes = c.transport.publishes) : Traced c d :=
  ⟨[], Logged.start.aside hn ht⟩

lemma traced_control (h : packet.publish? = none) (c : Connection) :
    Traced c (c.send packet).2 := by
  refine traced_aside rfl ?_
  obtain he | ⟨publish, hs, -⟩ := c.transport.publishes_send packet
  · exact he
  · rw [h] at hs
    cases hs

lemma traced_writePublish (c : Connection) (publish : Publish) :
    Traced c (c.writePublish publish).2 := ⟨_, Logged.start.write publish⟩

lemma traced_deliver (c : Connection) (publish : Publish) : Traced c (c.deliver publish).2 := by
  unfold deliver
  split
  · exact traced_writePublish c publish
  · exact traced_aside rfl rfl
  · exact .refl c

lemma traced_writeAll (publishes : List Publish) (c : Connection) :
    Traced c (c.writeAll publishes).2 := by
  induction publishes generalizing c with
  | nil => exact .refl c
  | cons publish rest ih =>
    have hw := traced_writePublish c publish
    unfold writeAll
    generalize c.writePublish publish = result at hw ⊢
    obtain ⟨_ | _, d⟩ := result
    · exact hw
    · exact hw.trans (ih d)

/-- A connection that opens, and one that does not. -/
lemma traced_establish (hp : packet.publish? = none) (replay : List Publish) (c : Connection) :
    Traced c (c.establish packet replay).2 := by
  by_cases hs : c.state = .binding
  · have hopen : Traced c { c with state := .established, held := [] } := traced_aside rfl rfl
    have hsend := hopen.trans (traced_control hp _)
    unfold establish transition
    simp only [hs, if_true]
    generalize ({ c with state := .established, held := [] } : Connection).send packet = result
      at hsend ⊢
    obtain ⟨_ | _, d⟩ := result
    · exact hsend
    · exact hsend.trans (traced_writeAll _ d)
  · rw [establish_of_ne_binding hs]
    exact traced_aside rfl rfl

lemma traced_transition (source target : ConnectionState) (c : Connection) :
    Traced c (c.transition source target).2 := by
  unfold transition
  split
  · exact traced_aside rfl rfl
  · exact .refl c

end traces
end MqttBroker.Connection
