import MqttBroker.Proofs.Broker.Lasting

/-!
The maximum QoS of a broker's subscriptions.  They are granted at no more than that, but what is
restored from storage is not looked at again.
-/
namespace MqttBroker

/-- A number that is no QoS sets no limit, and is above any. -/
lemma MqttConfig.toNat_qosLimit_le (config : MqttConfig) :
    config.qosLimit.toNat ≤ config.maxQos := by
  unfold qosLimit
  match config.maxQos with
  | 0 | 1 | 2 => exact le_rfl
  | n + 3 => exact (QoS.toNat_le _).trans (by omega)

namespace Broker

variable {b b' : Broker} {id : ClientId} {session : Session} {client : ClientInfo} {maximum : Nat}
  {outset : ClientId → Option (Table QoS)} {table : Table QoS}

/-- No subscription is above the maximum, but for those that the client had at the outset. -/
def Tolerates (maximum : Nat) (outset : ClientId → Option (Table QoS)) (id : ClientId)
    (table : Table QoS) : Prop :=
  ∀ (filter : String) (qos : QoS), table[filter]? = some qos →
    qos.toNat ≤ maximum ∨ ∃ held, outset id = some held ∧ held[filter]? = some qos

lemma tolerates_empty : Tolerates maximum outset id ∅ := by
  intro filter qos hf
  simp at hf

namespace Tolerates

lemma insert (h : Tolerates maximum outset id table) (filter : String) {granted : QoS}
    (hg : granted.toNat ≤ maximum) : Tolerates maximum outset id (table.insert filter granted) := by
  intro other qos hf
  rw [Std.ExtTreeMap.getElem?_insert] at hf
  split at hf
  · cases hf
    exact .inl hg
  · exact h other qos hf

lemma erase (h : Tolerates maximum outset id table) (filter : String) :
    Tolerates maximum outset id (table.erase filter) := by
  intro other qos hf
  rw [Std.ExtTreeMap.getElem?_erase] at hf
  split at hf
  · cases hf
  · exact h other qos hf

lemma eraseAll (h : Tolerates maximum outset id table) (filters : List String) :
    Tolerates maximum outset id (table.eraseAll filters) := by
  intro other qos hf
  rw [Table.getElem?_eraseAll] at hf
  split at hf
  · cases hf
  · exact h other qos hf

end Tolerates

/-- What sessions hold in memory, and what is kept of them in storage, is within the maximum or was
there at the outset. -/
structure Granted (maximum : Nat) (outset : ClientId → Option (Table QoS)) (b : Broker) : Prop where
  configured : b.config.mqtt.maxQos = maximum
  sessions : ∀ id session, b.session? id = some session →
    Tolerates maximum outset id session.subscriptions
  kept : ∀ id table, b.kept? id = some table → Tolerates maximum outset id table

/-- What storage may have of a session after a call that may have failed. -/
lemma saved_cases (b : Broker) (id : ClientId) (clean : Bool) (session : Session) :
    (b.saved id clean session).records = b.stored.records ∨
      (b.saved id clean session).records = b.stored.records.insert id session.toStored := by
  unfold saved
  split
  · exact .inl rfl
  · rw [Repository.records_save]
    split
    · exact .inl rfl
    · exact .inr rfl

lemma cleared_cases (b : Broker) (id : ClientId) (due : Bool) :
    (b.cleared id due).records = b.stored.records ∨
      (b.cleared id due).records = b.stored.records.erase id := by
  unfold cleared
  split
  · rw [Repository.records_delete]
    split
    · exact .inl rfl
    · exact .inr rfl
  · exact .inl rfl

namespace Granted

lemma of_records (h : Granted maximum outset b) (hr : b'.stored.records = b.stored.records)
    (other : ClientId) (table : Table QoS) (hk : b'.kept? other = some table) :
    Tolerates maximum outset other table := by
  rw [kept?, hr] at hk
  exact h.kept other table hk

lemma of_cleared (h : Granted maximum outset b)
    (hr : b'.stored.records = b.stored.records ∨ b'.stored.records = b.stored.records.erase id)
    (other : ClientId) (table : Table QoS) (hk : b'.kept? other = some table) :
    Tolerates maximum outset other table := by
  obtain hr | hr := hr
  · exact h.of_records hr other table hk
  · rw [kept?, hr, Std.ExtTreeMap.getElem?_erase] at hk
    split at hk
    · cases hk
    · exact h.kept other table hk

lemma of_saved (h : Granted maximum outset b) (session : Session)
    (hs : Tolerates maximum outset id session.subscriptions)
    (hr : b'.stored.records = b.stored.records ∨
      b'.stored.records = b.stored.records.insert id session.toStored)
    (other : ClientId) (table : Table QoS) (hk : b'.kept? other = some table) :
    Tolerates maximum outset other table := by
  obtain hr | hr := hr
  · exact h.of_records hr other table hk
  · rw [kept?, hr, Std.ExtTreeMap.getElem?_insert] at hk
    split at hk
    next he =>
      cases Std.LawfulEqCmp.eq_of_compare he
      rw [Option.map_some, Session.restoredSubscriptions_toStored] at hk
      cases hk
      exact hs
    · exact h.kept other table hk

lemma of_setSession (h : Granted maximum outset b) (session : Session)
    (hs : Tolerates maximum outset id session.subscriptions) (other : ClientId) (next : Session)
    (hn : (b.setSession id session).session? other = some next) :
    Tolerates maximum outset other next.subscriptions := by
  rw [session?_setSession] at hn
  split at hn
  next ho =>
    cases hn
    exact ho ▸ hs
  · exact h.sessions other next hn

/-- Whatever session a client finds, it has been granted. -/
lemma found (h : Granted maximum outset b) {clean : Bool}
    (hf : b.Found id clean client session) : Tolerates maximum outset id session.subscriptions := by
  cases hf with
  | own hs => exact h.sessions id _ hs
  | fresh => exact tolerates_empty
  | restored _ _ record hr => exact h.kept id _ (by rw [kept?, hr]; rfl)

/-- Every way to a subscription leads past the maximum or past what there was at the outset. -/
theorem upheld (maximum : Nat) (outset : ClientId → Option (Table QoS)) :
    Upheld (Granted maximum outset) where
  books h _ _ hs _ := ⟨h.configured, h.sessions, h.of_records hs.records⟩
  connections h _ := ⟨h.configured, h.sessions, h.kept⟩
  retained h _ := ⟨h.configured, h.sessions, h.kept⟩
  note h _ _ := ⟨h.configured, h.sessions, h.kept⟩
  session h id _ hs _ hn := by
    refine ⟨h.configured, h.of_setSession _ ?_, h.kept⟩
    rw [hn.subscriptions]
    exact h.sessions id _ hs
  subscribed {b} h id session hs filter granted hg _ := by
    have hq : granted.toNat ≤ maximum :=
      le_trans hg (h.configured ▸ MqttConfig.toNat_qosLimit_le _)
    have ht := (h.sessions id session hs).insert filter hq
    exact ⟨h.configured, h.of_setSession { session with subscriptions := _ } ht,
      h.of_saved _ ht (saved_cases b id _ _)⟩
  unsubscribed {b} h id session hs filter _ := by
    have ht := (h.sessions id session hs).erase filter
    exact ⟨h.configured, h.of_setSession { session with subscriptions := _ } ht,
      h.of_saved _ ht (saved_cases b id _ _)⟩
  teardown {b} h id session _ := by
    have hr := teardown_eq b id session
    have hcleared : (b.teardown id session).stored.records = b.stored.records ∨
        (b.teardown id session).stored.records = b.stored.records.erase id := by
      rw [hr]
      exact cleared_cases b id _
    refine ⟨?_, fun other next hn => ?_, h.of_cleared hcleared⟩
    · obtain ⟨directory, hd⟩ := b.detach_eq id session
      rw [hr, hd]
      exact h.configured
    · rw [session?_teardown] at hn
      split at hn
      · cases hn
      · exact h.sessions other next hn
  rebind {b} h id clean client session hf k lost calls := by
    have ht := (h.found hf).eraseAll lost
    refine ⟨?_, fun other next hn => ?_, ?_⟩
    · change (b.rebind id clean k client session lost).config.mqtt.maxQos = maximum
      rw [(rules_rebind lost).1, h.configured]
    · rw [session?_withBooks, session?_rebind] at hn
      split at hn
      next ho =>
        cases hn
        exact ho ▸ ht
      · exact h.sessions other next hn
    · cases clean with
      | true => exact h.of_cleared (cleared_cases b id _)
      | false =>
        exact h.of_saved ((session.trimmed false client lost).rebound false k) ht
          (saved_cases b id false _)

/-- At the outset nothing is held but what is stored. -/
lemma of_opened (h : b.Opened) : Granted b.config.mqtt.maxQos b.kept? b where
  configured := rfl
  sessions id session hs := by
    rw [h.session?] at hs
    cases hs
  kept id table hk filter qos hf := .inr ⟨table, hk, hf⟩

end Granted
end Broker
end MqttBroker
