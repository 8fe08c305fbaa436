import Mathlib.Tactic
import MqttBroker.Storage.Repository

/-!
What a repository holds for one key after calls that may have failed.
-/
namespace MqttBroker

/-- Whether a call is to change what is stored for a key. -/
def RepositoryCall.writes (key : String) : RepositoryCall → Bool
  | save other | delete other => other == key
  | load _ | loadAll => false

namespace Repository
variable {α : Type}

/-- The latest attempt to change what is stored for a key. -/
def lastWrite? (repository : Repository α) (key : String) : Option PastCall :=
  repository.history.find? fun past => past.call.writes key

/-- The latest attempt to change what is stored for a key failed. -/
def Stale (repository : Repository α) (key : String) : Prop :=
  ∃ past, repository.lastWrite? key = some past ∧ past.error ≠ none

/-- Unless the latest attempt to change it failed, the record of a key is the given one. -/
def Holds (repository : Repository α) (key : String) (record : Option α) : Prop :=
  ¬ repository.Stale key → repository.records[key]? = record

/-- One record was asked for at most. -/
def Asked (repository later : Repository α) : Prop :=
  later = repository ∨ ∃ key, later = (repository.load key).2

/-- Nothing was written. -/
structure Consulted (repository later : Repository α) : Prop where
  records : later.records = repository.records
  failure : later.failure = repository.failure
  lastWrite? : ∀ key, later.lastWrite? key = repository.lastWrite? key

variable {repository later : Repository α} {key other : String} {record : Option α}

/-- A call that fails leaves the records, and one that works leaves those it was asked to leave. -/
lemma request_snd {β : Type} (call : RepositoryCall) (result : β) (records : Table α) :
    (repository.request call result records).2 =
      { repository with
        history := ⟨call, repository.obstacle call⟩ :: repository.history
        records := if (repository.obstacle call).isSome then repository.records else records } := by
  unfold request
  cases repository.obstacle call <;> rfl

@[simp] lemma failure_request {β : Type} (call : RepositoryCall) (result : β) (records : Table α) :
    (repository.request call result records).2.failure = repository.failure := by
  rw [request_snd]

lemma load_fst (repository : Repository α) (key : String) :
    (repository.load key).1 = match repository.obstacle (.load key) with
      | some error => .error error
      | none => .ok repository.records[key]? := by
  unfold load request
  cases repository.obstacle (.load key) <;> rfl

lemma lastWrite?_request {β : Type} (call : RepositoryCall) (result : β) (records : Table α) :
    (repository.request call result records).2.lastWrite? key =
      if call.writes key then some ⟨call, repository.obstacle call⟩
      else repository.lastWrite? key := by
  rw [request_snd]
  unfold lastWrite?
  rw [List.find?_cons]
  cases call.writes key <;> rfl

/-- A write that works leaves what it was asked to leave, and others are not concerned. -/
lemma Holds.request {β : Type} {call : RepositoryCall} {result : β} {records : Table α}
    (hw : call.writes key → records[key]? = record)
    (hn : call.writes key = false → repository.Holds key record ∧
      records[key]? = repository.records[key]?) :
    (repository.request call result records).2.Holds key record := by
  intro hs
  have hl : (repository.request call result records).2.lastWrite? key = _ :=
    lastWrite?_request call result records
  cases hc : call.writes key with
  | true =>
    rw [hc, if_pos rfl] at hl
    have ho : repository.obstacle call = none := by
      by_contra ho
      exact hs ⟨_, hl, ho⟩
    rw [request_snd, ho]
    exact hw hc
  | false =>
    rw [hc, if_neg nofun] at hl
    obtain ⟨hh, he⟩ := hn hc
    have hr : repository.records[key]? = record := hh fun ⟨past, hp, hf⟩ => hs ⟨past, hl.trans hp, hf⟩
    rw [request_snd]
    dsimp only
    split
    · exact hr
    · exact he.trans hr

lemma holds_save (repository : Repository α) (key : String) (record : α) :
    (repository.save key record).2.Holds key (some record) := by
  refine Holds.request (fun _ => Std.ExtTreeMap.getElem?_insert_self) fun h => ?_
  simp [RepositoryCall.writes] at h

lemma holds_delete (repository : Repository α) (key : String) :
    (repository.delete key).2.Holds key none := by
  refine Holds.request (fun _ => Std.ExtTreeMap.getElem?_erase_self) fun h => ?_
  simp [RepositoryCall.writes] at h

lemma Holds.save_of_ne (h : repository.Holds key record) (hn : other ≠ key) (saved : α) :
    (repository.save other saved).2.Holds key record := by
  refine Holds.request (fun hw => ?_) fun _ => ⟨h, ?_⟩
  · exact absurd (by simpa [RepositoryCall.writes] using hw) hn
  · simp [Std.ExtTreeMap.getElem?_insert, hn]

lemma Holds.delete_of_ne (h : repository.Holds key record) (hn : other ≠ key) :
    (repository.delete other).2.Holds key record := by
  refine Holds.request (fun hw => ?_) fun _ => ⟨h, ?_⟩
  · exact absurd (by simpa [RepositoryCall.writes] using hw) hn
  · simp [Std.ExtTreeMap.getElem?_erase, hn]

/-- No call ever fails. -/
def Reliable (repository : Repository α) : Prop := ∀ n call, repository.failure n call = none

lemma Reliable.congr (h : repository.Reliable) (hf : later.failure = repository.failure) :
    later.Reliable := by
  intro n call
  rw [hf]
  exact h n call

lemma Reliable.getElem?_save (h : repository.Reliable) (key other : String) (record : α) :
    (repository.save key record).2.records[other]? =
      if key = other then some record else repository.records[other]? := by
  have ho : repository.obstacle (.save key) = none := h _ _
  rw [records_save, ho]
  simp [Std.ExtTreeMap.getElem?_insert]

lemma Reliable.getElem?_delete (h : repository.Reliable) (key other : String) :
    (repository.delete key).2.records[other]? =
      if key = other then none else repository.records[other]? := by
  have ho : repository.obstacle (.delete key) = none := h _ _
  rw [records_delete, ho]
  simp [Std.ExtTreeMap.getElem?_erase]

namespace Consulted

lemma refl (repository : Repository α) : Consulted repository repository := ⟨rfl, rfl, fun _ => rfl⟩

lemma load (repository : Repository α) (key : String) :
    Consulted repository (repository.load key).2 where
  records := repository.records_load key
  failure := failure_request _ _ _
  lastWrite? _ := lastWrite?_request (.load key) _ _

lemma of_asked (h : repository.Asked later) : Consulted repository later := by
  obtain rfl | ⟨key, rfl⟩ := h
  · exact refl _
  · exact load repository key

lemma holds (h : Consulted repository later) (hr : repository.Holds key record) :
    later.Holds key record := by
  intro hs
  rw [h.records]
  refine hr fun ⟨past, hp, hf⟩ => hs ⟨past, ?_, hf⟩
  rw [h.lastWrite?, hp]

end Consulted
end Repository
end MqttBroker
