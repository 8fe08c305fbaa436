import MqttBroker.Table
import MqttBroker.Storage.Error

/-!
A durable map whose calls may fail.  A failed call changes no record.  Which calls fail is a
schedule over the calls made so far, so that every pattern of failures can be spoken of.
-/
namespace MqttBroker

/-- What a repository is asked to do, and for which key. -/
inductive RepositoryCall where
  | load (key : String)
  | save (key : String)
  | delete (key : String)
  | loadAll
  deriving DecidableEq, Repr

namespace RepositoryCall

def isLoad : RepositoryCall → Bool
  | load _ => true
  | _ => false

def isSave : RepositoryCall → Bool
  | save _ => true
  | _ => false

def isDelete : RepositoryCall → Bool
  | delete _ => true
  | _ => false

def isLoadAll : RepositoryCall → Bool
  | loadAll => true
  | _ => false

end RepositoryCall

/-- What the n-th call meets, if it fails. -/
abbrev FailureSchedule := Nat → RepositoryCall → Option StorageError

/-- A call that was made, and the error it met, if any. -/
structure PastCall where
  call : RepositoryCall
  error : Option StorageError
  deriving DecidableEq, Repr

structure Repository (α : Type) where
  records : Table α
  /-- The calls so far, the latest one first. -/
  history : List PastCall
  failure : FailureSchedule

namespace Repository

variable {α : Type}

/-- A repository that was never called and never fails. -/
def ofRecords (records : Table α) : Repository α := ⟨records, [], fun _ _ => none⟩

def empty : Repository α := ofRecords ∅

/-- The failure that a call made now meets. -/
def obstacle (repository : Repository α) (call : RepositoryCall) : Option StorageError :=
  repository.failure repository.history.length call

/-- Make a call that yields a result and new records unless it fails. -/
def request {β : Type} (repository : Repository α) (call : RepositoryCall) (result : β)
    (records : Table α) : Except StorageError β × Repository α :=
  let error := repository.obstacle call
  let history := ⟨call, error⟩ :: repository.history
  match error with
  | some error => (.error error, { repository with history })
  | none => (.ok result, { repository with history, records })

def load (repository : Repository α) (key : String) :
    Except StorageError (Option α) × Repository α :=
  repository.request (.load key) repository.records[key]? repository.records

def save (repository : Repository α) (key : String) (record : α) :
    Except StorageError Unit × Repository α :=
  repository.request (.save key) () (repository.records.insert key record)

def delete (repository : Repository α) (key : String) :
    Except StorageError Unit × Repository α :=
  repository.request (.delete key) () (repository.records.erase key)

/-- Every record, in key order. -/
def loadAll (repository : Repository α) :
    Except StorageError (List (String × α)) × Repository α :=
  repository.request .loadAll repository.records.toList repository.records

/-- From now on the calls of one kind fail with the given error, or work if there is none. -/
def setFailure (repository : Repository α) (concerned : RepositoryCall → Bool)
    (failure : Option StorageError) : Repository α :=
  { repository with
    failure := fun n call => if concerned call then failure else repository.failure n call }

theorem records_save (repository : Repository α) (key : String) (record : α) :
    (repository.save key record).2.records =
      if (repository.obstacle (.save key)).isSome then repository.records
      else repository.records.insert key record := by
  unfold save request
  cases repository.obstacle (.save key) <;> rfl

theorem records_delete (repository : Repository α) (key : String) :
    (repository.delete key).2.records =
      if (repository.obstacle (.delete key)).isSome then repository.records
      else repository.records.erase key := by
  unfold delete request
  cases repository.obstacle (.delete key) <;> rfl

@[simp] theorem records_load (repository : Repository α) (key : String) :
    (repository.load key).2.records = repository.records := by
  unfold load request
  cases repository.obstacle (.load key) <;> rfl

@[simp] theorem records_loadAll (repository : Repository α) :
    repository.loadAll.2.records = repository.records := by
  unfold loadAll request
  cases repository.obstacle .loadAll <;> rfl

end Repository
end MqttBroker
