import MqttBroker.Topic.Filter
import MqttBroker.Protocol.Packet
import MqttBroker.Storage.Repository

/-!
The last retained message of every topic.  Memory is authoritative; a repository, where there is
one, follows every change, and its failures are not reported.
-/
namespace MqttBroker

/-- A retained message as a repository keeps it, under its topic. -/
structure StoredMessage where
  qos : Nat
  payload : Bytes
  storedAt : Nat
  deriving DecidableEq, Repr

namespace StoredMessage

def ofPublish (publish : Publish) (now : Nat) : StoredMessage :=
  ⟨publish.qos.toNat, publish.payload, now⟩

/-- A stored QoS out of range counts as at-most-once. -/
def toPublish (stored : StoredMessage) (topic : String) : Publish :=
  { topic, payload := stored.payload, qos := (QoS.ofNat? stored.qos).getD .atMostOnce
    retain := true, dup := false, id := none }

end StoredMessage

/-- The message kept for a retained publish. -/
def Publish.asRetained (publish : Publish) : Publish :=
  { publish with retain := true, dup := false, id := none }

/-- A message as it is kept under its topic: marked as retained, and without the traces of a
delivery. -/
structure Publish.IsRetained (topic : String) (publish : Publish) : Prop where
  topic : publish.topic = topic
  retain : publish.retain = true
  dup : publish.dup = false
  id : publish.id = none

structure RetainedStore where
  messages : Table Publish
  repository : Option (Repository StoredMessage)
  /-- The time written on stored records. -/
  clock : Nat
  marked : ∀ (topic : String) (publish : Publish), messages[topic]? = some publish →
    publish.IsRetained topic

namespace RetainedStore

/-- Nothing retained, and nowhere to keep it. -/
def inMemory : RetainedStore := ⟨∅, none, 0, by simp⟩

/-- The messages of a repository; records without payload are left out. -/
def messagesOf (records : List (String × StoredMessage)) : Table Publish :=
  Table.ofEntries ((records.filter fun record => !record.2.payload.isEmpty).map
    fun record => (record.1, record.2.toPublish record.1))

theorem marked_messagesOf {records : List (String × StoredMessage)} (topic : String)
    (publish : Publish) (h : (messagesOf records)[topic]? = some publish) :
    publish.IsRetained topic := by
  obtain ⟨record, -, he⟩ := List.mem_map.mp (Table.mem_of_getElem?_ofEntries h)
  cases he
  exact ⟨rfl, rfl, rfl, rfl⟩

/-- Seed a store from its repository.  The repository comes back even if it cannot be read. -/
def openOn (repository : Repository StoredMessage) :
    Except StorageError RetainedStore × Repository StoredMessage :=
  match repository.loadAll with
  | (.ok records, repository) =>
    (.ok ⟨messagesOf records, some repository, 0, marked_messagesOf⟩, repository)
  | (.error error, repository) => (.error error, repository)

def set (store : RetainedStore) (publish : Publish) : RetainedStore :=
  { store with
    messages := store.messages.insert publish.topic publish.asRetained
    repository := store.repository.map fun repository =>
      (repository.save publish.topic (.ofPublish publish store.clock)).2
    marked := fun topic message h => by
      rw [Std.ExtTreeMap.getElem?_insert] at h
      split at h
      next he =>
        cases h
        exact ⟨Std.LawfulEqCmp.eq_of_compare he, rfl, rfl, rfl⟩
      next => exact store.marked topic message h }

/-- Forget a topic, and whether there was something to forget.  The repository is told even if
memory holds nothing for the topic. -/
def clear (store : RetainedStore) (topic : String) : Bool × RetainedStore :=
  (store.messages.contains topic,
    { store with
      messages := store.messages.erase topic
      repository := store.repository.map fun repository => (repository.delete topic).2
      marked := fun other message h => by
        rw [Std.ExtTreeMap.getElem?_erase] at h
        split at h
        next => cases h
        next => exact store.marked other message h })

/-- An empty payload clears its topic, any other becomes the retained message. -/
def apply (store : RetainedStore) (publish : Publish) : RetainedStore :=
  if publish.payload.isEmpty then (store.clear publish.topic).2 else store.set publish

def get? (store : RetainedStore) (topic : String) : Option Publish := store.messages[topic]?

/-- The messages whose topic matches the filter, in topic order. -/
def matching (store : RetainedStore) (filter : String) : List Publish :=
  (store.messages.toList.filter fun entry => Topic.topicMatches entry.1 filter).map (·.2)

def size (store : RetainedStore) : Nat := store.messages.size

def isEmpty (store : RetainedStore) : Bool := store.messages.isEmpty

end RetainedStore
end MqttBroker
