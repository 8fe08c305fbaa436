import MqttBroker.Subscription.Trie

/-!
Who is subscribed to what: a tree of filters and the number of its (filter, client) pairs.
-/
namespace MqttBroker.Subscription
open Topic

structure Directory where
  trie : Trie
  size : Nat

namespace Directory

def empty : Directory := ⟨.leaf, 0⟩

/-- The QoS a client is granted for a filter. -/
def find? (directory : Directory) (filter : String) (client : ClientId) : Option QoS :=
  (directory.trie.find (filterLevels filter))[client]?

def contains (directory : Directory) (filter : String) (client : ClientId) : Bool :=
  (directory.find? filter client).isSome

/-- Subscribe a client, replacing the QoS of an earlier subscription to the same filter.  The answer
says whether the subscription is a new one. -/
def add (directory : Directory) (filter : String) (client : ClientId) (qos : QoS) :
    Bool × Directory :=
  let isNew := !directory.contains filter client
  (isNew, { trie := directory.trie.alter (·.insert client qos) (filterLevels filter)
            size := if isNew then directory.size + 1 else directory.size })

/-- Unsubscribe a client from one filter, and whether it was subscribed to it. -/
def remove (directory : Directory) (filter : String) (client : ClientId) : Bool × Directory :=
  if directory.contains filter client then
    (true, { trie := directory.trie.alter (·.erase client) (filterLevels filter)
             size := directory.size - 1 })
  else (false, directory)

def addAll (directory : Directory) (client : ClientId) (grants : List (String × QoS)) :
    Directory :=
  grants.foldl (fun directory grant => (directory.add grant.1 client grant.2).2) directory

/-- Unsubscribe a client from a list of filters, and how many of them it was subscribed to. -/
def removeAll (directory : Directory) (client : ClientId) : List String → Nat × Directory
  | [] => (0, directory)
  | filter :: filters =>
    let (wasHeld, directory) := directory.remove filter client
    let (count, directory) := directory.removeAll client filters
    (if wasHeld then count + 1 else count, directory)

/-- Keep the highest QoS of each client. -/
def strongest (grants : List (ClientId × QoS)) : Table QoS :=
  grants.foldl (fun best (client, qos) =>
    best.alter client fun
      | some other => some (max other qos)
      | none => some qos) ∅

/-- The clients a topic reaches, each at the highest QoS among its matching filters.  Reserved
topics are hidden from filters whose first level is a wildcard. -/
def matching (directory : Directory) (topic : String) : Table QoS :=
  strongest ((if isReserved topic then directory.trie.withoutWildcards
    else directory.trie).collect (levels topic))

def isEmpty (directory : Directory) : Bool := directory.size == 0

end Directory
end MqttBroker.Subscription
