import MqttBroker.Table
import MqttBroker.Topic.Filter
import MqttBroker.Protocol.Packet

/-!
Subscriptions in a tree of filter levels.  Branches stand in increasing order of their level, and
a branch is left out when nothing is subscribed at it or below it, so equal subscriptions make
equal trees.
-/
namespace MqttBroker.Subscription
open Topic

/-- The clients subscribed to one filter, with the granted QoS. -/
abbrev Subscribers := Table QoS

/-- A branch holds the subscribers of the filter that ends there, the branches one level further
down, and its next sibling. -/
inductive Trie where
  | leaf
  | branch (level : FilterLevel) (here : Subscribers) (below next : Trie)

namespace Trie

instance : Inhabited Trie := ⟨leaf⟩

def isLeaf : Trie → Bool
  | leaf => true
  | branch .. => false

/-- Put a branch in front of its siblings unless it is empty. -/
def graft (level : FilterLevel) (here : Subscribers) (below next : Trie) : Trie :=
  if here.isEmpty && below.isLeaf then next else branch level here below next

/-- The subscribers of the filter spelled by the path. -/
def find : List FilterLevel → Trie → Subscribers
  | [], _ => ∅
  | _, leaf => ∅
  | level :: path, branch first here below next =>
    if level = first then if path.isEmpty then here else find path below
    else find (level :: path) next

/-- The tree of one path, whose subscribers are `change ∅`. -/
def spine (change : Subscribers → Subscribers) : List FilterLevel → Trie
  | [] => leaf
  | [level] => graft level (change ∅) leaf leaf
  | level :: path => graft level ∅ (spine change path) leaf

/-- Change the subscribers of one path and prune what becomes empty. -/
def alter (change : Subscribers → Subscribers) : List FilterLevel → Trie → Trie
  | [], trie => trie
  | path@(_ :: _), leaf => spine change path
  | level :: path, branch first here below next =>
    match compare level first with
    | .lt =>
      graft level (if path.isEmpty then change ∅ else ∅) (spine change path)
        (branch first here below next)
    | .eq =>
      graft first (if path.isEmpty then change here else here) (alter change path below) next
    | .gt => branch first here below (alter change (level :: path) next)

/-- Whom a topic reaches: along each branch that fits the first level, and through a multi-level
wildcard whatever follows.  A client is listed once for every filter of its that matches. -/
def collect : List Level → Trie → List (ClientId × QoS)
  | _, leaf => []
  | topic, branch first here below next =>
    (match first, topic with
      | .multi, _ => here.toList
      | .single, _ :: rest => (if rest.isEmpty then here.toList else []) ++ collect rest below
      | .literal level, front :: rest =>
        if level = front then (if rest.isEmpty then here.toList else []) ++ collect rest below
        else []
      | _, [] => []) ++ collect topic next

/-- The branches whose first level is no wildcard. -/
def withoutWildcards : Trie → Trie
  | leaf => leaf
  | branch first here below next =>
    if first.isWildcard then withoutWildcards next
    else branch first here below (withoutWildcards next)

/-- Every path with subscribers, below the given one. -/
def entries (above : List FilterLevel) : Trie → List (List FilterLevel × Subscribers)
  | leaf => []
  | branch level here below next =>
    (above ++ [level], here) :: entries (above ++ [level]) below ++ entries above next

end Trie
end MqttBroker.Subscription
