import MqttBroker.Topic.Level

/-!
Filters as sequences of literal levels and wildcards, and the topics they match.
-/
namespace MqttBroker.Topic

/-- A level of a filter.  The wildcards come first in the order. -/
inductive FilterLevel where
  | multi
  | single
  | literal (level : Level)
  deriving DecidableEq, Ord, Repr

namespace FilterLevel

def ofLevel : Level → FilterLevel
  | ['#'] => multi
  | ['+'] => single
  | level => literal level

@[simp] theorem ofLevel_hash : ofLevel ['#'] = multi := rfl

@[simp] theorem ofLevel_plus : ofLevel ['+'] = single := rfl

theorem ofLevel_of_ne {level : Level} (hh : level ≠ ['#']) (hp : level ≠ ['+']) :
    ofLevel level = literal level := by
  unfold ofLevel
  split <;> simp_all

def isWildcard : FilterLevel → Bool
  | literal _ => false
  | _ => true

end FilterLevel

def filterLevels (filter : String) : List FilterLevel := (levels filter).map .ofLevel

/-- The multi-level wildcard also stands for no level at all. -/
def levelsMatch : List FilterLevel → List Level → Bool
  | [], topic => topic.isEmpty
  | .multi :: _, _ => true
  | .single :: filter, _ :: topic => levelsMatch filter topic
  | .literal level :: filter, first :: topic => level == first && levelsMatch filter topic
  | _ :: _, [] => false

/-- A filter that starts with a wildcard character. -/
def startsWild (filter : String) : Bool :=
  match filter.toList.head? with
  | some c => c == '+' || c == '#'
  | none => false

/-- Reserved topics are hidden from filters that start with a wildcard. -/
def topicMatches (topic filter : String) : Bool :=
  !(isReserved topic && startsWild filter) && levelsMatch (filterLevels filter) (levels topic)

example : topicMatches "a" "a/#" = true := by decide
example : topicMatches "$SYS/up" "+/up" = false := by decide

end MqttBroker.Topic
