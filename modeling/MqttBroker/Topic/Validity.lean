import MqttBroker.Topic.Level
import MqttBroker.Protocol.Error

/-!
Which texts may name a topic or stand as a subscription filter, and the configured limits on
their length and depth.
-/
namespace MqttBroker.Topic

/-- A limit of zero means there is none. -/
structure Limits where
  maxLength : Nat
  maxLevels : Nat
  deriving DecidableEq, Repr

/-- The separator as a byte of undecoded text. -/
def separatorByte : UInt8 := 0x2f

/-- Count one level more at every separator, until there are too many. -/
def countLevels (max : Nat) : Nat → List UInt8 → Except ProtocolError Unit
  | _, [] => .ok ()
  | levels, byte :: rest =>
    if byte = separatorByte then
      if max < levels + 1 then .error (.topicTooDeep (levels + 1) max)
      else countLevels max (levels + 1) rest
    else countLevels max levels rest

/-- Limits on undecoded bytes: on their number, and then on the number of levels. -/
def checkByteLimits (limits : Limits) (bytes : List UInt8) : Except ProtocolError Unit :=
  if limits.maxLength ≠ 0 ∧ limits.maxLength < bytes.length then
    .error (.topicTooLong bytes.length limits.maxLength)
  else if limits.maxLevels ≠ 0 then countLevels limits.maxLevels 1 bytes
  else .ok ()

/-- The same limits on a text, in UTF-8. -/
def checkLimits (limits : Limits) (text : String) : Except ProtocolError Unit :=
  checkByteLimits limits text.toUTF8.data.toList

/-- A message is published to a topic without wildcards. -/
def validateName (topic : String) : Except ProtocolError Unit :=
  if topic.isEmpty ∨ topic.toList.any (fun c => c == '+' || c == '#' || c == '\x00') then
    .error (.invalidTopicName topic)
  else .ok ()

/-- A wildcard fills a level, and the multi-level wildcard only the last one. -/
def wildcardsPlaced : List Level → Bool
  | [] => true
  | ['#'] :: rest => rest.isEmpty
  | ['+'] :: rest => wildcardsPlaced rest
  | level :: rest => !level.contains '+' && !level.contains '#' && wildcardsPlaced rest

section wildcardsPlaced
variable {level : Level} {filter : List Level}

theorem placed_hash : wildcardsPlaced (['#'] :: filter) ↔ filter = [] := by
  rw [wildcardsPlaced, List.isEmpty_iff]

theorem placed_plus : wildcardsPlaced (['+'] :: filter) ↔ wildcardsPlaced filter := by
  rw [wildcardsPlaced]

theorem placed_literal (hh : level ≠ ['#']) (hp : level ≠ ['+']) :
    wildcardsPlaced (level :: filter) ↔
      ('+' ∉ level ∧ '#' ∉ level) ∧ wildcardsPlaced filter := by
  rw [wildcardsPlaced] <;> simp_all [and_assoc]

theorem placed_tail {first : Level} (h : wildcardsPlaced (first :: filter)) :
    wildcardsPlaced filter := by
  by_cases hh : first = ['#']
  · subst hh
    rw [placed_hash.mp h, wildcardsPlaced]
  by_cases hp : first = ['+']
  · exact placed_plus.mp (hp ▸ h)
  · exact ((placed_literal hh hp).mp h).2

end wildcardsPlaced

def validateFilter (filter : String) : Except ProtocolError Unit :=
  if filter.isEmpty ∨ filter.toList.contains '\x00' then .error (.invalidTopicFilter filter)
  else if wildcardsPlaced (levels filter) then .ok ()
  else .error (.invalidTopicFilter filter)

/-- A filter within the limits. -/
def checkFilter (limits : Limits) (filter : String) : Except ProtocolError Unit := do
  validateFilter filter
  checkLimits limits filter

/-- A concrete topic name within the limits. -/
def checkName (limits : Limits) (topic : String) : Except ProtocolError Unit := do
  validateName topic
  checkLimits limits topic

end MqttBroker.Topic
