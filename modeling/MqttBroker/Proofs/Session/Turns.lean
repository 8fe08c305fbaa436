import MqttBroker.Proofs.Table
import MqttBroker.Protocol.QoS

/-!
What happened to the subscriptions of a client, and what is left of them: its CONNECTs, the filters
it was granted and gave up, and the ends of its session.
-/
namespace MqttBroker

/-- What may happen to the subscriptions of a client. -/
inductive Turn where
  /-- A CONNECT bound a connection for the client.  Filters may be barred for it by then. -/
  | bound (clean : Bool) (barred : String → Bool)
  | granted (filter : String) (qos : QoS)
  | removed (filter : String)
  | expired

namespace Turn

/-- The turns that a client took.  The latest one comes first, here and below. -/
abbrev Past := List Turn

/-- The latest CONNECT asked for a session that is not clean, and that has not expired since. -/
def persists : Past → Bool
  | [] => false
  | bound clean _ :: _ => !clean
  | expired :: _ => false
  | granted _ _ :: earlier | removed _ :: earlier => persists earlier

/-- A CONNECT resumes the session if neither side is clean. -/
def resumes (clean : Bool) (earlier : Past) : Bool := !clean && persists earlier

/-- The turns since the latest CONNECT that did not resume the session. -/
def sinceReset : Past → Past
  | [] => []
  | bound clean barred :: earlier =>
    if resumes clean earlier then bound clean barred :: sinceReset earlier else []
  | turn :: earlier => turn :: sinceReset earlier

/-- What one turn does to the subscriptions of a session that is there. -/
def apply (turn : Turn) (subscriptions : Table QoS) : Table QoS :=
  match turn with
  | bound _ barred => subscriptions.filter fun filter _ => !barred filter
  | granted filter qos => subscriptions.insert filter qos
  | removed filter => subscriptions.erase filter
  | expired => subscriptions

/-- The subscriptions that some turns lead to. -/
def replay (past : Past) : Table QoS := past.foldr apply ∅

/-- What one turn does to what is kept for a client that comes back. -/
def carry (turn : Turn) (kept : Option (Table QoS)) : Option (Table QoS) :=
  match turn with
  | bound clean _ => if clean then none else some (turn.apply (kept.getD ∅))
  | granted _ _ | removed _ => kept.map turn.apply
  | expired => none

/-- What is made of it by some turns, of which the latest one comes last. -/
abbrev carryAll (turns : List Turn) (kept : Option (Table QoS)) : Option (Table QoS) :=
  turns.foldl (fun left turn => turn.carry left) kept

/-- What is kept for a client after the turns it took. -/
def kept (past : Past) : Option (Table QoS) := past.foldr carry none

/-- The turn neither bound a connection nor ended the session. -/
def IsChange (turn : Turn) : Prop :=
  turn ≠ expired ∧ ∀ clean barred, turn ≠ bound clean barred

/-- The latest CONNECT that was bound for the client did not ask for a clean session, and the session
has not expired since. -/
def Lasts (past : Past) : Prop := ∃ since barred earlier,
  past = since ++ bound false barred :: earlier ∧ ∀ turn ∈ since, turn.IsChange

section lasting
variable {turn : Turn} {earlier : Past}

lemma lasts_cons (ht : turn.IsChange) : Lasts (turn :: earlier) ↔ Lasts earlier := by
  constructor
  · rintro ⟨since, barred, first, he, hs⟩
    cases since with
    | nil => exact absurd (List.cons.inj he).1 (ht.2 false barred)
    | cons other since =>
      exact ⟨since, barred, first, (List.cons.inj he).2, fun next hn =>
        hs next (List.mem_cons_of_mem _ hn)⟩
  · rintro ⟨since, barred, first, rfl, hs⟩
    exact ⟨turn :: since, barred, first, rfl, List.forall_mem_cons.mpr ⟨ht, hs⟩⟩

/-- A turn that is no change has to be the CONNECT that is looked for. -/
lemma lasts_cons_of_not_isChange (ht : ¬ turn.IsChange) :
    Lasts (turn :: earlier) ↔ ∃ barred, turn = bound false barred := by
  constructor
  · rintro ⟨since, barred, first, he, hs⟩
    cases since with
    | nil => exact ⟨barred, (List.cons.inj he).1⟩
    | cons other since =>
      obtain ⟨rfl, -⟩ := List.cons.inj he
      exact absurd (hs turn List.mem_cons_self) ht
  · rintro ⟨barred, rfl⟩
    exact ⟨[], barred, earlier, rfl, by simp⟩

theorem persists_iff (past : Past) : persists past = true ↔ Lasts past := by
  induction past with
  | nil => simp [persists, Lasts]
  | cons turn earlier ih =>
    cases turn with
    | bound clean barred =>
      rw [lasts_cons_of_not_isChange fun h => h.2 clean barred rfl]
      simp [persists]
    | granted filter qos =>
      rw [lasts_cons ⟨by simp, by simp⟩]
      exact ih
    | removed filter =>
      rw [lasts_cons ⟨by simp, by simp⟩]
      exact ih
    | expired =>
      rw [lasts_cons_of_not_isChange fun h => h.1 rfl]
      simp [persists]

end lasting

lemma getElem?_apply_bound (clean : Bool) (barred : String → Bool) (subscriptions : Table QoS)
    (filter : String) : ((bound clean barred).apply subscriptions)[filter]? =
      if barred filter then none else subscriptions[filter]? := by
  rw [apply, Std.ExtTreeMap.getElem?_filter']
  cases barred filter <;> cases subscriptions[filter]? <;> rfl

lemma apply_bound_empty (clean : Bool) (barred : String → Bool) :
    (bound clean barred).apply ∅ = ∅ := by
  refine Std.ExtTreeMap.ext_getElem? fun {filter} => ?_
  rw [getElem?_apply_bound]
  simp

/-- A session that lasts has the subscriptions that came about since it was there. -/
theorem kept_eq (past : Past) :
    kept past = if persists past then some (replay (sinceReset past)) else none := by
  induction past with
  | nil => rfl
  | cons turn earlier ih =>
    have hk : kept (turn :: earlier) = turn.carry (kept earlier) := rfl
    rw [hk, ih]
    cases turn with
    | bound clean barred =>
      cases clean with
      | true => rfl
      | false =>
        have hs : sinceReset (bound false barred :: earlier) =
            if persists earlier then bound false barred :: sinceReset earlier else [] := rfl
        rw [hs]
        cases persists earlier with
        | true => rfl
        | false => exact congrArg some (apply_bound_empty false barred)
    | granted filter qos | removed filter =>
      change Option.map _ (if persists earlier then _ else _) = if persists earlier then _ else _
      cases persists earlier with
      | true => rfl
      | false => rfl
    | expired => rfl

lemma isSome_kept (past : Past) : (kept past).isSome = persists past := by
  rw [kept_eq]
  cases persists past with
  | true => rfl
  | false => rfl

/-- A bind that does not resume the session leaves none of the subscriptions from before. -/
lemma apply_kept (clean : Bool) (barred : String → Bool) (past : Past) :
    (if clean then ∅ else (bound clean barred).apply ((kept past).getD ∅)) =
      if resumes clean past then replay (bound clean barred :: sinceReset past) else ∅ := by
  rw [kept_eq, resumes]
  cases clean with
  | true => rfl
  | false =>
    cases persists past with
    | true => rfl
    | false => exact apply_bound_empty false barred

/-- What is kept after some more turns. -/
lemma kept_append (turns : List Turn) (past : Past) :
    kept (turns.reverse ++ past) = carryAll turns (kept past) := by
  rw [kept, List.foldr_append, List.foldr_reverse]
  rfl

end Turn
end MqttBroker
