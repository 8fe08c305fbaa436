import Mathlib.Tactic
import MqttBroker.Proofs.Connection.Transport
import MqttBroker.Session.Basic

/-!
Lists that are merged from two others, and what a session's queue does to the copies routed to it.
-/
namespace MqttBroker

section interleaving
variable {α : Type}

/-- The last list is merged from the other two, each in its own order. -/
inductive Interleaves : List α → List α → List α → Prop
  | nil : Interleaves [] [] []
  | left {xs ys zs : List α} (x : α) (h : Interleaves xs ys zs) :
    Interleaves (x :: xs) ys (x :: zs)
  | right {xs ys zs : List α} (y : α) (h : Interleaves xs ys zs) :
    Interleaves xs (y :: ys) (y :: zs)

variable {xs ys zs xs' ys' zs' : List α}

lemma Interleaves.append (h : Interleaves xs ys zs) (h' : Interleaves xs' ys' zs') :
    Interleaves (xs ++ xs') (ys ++ ys') (zs ++ zs') := by
  induction h with
  | nil => exact h'
  | left x _ ih => exact .left x ih
  | right y _ ih => exact .right y ih

lemma interleaves_left (xs : List α) : Interleaves xs [] xs := by
  induction xs with
  | nil => exact .nil
  | cons x xs ih => exact .left x ih

lemma interleaves_right (ys : List α) : Interleaves [] ys ys := by
  induction ys with
  | nil => exact .nil
  | cons y ys ih => exact .right y ih

lemma Interleaves.sublist (h : Interleaves xs ys zs) : xs.Sublist zs := by
  induction h with
  | nil => exact .slnil
  | left x _ ih => exact ih.cons_cons x
  | right y _ ih => exact ih.cons y

end interleaving

namespace Session
variable {session : Session} {publish : Publish}

/-- What is pushed out was at the head of the queue. -/
lemma enqueue_displacedBy (session : Session) (max : Nat) (publish : Publish) :
    (session.displacedBy max publish).toList ++ (session.enqueue max publish).queue =
      session.queue ++ [publish] := by
  unfold displacedBy enqueue
  dsimp only
  split
  · cases session.queue <;> rfl
  · rfl

/-- Nothing that is queued is sent at most once, so all of it is kept for later. -/
lemma keepable_eq_self {publishes : List Publish} (h : ∀ publish ∈ publishes, publish.IsCopy) :
    keepable publishes = publishes := by
  rw [keepable, List.filter_eq_self]
  intro publish hp
  simpa using (h publish hp).qos

/-- The queue stays, and no connection is bound anew. -/
structure Left (session next : Session) : Prop where
  clean : next.clean = session.clean
  queue : next.queue = session.queue
  connection : ∀ k, next.connection = some k → session.connection = some k

lemma Left.refl (session : Session) : session.Left session := ⟨rfl, rfl, fun _ => id⟩

end Session

end MqttBroker
