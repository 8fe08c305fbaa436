import Mathlib.Tactic
import MqttBroker.Proofs.Topic.Filter
import MqttBroker.Subscription.Trie

/-!
Trees of filter levels as maps from paths to subscribers.  In a canonical tree siblings stand in
increasing order and no branch is empty.  A change of one path is seen by that path alone, and a
topic collects the subscribers of the paths that match it.
-/
namespace MqttBroker.Subscription
open Topic

namespace Trie

/-- The first branch, if there is one, comes after the level. -/
def After (level : FilterLevel) : Trie → Prop
  | leaf => True
  | branch first _ _ _ => compare level first = .lt

inductive Canonical : Trie → Prop
  | leaf : Canonical leaf
  | branch {level : FilterLevel} {here : Subscribers} {below next : Trie}
      (occupied : ¬(here = ∅ ∧ below = .leaf)) (canonical_below : Canonical below)
      (canonical_next : Canonical next) (after : next.After level) :
      Canonical (.branch level here below next)

lemma After.trans {a b : FilterLevel} {t : Trie} (hab : compare a b = .lt) (h : t.After b) :
    t.After a := by
  cases t with
  | leaf => trivial
  | branch => exact Std.TransCmp.lt_trans hab h

lemma isLeaf_iff {t : Trie} : t.isLeaf ↔ t = leaf := by cases t <;> simp [isLeaf]

@[simp] lemma find_nil (t : Trie) : find [] t = ∅ := by cases t <;> rfl

@[simp] lemma find_leaf (path : List FilterLevel) : find path leaf = ∅ := by cases path <;> rfl

lemma find_of_after {level : FilterLevel} {t : Trie} (h : t.Canonical) (ha : t.After level)
    (path : List FilterLevel) : find (level :: path) t = ∅ := by
  induction h with
  | leaf => rfl
  | @branch first here below next _ _ _ after _ ih =>
    have hne : level ≠ first := by
      rintro rfl
      simp [After] at ha
    rw [find, if_neg hne]
    exact ih (after.trans ha)

section graft
variable {level : FilterLevel} {here : Subscribers} {below next : Trie}

lemma canonical_graft (hb : below.Canonical) (hn : next.Canonical) (ha : next.After level) :
    (graft level here below next).Canonical := by
  unfold graft
  split
  · exact hn
  next h =>
    refine .branch ?_ hb hn ha
    rintro ⟨rfl, rfl⟩
    simp [isLeaf] at h

lemma After.graft {first : FilterLevel} (hl : compare first level = .lt)
    (ha : next.After level) : (graft level here below next).After first := by
  unfold Trie.graft
  split
  · exact ha.trans hl
  · exact hl

lemma find_graft (hn : next.Canonical) (ha : next.After level) (l : FilterLevel)
    (path : List FilterLevel) :
    find (l :: path) (graft level here below next) =
      if l = level then if path.isEmpty then here else find path below
      else find (l :: path) next := by
  unfold graft
  split
  next h =>
    simp only [Bool.and_eq_true, Std.ExtTreeMap.isEmpty_iff, isLeaf_iff] at h
    obtain ⟨rfl, rfl⟩ := h
    split_ifs with hl
    · rw [hl]
      exact find_of_after hn ha path
    · rw [hl, find_of_after hn ha, find_leaf]
    · rfl
  · rw [find]

end graft

section alter
variable (change : Subscribers → Subscribers)

lemma canonical_spine (path : List FilterLevel) : (spine change path).Canonical := by
  fun_induction spine change path with
  | case1 => exact .leaf
  | case2 => exact canonical_graft .leaf .leaf trivial
  | case3 level path _ ih => exact canonical_graft ih .leaf trivial

lemma spine_after {l level : FilterLevel} (hl : compare l level = .lt)
    (path : List FilterLevel) : (spine change (level :: path)).After l := by
  cases path with
  | nil => exact After.graft hl trivial
  | cons => exact After.graft hl trivial

lemma find_spine {path : List FilterLevel} (hp : path ≠ []) (other : List FilterLevel) :
    find other (spine change path) = if other = path then change ∅ else ∅ := by
  induction path generalizing other with
  | nil => contradiction
  | cons level path ih =>
    cases other with
    | nil => simp
    | cons l other =>
      cases path with
      | nil =>
        rw [spine, find_graft .leaf trivial]
        cases other <;> by_cases hl : l = level <;> simp [hl]
      | cons second path =>
        rw [spine, find_graft .leaf trivial, ih (by simp)]
        · cases other <;> by_cases hl : l = level <;> simp [hl]
        · simp

lemma After.alter {l level : FilterLevel} {path : List FilterLevel} {t : Trie}
    (ht : t.Canonical) (hl : compare l level = .lt) (ha : t.After l) :
    (alter change (level :: path) t).After l := by
  cases ht with
  | leaf => exact spine_after change hl path
  | @branch first here below next _ _ _ after =>
    rw [Trie.alter]
    split
    · exact After.graft hl ‹_›
    · exact After.graft ha after
    · exact ha

lemma canonical_alter (path : List FilterLevel) {t : Trie} (ht : t.Canonical) :
    (alter change path t).Canonical := by
  induction ht generalizing path with
  | leaf =>
    cases path with
    | nil => exact .leaf
    | cons level path => exact canonical_spine change (level :: path)
  | @branch first here below next occupied hb hn after ihb ihn =>
    cases path with
    | nil => exact .branch occupied hb hn after
    | cons level path =>
      rw [alter]
      split
      next h => exact canonical_graft (canonical_spine change path) (.branch occupied hb hn after) h
      next => exact canonical_graft (ihb path) hn after
      next h =>
        refine .branch occupied hb (ihn _) (After.alter change hn ?_ after)
        exact Std.OrientedCmp.lt_of_gt h

/-- A change of one path is a change of the subscribers found there, and of no others. -/
theorem find_alter {path : List FilterLevel} (hp : path ≠ []) {t : Trie} (ht : t.Canonical)
    (other : List FilterLevel) :
    find other (alter change path t) =
      if other = path then change (find path t) else find other t := by
  induction ht generalizing path other with
  | leaf =>
    obtain ⟨level, path, rfl⟩ := List.exists_cons_of_ne_nil hp
    rw [alter, find_spine change hp]
    simp
  | @branch first here below next occupied hb hn after ihb ihn =>
    obtain ⟨level, path, rfl⟩ := List.exists_cons_of_ne_nil hp
    cases other with
    | nil => simp
    | cons l other =>
      rw [alter]
      split
      next h =>
        -- The path starts before every branch there is, so nothing is found at it yet.
        have hnew : find (level :: path) (branch first here below next) = ∅ :=
          find_of_after (.branch occupied hb hn after) h path
        rw [find_graft (.branch occupied hb hn after) h, hnew]
        by_cases hl : l = level
        · subst hl
          rw [find_of_after (.branch occupied hb hn after) h other]
          cases path with
          | nil => cases other <;> simp [spine]
          | cons second path => cases other <;> simp [find_spine change (List.cons_ne_nil _ _)]
        · simp [hl]
      next h =>
        obtain rfl := Std.LawfulEqOrd.eq_of_compare h
        rw [find_graft hn after]
        by_cases hl : l = level
        · subst hl
          cases path with
          | nil => cases other <;> simp [alter, find]
          | cons second path => cases other <;> simp [find, ihb (List.cons_ne_nil _ _)]
        · simp [hl, find]
      next h =>
        have hne : level ≠ first := by
          rintro rfl
          simp at h
        rw [find, ihn hp]
        by_cases hl : l = first
        · subst hl
          simp [find, Ne.symm hne]
        · simp [find, hl, hne]

end alter

section collect
variable {client : ClientId} {qos : QoS} {here : Subscribers} {below next : Trie}

/-- The subscribers of a branch, split by how the path goes on: it ends at the branch or goes on
below it. -/
lemma mem_step (rest : List Level)
    (ih : (client, qos) ∈ collect rest below ↔ ∃ path, path ≠ [] ∧ MultiLast path ∧
      levelsMatch path rest ∧ (find path below)[client]? = some qos) :
    (client, qos) ∈ (if rest.isEmpty then here.toList else []) ++ collect rest below ↔
      ∃ path, MultiLast path ∧ levelsMatch path rest ∧
        (if path.isEmpty then here else find path below)[client]? = some qos := by
  rw [List.mem_append, ih]
  constructor
  · rintro (h | ⟨path, hp, hm, hl, hf⟩)
    · split at h
      next hr =>
        refine ⟨[], trivial, by simpa [levelsMatch] using hr, ?_⟩
        simpa using Std.ExtTreeMap.mem_toList_iff_getElem?_eq_some.mp h
      · simp at h
    · exact ⟨path, hm, hl, by simpa [hp] using hf⟩
  · rintro ⟨path, hm, hl, hf⟩
    cases path with
    | nil =>
      left
      rw [if_pos (by simpa [levelsMatch] using hl)]
      exact Std.ExtTreeMap.mem_toList_iff_getElem?_eq_some.mpr (by simpa using hf)
    | cons level path => exact .inr ⟨level :: path, by simp, hm, hl, by simpa using hf⟩

lemma exists_path_branch {first : FilterLevel} (hn : next.Canonical) (after : next.After first)
    (p q : List FilterLevel → Prop) :
    (∃ path, path ≠ [] ∧ p path ∧ q path ∧
        (find path (branch first here below next))[client]? = some qos) ↔
      (∃ path, p (first :: path) ∧ q (first :: path) ∧
        (if path.isEmpty then here else find path below)[client]? = some qos) ∨
      ∃ path, path ≠ [] ∧ p path ∧ q path ∧ (find path next)[client]? = some qos := by
  constructor
  · rintro ⟨path, hne, hp, hq, hf⟩
    obtain ⟨level, path, rfl⟩ := List.exists_cons_of_ne_nil hne
    rw [find] at hf
    split at hf
    next hl =>
      subst hl
      exact .inl ⟨path, hp, hq, hf⟩
    next => exact .inr ⟨_, hne, hp, hq, hf⟩
  · rintro (⟨path, hp, hq, hf⟩ | ⟨path, hne, hp, hq, hf⟩)
    · exact ⟨first :: path, by simp, hp, hq, by rwa [find, if_pos rfl]⟩
    · obtain ⟨level, path, rfl⟩ := List.exists_cons_of_ne_nil hne
      refine ⟨level :: path, hne, hp, hq, ?_⟩
      rw [find, if_neg, hf]
      rintro rfl
      rw [find_of_after hn after] at hf
      simp at hf

/-- A topic reaches a client once for each of its paths that match. -/
theorem mem_collect {t : Trie} (ht : t.Canonical) (topic : List Level) :
    (client, qos) ∈ collect topic t ↔ ∃ path, path ≠ [] ∧ MultiLast path ∧
      levelsMatch path topic ∧ (find path t)[client]? = some qos := by
  induction ht generalizing topic with
  | leaf => simp [collect]
  | @branch first here below next occupied hb hn after ihb ihn =>
    rw [exists_path_branch hn after, collect.eq_def]
    simp only [List.mem_append, ihn]
    refine or_congr_left ?_
    cases first with
    | multi =>
      simp only [MultiLast, levelsMatch, true_and, exists_eq_left, List.isEmpty_nil, if_true]
      exact Std.ExtTreeMap.mem_toList_iff_getElem?_eq_some
    | single =>
      cases topic with
      | nil => simp [levelsMatch]
      | cons front rest => simpa [MultiLast, levelsMatch] using mem_step rest (ihb rest)
    | literal level =>
      cases topic with
      | nil => simp [levelsMatch]
      | cons front rest =>
        by_cases hl : level = front
        · simpa [MultiLast, levelsMatch, hl] using mem_step rest (ihb rest)
        · simp [levelsMatch, hl]

end collect

section withoutWildcards

/-- Wildcards come before literal levels, so after a literal level there are none. -/
lemma withoutWildcards_of_after {level : Level} {t : Trie} (ht : t.Canonical)
    (ha : t.After (.literal level)) : t.withoutWildcards = t := by
  induction ht generalizing level with
  | leaf => rfl
  | @branch first here below next _ _ _ after _ ih =>
    cases first with
    | multi => contradiction
    | single => contradiction
    | literal first => simp [withoutWildcards, FilterLevel.isWildcard, ih after]

lemma canonical_withoutWildcards {t : Trie} (ht : t.Canonical) : t.withoutWildcards.Canonical := by
  induction ht with
  | leaf => exact .leaf
  | @branch first here below next occupied hb hn after _ ih =>
    unfold withoutWildcards
    split
    · exact ih
    next h =>
      cases first with
      | multi => simp [FilterLevel.isWildcard] at h
      | single => simp [FilterLevel.isWildcard] at h
      | literal first =>
        rw [withoutWildcards_of_after hn after]
        exact .branch occupied hb hn after

/-- Exactly the paths that start with a wildcard are lost. -/
lemma find_withoutWildcards {t : Trie} (ht : t.Canonical) (level : FilterLevel)
    (path : List FilterLevel) :
    find (level :: path) t.withoutWildcards =
      if level.isWildcard then ∅ else find (level :: path) t := by
  induction ht with
  | leaf => simp [withoutWildcards]
  | @branch first here below next _ _ _ _ _ ih =>
    rw [withoutWildcards]
    by_cases hf : first.isWildcard
    · rw [if_pos hf, ih]
      by_cases hl : level = first
      · simp [hl, hf]
      · simp [find, hl]
    · rw [if_neg hf]
      by_cases hl : level = first
      · simp [find, hl, hf]
      · simp [find, hl, ih]

end withoutWildcards

end Trie
end MqttBroker.Subscription
