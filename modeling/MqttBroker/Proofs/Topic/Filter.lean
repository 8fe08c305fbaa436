import Mathlib.Data.List.Basic
import MqttBroker.Topic.Filter
import MqttBroker.Topic.Validity

/-!
Filters as paths: a text is recovered from its levels, the order of levels is a linear order, and
in a valid filter a wildcard fills its level.
-/
namespace MqttBroker.Topic

lemma intercalate_levels (text : String) : ['/'].intercalate (levels text) = text.toList :=
  List.intercalate_splitOn '/'

lemma levels_injective : Function.Injective levels := by
  intro s t h
  apply String.toList_injective
  rw [← intercalate_levels, ← intercalate_levels, h]

@[simp] lemma levels_ne_nil (text : String) : levels text ≠ [] := List.splitOn_ne_nil _ _

/-- A text and its first level start with the same character, unless the level is empty. -/
lemma levels_cons {text : String} {c : Char} {cs : List Char} (h : text.toList = c :: cs)
    (hc : c ≠ '/') : ∃ first rest, levels text = (c :: first) :: rest := by
  unfold levels
  rw [h, List.splitOn_cons_eq_if_modifyHead, if_neg (by simpa using hc)]
  obtain ⟨first, rest, he⟩ := List.exists_cons_of_ne_nil (List.splitOn_ne_nil '/' cs)
  exact ⟨first, rest, by rw [he]; rfl⟩

/-- The characters of a level are characters of the text, and none of them is a separator. -/
lemma mem_text_of_mem_level {text : String} {level : Level} (h : level ∈ levels text) {c : Char}
    (hc : c ∈ level) : c ∈ text.toList ∧ c ≠ '/' := by
  unfold levels at h
  generalize text.toList = cs at h
  induction cs generalizing level with
  | nil =>
    simp only [List.splitOn_nil, List.mem_singleton] at h
    simp [h] at hc
  | cons d cs ih =>
    rw [List.splitOn_cons_eq_if_modifyHead] at h
    split at h
    next =>
      rcases List.mem_cons.mp h with rfl | h
      · simp at hc
      · exact (ih hc h).imp_left (List.mem_cons_of_mem d)
    next hd =>
      obtain ⟨first, rest, he⟩ := List.exists_cons_of_ne_nil (List.splitOn_ne_nil '/' cs)
      rw [he] at h ih
      rcases List.mem_cons.mp h with rfl | h
      · rcases List.mem_cons.mp hc with rfl | hc
        · simpa using hd
        · exact (ih hc (by simp)).imp_left (List.mem_cons_of_mem d)
      · exact (ih hc (by simp [h])).imp_left (List.mem_cons_of_mem d)

/-- Every other character of a text is a character of one of its levels. -/
lemma mem_level_of_mem_text {text : String} {c : Char} (h : c ∈ text.toList) (hc : c ≠ '/') :
    ∃ level ∈ levels text, c ∈ level := by
  rw [← intercalate_levels] at h
  generalize levels text = ls at h ⊢
  induction ls with
  | nil => simp at h
  | cons first ls ih =>
    cases ls with
    | nil => exact ⟨first, by simp, by simpa using h⟩
    | cons second ls =>
      rw [List.intercalate_cons_cons, List.mem_append, List.mem_append, List.mem_singleton] at h
      rcases h with (h | rfl) | h
      · exact ⟨first, by simp, h⟩
      · contradiction
      · obtain ⟨level, hl, hm⟩ := ih h
        exact ⟨level, by simp [hl], hm⟩

/-- Levels without separators are the levels of a text. -/
lemma exists_levels_eq {ls : List Level} (hne : ls ≠ []) (h : ∀ level ∈ ls, '/' ∉ level) :
    ∃ text : String, text.toList = ['/'].intercalate ls ∧ levels text = ls := by
  refine ⟨String.ofList (['/'].intercalate ls), by simp, ?_⟩
  simpa [levels] using List.splitOn_intercalate '/' h hne

namespace FilterLevel

lemma ofLevel_injective : Function.Injective ofLevel := by
  intro a b h
  unfold ofLevel at h
  split at h <;> split at h <;> simp_all

lemma ofLevel_isWildcard {level : Level} :
    (ofLevel level).isWildcard ↔ level = ['#'] ∨ level = ['+'] := by
  unfold ofLevel
  split <;> simp_all [isWildcard]

lemma compare_literal (a b : Level) : compare (literal a) (literal b) = compare a b := by
  change (compare a b).then .eq = compare a b
  exact Ordering.then_eq

instance : Std.OrientedOrd FilterLevel where
  eq_swap {a b} := by
    cases a <;> cases b <;> try rfl
    rw [compare_literal, compare_literal]
    exact Std.OrientedOrd.eq_swap

instance : Std.TransOrd FilterLevel where
  isLE_trans {a b c} hab hbc := by
    cases a <;> cases b <;> cases c <;> try contradiction
    all_goals try rfl
    rw [compare_literal] at *
    exact Std.TransOrd.isLE_trans hab hbc

instance : Std.LawfulEqOrd FilterLevel where
  compare_self {a} := by
    cases a <;> try rfl
    rw [compare_literal]
    exact Std.ReflCmp.compare_self
  eq_of_compare {a b} h := by
    cases a <;> cases b <;> try contradiction
    all_goals try rfl
    rw [compare_literal] at h
    exact congrArg literal (Std.LawfulEqOrd.eq_of_compare h)

end FilterLevel

lemma filterLevels_injective : Function.Injective filterLevels := by
  intro s t h
  exact levels_injective (List.map_injective_iff.mpr FilterLevel.ofLevel_injective h)

@[simp] lemma filterLevels_ne_nil (filter : String) : filterLevels filter ≠ [] := by
  simp [filterLevels]

/-- The multi-level wildcard stands nowhere but at the end. -/
def MultiLast : List FilterLevel → Prop
  | [] => True
  | .multi :: rest => rest = []
  | _ :: rest => MultiLast rest

lemma multiLast_of_wildcardsPlaced {ls : List Level} (h : wildcardsPlaced ls) :
    MultiLast (ls.map .ofLevel) := by
  fun_induction wildcardsPlaced ls with
  | case1 => trivial
  | case2 rest => simpa [MultiLast] using h
  | case3 rest ih => simpa [MultiLast] using ih h
  | case4 level rest hm hs ih =>
    have hl := FilterLevel.ofLevel_of_ne hm hs
    simp only [Bool.and_eq_true] at h
    simpa [MultiLast, hl] using ih h.2

lemma validateFilter_eq_ok {filter : String} : validateFilter filter = .ok () ↔
    filter ≠ "" ∧ '\x00' ∉ filter.toList ∧ wildcardsPlaced (levels filter) := by
  unfold validateFilter
  by_cases hw : wildcardsPlaced (levels filter)
  · by_cases he : filter = "" <;> simp [he, hw]
  · by_cases he : filter = "" <;> simp [he, hw]

/-- In a valid filter a wildcard character at the start is the whole first level. -/
lemma startsWild_iff {filter : String} (h : validateFilter filter = .ok ()) :
    startsWild filter ↔ ∃ first ∈ (filterLevels filter).head?, first.isWildcard := by
  obtain ⟨hne, -, placed⟩ := validateFilter_eq_ok.mp h
  obtain ⟨c, cs, hcs⟩ := List.exists_cons_of_ne_nil (mt String.toList_eq_nil_iff.mp hne)
  have hstart : startsWild filter ↔ c = '+' ∨ c = '#' := by simp [startsWild, hcs]
  rw [hstart]
  by_cases hc : c = '/'
  · subst hc
    have hl : (levels filter).head? = some [] := by
      simp [levels, hcs, List.splitOn_cons_eq_if_modifyHead]
    simp [filterLevels, hl, FilterLevel.ofLevel, FilterLevel.isWildcard]
  obtain ⟨first, rest, hl⟩ := levels_cons hcs hc
  simp only [filterLevels, hl, List.map_cons, List.head?_cons, Option.mem_some_iff,
    exists_eq_left', FilterLevel.ofLevel_isWildcard]
  rw [hl] at placed
  constructor
  · rintro (rfl | rfl) <;> cases first <;> simp_all [wildcardsPlaced]
  · rintro (h | h) <;> simp_all

lemma multiLast_filterLevels {filter : String} (h : validateFilter filter = .ok ()) :
    MultiLast (filterLevels filter) :=
  multiLast_of_wildcardsPlaced (validateFilter_eq_ok.mp h).2.2

section wildcards
variable {level : Level} {filter : List Level}

lemma matches_literal (hh : level ≠ ['#']) (hp : level ≠ ['+']) (topic : List Level) :
    levelsMatch ((level :: filter).map .ofLevel) topic ↔
      ∃ rest, topic = level :: rest ∧ levelsMatch (filter.map .ofLevel) rest := by
  have hl := FilterLevel.ofLevel_of_ne hh hp
  cases topic with
  | nil => simp [hl, levelsMatch]
  | cons front rest =>
    simp only [List.map_cons, hl, levelsMatch, Bool.and_eq_true, beq_iff_eq, List.cons.injEq]
    constructor
    · rintro ⟨rfl, h⟩
      exact ⟨rest, ⟨rfl, rfl⟩, h⟩
    · rintro ⟨_, ⟨rfl, rfl⟩, h⟩
      exact ⟨rfl, h⟩

lemma matches_plus (topic : List Level) :
    levelsMatch ((['+'] :: filter).map .ofLevel) topic ↔
      ∃ first rest, topic = first :: rest ∧ levelsMatch (filter.map .ofLevel) rest := by
  cases topic <;> simp [levelsMatch]

lemma matches_hash (topic : List Level) : levelsMatch ((['#'] :: filter).map .ofLevel) topic := by
  simp [levelsMatch]

end wildcards

end MqttBroker.Topic
