import MqttBroker.Proofs.Topic.Filter

/-!
Filters as widened topics.  A valid filter matches the topics that it is made of by putting
wildcards in the place of levels, but a reserved topic keeps its first level.
-/
namespace MqttBroker.Topic

/-- The filter is the topic with single-level wildcards in the place of some levels, and with a
multi-level wildcard in the place of whatever follows, if that was cut off. -/
def Widens (filter topic : List Level) : Prop :=
  ∃ kept cut front, topic = kept ++ cut ∧
    List.Forall₂ (fun level wide => wide = level ∨ wide = ['+']) kept front ∧
      (cut = [] ∧ filter = front ∨ filter = front ++ [['#']])

variable {filter topic : List Level}

lemma widens_hash (topic : List Level) : Widens [['#']] topic :=
  ⟨[], topic, [], rfl, .nil, .inr rfl⟩

lemma Widens.cons {level wide : Level} (hw : wide = level ∨ wide = ['+'])
    (h : Widens filter topic) : Widens (wide :: filter) (level :: topic) := by
  obtain ⟨kept, cut, front, rfl, hf, he⟩ := h
  refine ⟨level :: kept, cut, wide :: front, rfl, .cons hw hf, ?_⟩
  obtain ⟨rfl, rfl⟩ | rfl := he
  · exact .inl ⟨rfl, rfl⟩
  · exact .inr rfl

/-- What a wildcard was put in the place of is matched by it. -/
lemma Widens.levelsMatch (h : Widens filter topic) :
    levelsMatch (filter.map .ofLevel) topic := by
  obtain ⟨kept, cut, front, rfl, hf, he⟩ := h
  induction hf generalizing filter with
  | nil =>
    obtain ⟨rfl, rfl⟩ | rfl := he
    · rfl
    · exact matches_hash cut
  | @cons level wide kept front hw _ ih =>
    obtain ⟨rest, rfl, hr⟩ : ∃ rest, filter = wide :: rest ∧
        (cut = [] ∧ rest = front ∨ rest = front ++ [['#']]) := by
      obtain ⟨hc, rfl⟩ | rfl := he
      · exact ⟨front, rfl, .inl ⟨hc, rfl⟩⟩
      · exact ⟨_, rfl, .inr rfl⟩
    have hrest := ih hr
    by_cases hh : wide = ['#']
    · exact hh ▸ matches_hash _
    by_cases hp : wide = ['+']
    · exact hp ▸ (matches_plus _).mpr ⟨level, _, rfl, hrest⟩
    · obtain rfl := hw.resolve_right hp
      exact (matches_literal hh hp _).mpr ⟨_, rfl, hrest⟩

/-- A multi-level wildcard that stands last was put in the place of all that is left. -/
lemma widens_of_levelsMatch (placed : wildcardsPlaced filter)
    (h : Topic.levelsMatch (filter.map .ofLevel) topic) : Widens filter topic := by
  induction filter generalizing topic with
  | nil =>
    obtain rfl : topic = [] := by simpa [Topic.levelsMatch] using h
    exact ⟨[], [], [], rfl, .nil, .inl ⟨rfl, rfl⟩⟩
  | cons first filter ih =>
    by_cases hh : first = ['#']
    · subst hh
      rw [placed_hash.mp placed]
      exact widens_hash topic
    by_cases hp : first = ['+']
    · subst hp
      obtain ⟨level, rest, rfl, hr⟩ := (matches_plus topic).mp h
      exact (ih (placed_tail placed) hr).cons (.inr rfl)
    · obtain ⟨rest, rfl, hr⟩ := (matches_literal hh hp topic).mp h
      exact (ih (placed_tail placed) hr).cons (.inl rfl)

/-- The first level of a reserved topic is no wildcard. -/
lemma not_isWildcard_of_isReserved {topic : String} (h : isReserved topic) {first : Level}
    (hf : (levels topic).head? = some first) : ¬ (FilterLevel.ofLevel first).isWildcard := by
  obtain ⟨cs, hcs⟩ : ∃ cs, topic.toList = '$' :: cs :=
    List.head?_eq_some_iff.mp (by simpa [isReserved] using h)
  obtain ⟨front, rest, hl⟩ := levels_cons hcs (by decide)
  obtain rfl : '$' :: front = first := by simpa [hl] using hf
  rw [FilterLevel.ofLevel_isWildcard]
  rintro (h | h) <;> simp at h

/-- A filter whose levels match hides a reserved topic unless it begins with the same level. -/
lemma startsWild_eq_false_iff {topic filter : String} (valid : validateFilter filter = .ok ())
    (hr : isReserved topic) (hm : Topic.levelsMatch (filterLevels filter) (levels topic)) :
    startsWild filter = false ↔ (levels filter).head? = (levels topic).head? := by
  obtain ⟨first, rest, hf⟩ := List.exists_cons_of_ne_nil (levels_ne_nil filter)
  rw [← Bool.not_eq_true, startsWild_iff valid]
  simp only [filterLevels, hf, List.map_cons, List.head?_cons, Option.mem_some_iff,
    exists_eq_left']
  constructor
  · intro hw
    rw [FilterLevel.ofLevel_isWildcard, not_or] at hw
    rw [filterLevels, hf] at hm
    obtain ⟨behind, ht, -⟩ := (matches_literal hw.1 hw.2 _).mp hm
    rw [ht, List.head?_cons]
  · intro he
    exact not_isWildcard_of_isReserved hr he.symm

/-- A valid filter matches a topic exactly if it widens it, and begins with the same level if the
topic is reserved. -/
theorem topicMatches_iff_widens {filter : String} (valid : validateFilter filter = .ok ())
    (topic : String) : topicMatches topic filter = true ↔
      Widens (levels filter) (levels topic) ∧
        (topic.toList.head? = some '$' → (levels filter).head? = (levels topic).head?) := by
  have placed := (validateFilter_eq_ok.mp valid).2.2
  have hreserved : isReserved topic = true ↔ topic.toList.head? = some '$' := by
    simp [isReserved]
  rw [← hreserved, topicMatches, Bool.and_eq_true, Bool.not_eq_true', Bool.and_eq_false_imp]
  constructor
  · rintro ⟨hw, hm⟩
    refine ⟨widens_of_levelsMatch placed hm, fun hr => ?_⟩
    exact (startsWild_eq_false_iff valid hr hm).mp (hw hr)
  · rintro ⟨hw, he⟩
    have hm := hw.levelsMatch
    exact ⟨fun hr => (startsWild_eq_false_iff valid hr hm).mpr (he hr), hm⟩

/-- The last wildcard stands for no level, and an empty level for itself; a reserved topic stays
hidden. -/
theorem topicMatches_iff_widens_empty_level : validateFilter "+//#" = .ok () ∧
    topicMatches "a/" "+//#" = true ∧ topicMatches "$a/" "+//#" = false := by
  have valid : validateFilter "+//#" = .ok () := by decide
  refine ⟨valid, ?_, ?_⟩
  · refine (topicMatches_iff_widens valid "a/").mpr ⟨?_, by decide⟩
    exact ⟨[['a'], []], [], [['+'], []], by decide, .cons (.inr rfl) (.cons (.inl rfl) .nil),
      .inr (by decide)⟩
  · refine Bool.eq_false_iff.mpr fun h => ?_
    have he := ((topicMatches_iff_widens valid "$a/").mp h).2 (by decide)
    exact absurd he (by decide)

end MqttBroker.Topic
