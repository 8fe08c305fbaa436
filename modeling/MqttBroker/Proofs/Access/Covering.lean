import Mathlib.Tactic
import MqttBroker.Access.Acl
import MqttBroker.Proofs.Topic.Filter

/-!
A pattern covers a filter exactly if it covers every topic that the filter matches.  The one
exception is the filter of all topics: it also stands for no level at all, which no topic has.
-/
namespace MqttBroker.Acl
open Topic

/-- Levels that a topic without wildcards may have. -/
def Plain (topic : List Level) : Prop := ∀ level ∈ topic, '+' ∉ level ∧ '#' ∉ level ∧ '/' ∉ level

lemma plain_nil : Plain [] := by simp [Plain]

lemma plain_cons {level : Level} {topic : List Level} :
    Plain (level :: topic) ↔ ('+' ∉ level ∧ '#' ∉ level ∧ '/' ∉ level) ∧ Plain topic := by
  simp [Plain]

lemma plain_levels {topic : String} (hplus : '+' ∉ topic.toList) (hhash : '#' ∉ topic.toList) :
    Plain (levels topic) := fun _ h =>
  ⟨fun hc => hplus (mem_text_of_mem_level h hc).1, fun hc => hhash (mem_text_of_mem_level h hc).1,
    fun hc => (mem_text_of_mem_level h hc).2 rfl⟩

/-- A covered filter matches covered topics only. -/
theorem covers_of_levelsMatch {pattern filter topic : List Level}
    (hc : covers pattern filter) (plain : Plain topic)
    (hm : levelsMatch (filter.map .ofLevel) topic) : covers pattern topic := by
  induction filter generalizing pattern topic with
  | nil =>
    obtain rfl : topic = [] := by simpa [levelsMatch] using hm
    exact hc
  | cons first filter ih =>
    cases pattern with
    | nil => simp at hc
    | cons level pattern =>
      by_cases hl : level = ['#']
      · simp [hl]
      have hf : first ≠ ['#'] := by
        rintro rfl
        simp [covers_cons_hash hl] at hc
      rw [covers_cons hl hf, Bool.and_eq_true] at hc
      by_cases hp : first = ['+']
      · subst hp
        obtain ⟨front, rest, rfl, hrest⟩ := (matches_plus topic).mp hm
        obtain ⟨hfront, plain⟩ := plain_cons.mp plain
        rw [covers_cons hl (by rintro rfl; simp at hfront), Bool.and_eq_true]
        refine ⟨?_, ih hc.2 plain hrest⟩
        have hlevel : level = ['+'] := by simpa using hc.1
        simp [hlevel]
      · obtain ⟨rest, rfl, hrest⟩ := (matches_literal hf hp topic).mp hm
        rw [covers_cons hl hf, Bool.and_eq_true]
        exact ⟨hc.1, ih hc.2 (plain_cons.mp plain).2 hrest⟩

/-- Fronts of topics that tell a single-level wildcard from every literal level. -/
def samples (first : Level) : List Level := if first = ['+'] then [['a'], ['b']] else [first]

lemma samples_ne_nil (first : Level) : ∃ front, front ∈ samples first := by
  unfold samples
  split
  · exact ⟨['a'], by simp⟩
  · exact ⟨first, by simp⟩

lemma plain_of_mem_samples {first front : Level} {filter rest : List Level} (hf : first ≠ ['#'])
    (placed : wildcardsPlaced (first :: filter)) (hsep : '/' ∉ first)
    (hfront : front ∈ samples first) (plain : Plain rest) : Plain (front :: rest) := by
  rw [plain_cons]
  refine ⟨?_, plain⟩
  unfold samples at hfront
  split at hfront
  · simp only [List.mem_cons, List.not_mem_nil, or_false] at hfront
    rcases hfront with rfl | rfl <;> decide
  next hp =>
    obtain rfl : front = first := by simpa using hfront
    obtain ⟨⟨hplus, hhash⟩, -⟩ := (placed_literal hf hp).mp placed
    exact ⟨hplus, hhash, hsep⟩

lemma matches_of_mem_samples {first front : Level} {filter rest : List Level}
    (hf : first ≠ ['#']) (hfront : front ∈ samples first)
    (hm : levelsMatch (filter.map .ofLevel) rest) :
    levelsMatch ((first :: filter).map .ofLevel) (front :: rest) := by
  by_cases hp : first = ['+']
  · rw [hp]
    exact (matches_plus _).mpr ⟨front, rest, rfl, hm⟩
  · obtain rfl : front = first := by simpa [samples, hp] using hfront
    exact (matches_literal hf hp _).mpr ⟨rest, rfl, hm⟩

/-- Every filter matches some topic. -/
lemma exists_matching {filter : List Level} (placed : wildcardsPlaced filter)
    (hsep : ∀ level ∈ filter, '/' ∉ level) :
    ∃ topic, Plain topic ∧ levelsMatch (filter.map .ofLevel) topic := by
  induction filter with
  | nil => exact ⟨[], plain_nil, by simp [levelsMatch]⟩
  | cons first filter ih =>
    by_cases hf : first = ['#']
    · exact ⟨[], plain_nil, hf ▸ matches_hash _⟩
    obtain ⟨rest, plain, hm⟩ := ih (placed_tail placed) fun level h => hsep level (by simp [h])
    obtain ⟨front, hfront⟩ := samples_ne_nil first
    exact ⟨front :: rest, plain_of_mem_samples hf placed (hsep first (by simp)) hfront plain,
      matches_of_mem_samples hf hfront hm⟩

/-- One level is covered if its sample fronts are, given that the rest of the filter is covered
whenever its topics are. -/
lemma covers_cons_of_samples {pattern filter : List Level} {first : Level} (hf : first ≠ ['#'])
    (nonempty : ∃ topic, Plain topic ∧ levelsMatch (filter.map .ofLevel) topic)
    (tail : ∀ pattern, (∀ topic, Plain topic → levelsMatch (filter.map .ofLevel) topic →
      covers pattern topic) → covers pattern filter)
    (h : ∀ front ∈ samples first, ∀ rest, Plain rest → levelsMatch (filter.map .ofLevel) rest →
      covers pattern (front :: rest)) : covers pattern (first :: filter) := by
  obtain ⟨topic, plain, hm⟩ := nonempty
  cases pattern with
  | nil =>
    obtain ⟨front, hfront⟩ := samples_ne_nil first
    simpa using h front hfront topic plain hm
  | cons level pattern =>
    by_cases hl : level = ['#']
    · simp [hl]
    have hstep : ∀ front ∈ samples first, ∀ rest, Plain rest →
        levelsMatch (filter.map .ofLevel) rest →
        (level = ['+'] ∨ level = front) ∧ covers pattern rest := by
      intro front hfront rest plain hm
      have hc := h front hfront rest plain hm
      have hne : front ≠ ['#'] := by
        rintro rfl
        unfold samples at hfront
        split at hfront <;> simp at hfront
        exact hf hfront.symm
      simpa [covers_cons hl hne] using hc
    rw [covers_cons hl hf, Bool.and_eq_true]
    constructor
    · by_cases hp : first = ['+']
      · have ha := (hstep ['a'] (by simp [samples, hp]) topic plain hm).1
        have hb := (hstep ['b'] (by simp [samples, hp]) topic plain hm).1
        have hlevel : level = ['+'] := by
          rcases ha with ha | ha
          · exact ha
          · rcases hb with hb | hb
            · exact hb
            · simp [ha] at hb
        simp [hlevel]
      · simpa using (hstep first (by simp [samples, hp]) topic plain hm).1
    · obtain ⟨front, hfront⟩ := samples_ne_nil first
      exact tail pattern fun rest plain hm => (hstep front hfront rest plain hm).2

/-- Below the first level a filter is covered if its topics are, of which one may be no level at
all. -/
lemma covers_of_forall {pattern filter : List Level} (placed : wildcardsPlaced filter)
    (hsep : ∀ level ∈ filter, '/' ∉ level)
    (h : ∀ topic, Plain topic → levelsMatch (filter.map .ofLevel) topic → covers pattern topic) :
    covers pattern filter := by
  induction filter generalizing pattern with
  | nil => exact h [] plain_nil (by simp [levelsMatch])
  | cons first filter ih =>
    by_cases hf : first = ['#']
    · subst hf
      obtain rfl | ⟨rest, rfl⟩ := covers_nil.mp (h [] plain_nil (matches_hash _))
      · simpa using h [['a']] (by simp [Plain]) (matches_hash _)
      · simp
    have hsep_tail : ∀ level ∈ filter, '/' ∉ level := fun level h => hsep level (by simp [h])
    refine covers_cons_of_samples hf (exists_matching (placed_tail placed) hsep_tail)
      (fun pattern => ih (placed_tail placed) hsep_tail) fun front hfront rest plain hm => ?_
    exact h _ (plain_of_mem_samples hf placed (hsep first (by simp)) hfront plain)
      (matches_of_mem_samples hf hfront hm)

/-- Topics without wildcards that a filter matches. -/
def Matched (filter topic : String) : Prop :=
  '+' ∉ topic.toList ∧ '#' ∉ topic.toList ∧ topicMatches topic filter

/-- A sample front and plain levels behind it make a topic. -/
lemma exists_matched {filter : String} (valid : validateFilter filter = .ok ()) {first : Level}
    {rest : List Level} (hl : levels filter = first :: rest) (hf : first ≠ ['#']) {front : Level}
    (hfront : front ∈ samples first) {behind : List Level} (plain : Plain behind)
    (hm : levelsMatch (rest.map .ofLevel) behind) :
    ∃ topic, Matched filter topic ∧ levels topic = front :: behind := by
  have placed : wildcardsPlaced (first :: rest) := hl ▸ (validateFilter_eq_ok.mp valid).2.2
  have hsep : '/' ∉ first := fun h => (mem_text_of_mem_level (hl ▸ List.mem_cons_self) h).2 rfl
  have plain_all := plain_of_mem_samples hf placed hsep hfront plain
  obtain ⟨topic, htext, htopic⟩ := exists_levels_eq (List.cons_ne_nil front behind)
    fun level h => (plain_all level h).2.2
  have plain_text : ∀ c ∈ topic.toList, c ≠ '+' ∧ c ≠ '#' := by
    intro c hc
    by_cases hs : c = '/'
    · subst hs
      decide
    · obtain ⟨level, hlevel, hm⟩ := mem_level_of_mem_text hc hs
      obtain ⟨hplus, hhash, -⟩ := plain_all level (htopic ▸ hlevel)
      exact ⟨fun h => hplus (h ▸ hm), fun h => hhash (h ▸ hm)⟩
  refine ⟨topic, ⟨fun h => (plain_text _ h).1 rfl, fun h => (plain_text _ h).2 rfl, ?_⟩, htopic⟩
  rw [topicMatches, Bool.and_eq_true, filterLevels, hl, htopic]
  refine ⟨?_, matches_of_mem_samples hf hfront hm⟩
  rw [Bool.not_eq_true', Bool.and_eq_false_imp, ← Bool.not_eq_true, startsWild_iff valid]
  rintro hr ⟨level, hlevel, hw⟩
  -- A filter with a wildcard in front is matched by a front that is not reserved.
  obtain rfl : FilterLevel.ofLevel first = level := by simpa [filterLevels, hl] using hlevel
  obtain hw | hw := FilterLevel.ofLevel_isWildcard.mp hw
  · exact hf hw
  · have hfront : front = ['a'] ∨ front = ['b'] := by simpa [samples, hw] using hfront
    rcases hfront with rfl | rfl <;> cases behind <;> simp [isReserved, htext] at hr

/-- The filter of all topics is also covered level by level by what asks for one level first. -/
lemma covers_all_topics {pattern : List Level} (hp : pattern ≠ [])
    (h : ∀ topic : String, Matched "#" topic → covers pattern (levels topic)) :
    covers pattern (levels "#") ∨ ∃ rest, pattern = ['+'] :: ['#'] :: rest := by
  obtain ⟨level, pattern, rfl⟩ := List.exists_cons_of_ne_nil hp
  by_cases hl : level = ['#']
  · left
    simp [hl]
  right
  have ha := h "a" ⟨by decide, by decide, by decide⟩
  have hb := h "b" ⟨by decide, by decide, by decide⟩
  have haa := h "a/a" ⟨by decide, by decide, by decide⟩
  rw [show levels "a" = [['a']] by decide, covers_cons hl (by decide), Bool.and_eq_true] at ha
  rw [show levels "b" = [['b']] by decide, covers_cons hl (by decide), Bool.and_eq_true] at hb
  rw [show levels "a/a" = [['a'], ['a']] by decide, covers_cons hl (by decide),
    Bool.and_eq_true] at haa
  have hlevel : level = ['+'] := by
    have ha := ha.1
    have hb := hb.1
    simp only [Bool.or_eq_true, beq_iff_eq] at ha hb
    rcases ha with ha | ha
    · exact ha
    · rcases hb with hb | hb
      · exact hb
      · simp [ha] at hb
  obtain rfl | ⟨rest, rfl⟩ := covers_nil.mp ha.2
  · simp at haa
  · exact ⟨rest, by rw [hlevel]⟩

/-- Whoever is permitted a filter is permitted every topic whose levels match. -/
lemma permits_of_levelsMatch {patterns : List String} {client : ClientInfo}
    {filter topic : String} (plain : Plain (levels topic))
    (hm : levelsMatch (filterLevels filter) (levels topic))
    (h : permits patterns client filter) : permits patterns client topic := by
  unfold permits at h ⊢
  rw [List.any_eq_true] at h ⊢
  obtain ⟨pattern, hp, hc⟩ := h
  refine ⟨pattern, hp, ?_⟩
  split at hc
  next expanded _ => exact covers_of_levelsMatch hc plain hm
  next => contradiction

/-- A client that may read a filter may read every topic it matches. -/
lemma permits_of_topicMatches {patterns : List String} {client : ClientInfo}
    {filter topic : String} (hm : Matched filter topic) (h : permits patterns client filter) :
    permits patterns client topic := by
  obtain ⟨hplus, hhash, hm⟩ := hm
  rw [topicMatches, Bool.and_eq_true] at hm
  exact permits_of_levelsMatch (plain_levels hplus hhash) hm.2 h

/-- A pattern covers every topic that a valid filter matches exactly if it covers the filter, or
the filter is the one of all topics and the pattern asks for one level and whatever follows.  So
whoever may read a filter may read all topics it matches. -/
theorem covers_iff_forall_matched (pattern filter : String)
    (valid : validateFilter filter = .ok ()) :
    ((∀ topic, Matched filter topic → covers (levels pattern) (levels topic)) ↔
      covers (levels pattern) (levels filter) ∨
        filter = "#" ∧ ∃ rest, levels pattern = ['+'] :: ['#'] :: rest) ∧
    ∀ (config : AclConfig) (client : ClientInfo) (topic : String),
      (authorizer config).canRead client filter → Matched filter topic →
        (authorizer config).canRead client topic := by
  have placed := (validateFilter_eq_ok.mp valid).2.2
  refine ⟨⟨fun h => ?_, ?_⟩, fun config client topic h hm => ?_⟩
  · obtain ⟨first, rest, hl⟩ := List.exists_cons_of_ne_nil (levels_ne_nil filter)
    rw [hl] at placed
    by_cases hf : first = ['#']
    · subst hf
      have hfilter : filter = "#" := by
        apply levels_injective
        rw [hl, placed_hash.mp placed]
        decide
      subst hfilter
      exact (covers_all_topics (levels_ne_nil pattern) h).imp_right fun he => ⟨rfl, he⟩
    left
    have hsep : ∀ level ∈ rest, '/' ∉ level := fun level hlevel hc =>
      (mem_text_of_mem_level (hl ▸ List.mem_cons_of_mem first hlevel) hc).2 rfl
    rw [hl]
    refine covers_cons_of_samples hf (exists_matching (placed_tail placed) hsep)
      (fun pattern => covers_of_forall (placed_tail placed) hsep)
      fun front hfront behind plain hm => ?_
    obtain ⟨topic, hmatched, htopic⟩ := exists_matched valid hl hf hfront plain hm
    exact htopic ▸ h topic hmatched
  · rintro (hc | ⟨rfl, rest, hp⟩) topic ⟨hplus, hhash, hm⟩
    · rw [topicMatches, Bool.and_eq_true] at hm
      exact covers_of_levelsMatch hc (plain_levels hplus hhash) hm.2
    · obtain ⟨front, behind, htopic⟩ := List.exists_cons_of_ne_nil (levels_ne_nil topic)
      have hfront := (plain_cons.mp (htopic ▸ plain_levels hplus hhash)).1
      rw [hp, htopic, covers_cons (by decide) (by rintro rfl; simp at hfront)]
      simp
  · unfold authorizer at h ⊢
    split
    next he =>
      rw [if_pos he] at h
      exact permits_of_topicMatches hm h
    next => rfl

/-- The exception: all topics are covered, yet not the filter that matches them all. -/
theorem covers_iff_forall_matched_exception : validateFilter "#" = .ok () ∧
    (∀ topic, Matched "#" topic → covers (levels "+/#/b") (levels topic)) ∧
    covers (levels "+/#/b") (levels "#") = false := by
  have valid : validateFilter "#" = .ok () := by decide
  refine ⟨valid, ?_, by decide⟩
  exact (covers_iff_forall_matched "+/#/b" "#" valid).1.mpr (.inr ⟨rfl, [['b']], by decide⟩)

end MqttBroker.Acl
