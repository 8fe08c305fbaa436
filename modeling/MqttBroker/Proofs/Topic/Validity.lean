import Mathlib.Data.List.Infix
import Mathlib.Tactic.Common
import MqttBroker.Proofs.Topic.Filter

/-!
The grammar of filters and topic names, character by character, and what the limits on the bytes of
a text mean for its levels.
-/
namespace MqttBroker.Topic

/-- A level begins after this text. -/
def AtLevelStart (before : List Char) : Prop := before = [] ∨ ['/'] <:+ before

/-- A level ends before this text. -/
def AtLevelEnd (after : List Char) : Prop := after = [] ∨ ['/'] <+: after

/-- Wherever the character stands in the text, a level begins with it, and what follows is as it
should be. -/
def Stands (c : Char) (follows : List Char → Prop) (text : List Char) : Prop :=
  ∀ before after, text = before ++ c :: after → AtLevelStart before ∧ follows after

variable {c : Char} {level rest text : List Char} {follows : List Char → Prop} {filter : List Level}

section wildcards

/-- A level has no separator, so it begins where it stands. -/
lemma eq_nil_of_atLevelStart (h : '/' ∉ level) (hs : AtLevelStart level) : level = [] :=
  hs.resolve_right fun hl => h (hl.subset List.mem_cons_self)

/-- A level has no separator, so it ends where it stands. -/
lemma eq_nil_of_atLevelEnd (rest : List Char) (h : '/' ∉ level)
    (he : AtLevelEnd (level ++ rest)) : level = [] := by
  cases level with
  | nil => rfl
  | cons d level =>
    obtain he | he := he
    · cases he
    · have hd : '/' = d := List.cons_prefix_cons.mp he |>.1
      exact absurd (hd ▸ List.mem_cons_self) h

lemma eq_nil_of_singleton {before after : List Char} (h : before ++ c :: after = [c]) :
    before = [] ∧ after = [] := by
  have hlen := congrArg List.length h
  simp only [List.length_append, List.length_cons, List.length_nil] at hlen
  exact ⟨List.length_eq_zero_iff.mp (by omega), List.length_eq_zero_iff.mp (by omega)⟩

/-- A character stands in a single level as it should if it is the whole level. -/
lemma stands_level (hl : '/' ∉ level) (hf : ∀ back, '/' ∉ back → follows back → back = []) :
    Stands c follows level ↔ (c ∈ level → level = [c] ∧ follows []) := by
  constructor
  · intro h hm
    obtain ⟨before, after, rfl⟩ := List.append_of_mem hm
    obtain ⟨hs, ha⟩ := h before after rfl
    simp only [List.mem_append, List.mem_cons, not_or] at hl
    obtain rfl := eq_nil_of_atLevelStart hl.1 hs
    obtain rfl := hf after hl.2.2 ha
    exact ⟨rfl, ha⟩
  · rintro h before after rfl
    obtain ⟨he, ha⟩ := h (by simp)
    obtain ⟨rfl, rfl⟩ := eq_nil_of_singleton he
    exact ⟨.inl rfl, ha⟩

/-- A character stands in a text as it should if it does in the first level and in the text that
follows. -/
lemma stands_append (hc : c ≠ '/') (hl : '/' ∉ level)
    (hf : ∀ back, '/' ∉ back → follows (back ++ '/' :: rest) → back = []) :
    Stands c follows (level ++ '/' :: rest) ↔
      (c ∈ level → level = [c] ∧ follows ('/' :: rest)) ∧ Stands c follows rest := by
  constructor
  · refine fun h => ⟨fun hm => ?_, fun before after he => ?_⟩
    · obtain ⟨before, after, rfl⟩ := List.append_of_mem hm
      obtain ⟨hs, ha⟩ := h before (after ++ '/' :: rest) (by simp)
      simp only [List.mem_append, List.mem_cons, not_or] at hl
      obtain rfl := eq_nil_of_atLevelStart hl.1 hs
      obtain rfl := hf after hl.2.2 ha
      exact ⟨rfl, ha⟩
    · obtain ⟨hs, ha⟩ := h (level ++ '/' :: before) after (by simp [he])
      refine ⟨?_, ha⟩
      by_cases hb : before = []
      · exact .inl hb
      · have hs := hs.resolve_left (by simp)
        have hback : before <:+ level ++ '/' :: before := ⟨level ++ ['/'], by simp⟩
        exact .inr (List.suffix_of_suffix_length_le hs hback (List.length_pos_iff.mpr hb))
  · rintro ⟨hfirst, hrest⟩ before after he
    obtain ⟨back, rfl, hb⟩ | ⟨back, rfl, hb⟩ := List.append_eq_append_iff.mp he
    · -- the character stands behind the level
      cases back with
      | nil => exact absurd (List.cons.inj hb).1.symm hc
      | cons d back =>
        obtain ⟨rfl, hr⟩ := List.cons.inj hb
        obtain ⟨rfl | ⟨front, rfl⟩, ha⟩ := hrest back after hr
        · exact ⟨.inr ⟨level, rfl⟩, ha⟩
        · exact ⟨.inr ⟨level ++ '/' :: front, by simp⟩, ha⟩
    · cases back with
      | nil => exact absurd (List.cons.inj hb).1 hc
      | cons d back =>
        obtain ⟨rfl, rfl⟩ := List.cons.inj hb
        obtain ⟨hw, ha⟩ := hfirst (by simp)
        obtain ⟨rfl, rfl⟩ := eq_nil_of_singleton hw
        exact ⟨.inl rfl, ha⟩

lemma stands_of_not_mem (h : c ∉ text) : Stands c follows text := by
  rintro before after rfl
  simp at h

/-- A single-level wildcard is a level, and a multi-level wildcard the last one. -/
def WildcardsStand (text : List Char) : Prop :=
  Stands '+' AtLevelEnd text ∧ Stands '#' (· = []) text

lemma placed_cons : wildcardsPlaced (level :: filter) ↔
    ('+' ∈ level → level = ['+']) ∧ ('#' ∈ level → level = ['#'] ∧ filter = []) ∧
      wildcardsPlaced filter := by
  by_cases hh : level = ['#']
  · subst hh
    rw [placed_hash]
    constructor
    · rintro rfl
      simp [wildcardsPlaced]
    · exact fun h => (h.2.1 List.mem_cons_self).2
  by_cases hp : level = ['+']
  · subst hp
    simp [placed_plus]
  · simp [placed_literal hh hp, hh, hp, and_assoc]

/-- Wildcards are placed among the levels as they should stand in the text. -/
theorem wildcardsStand_iff (hne : filter ≠ []) (h : ∀ level ∈ filter, '/' ∉ level) :
    WildcardsStand (['/'].intercalate filter) ↔ wildcardsPlaced filter := by
  induction filter with
  | nil => contradiction
  | cons level filter ih =>
    obtain ⟨hl, hr⟩ := List.forall_mem_cons.mp h
    rw [placed_cons]
    cases filter with
    | nil =>
      have hplus : Stands '+' AtLevelEnd level ↔ _ := stands_level hl fun back hb he =>
        eq_nil_of_atLevelEnd [] hb (by rwa [List.append_nil])
      have hhash : Stands '#' (· = []) level ↔ _ := stands_level hl fun _ _ he => he
      rw [List.intercalate_singleton, WildcardsStand, hplus, hhash]
      simp [AtLevelEnd, wildcardsPlaced]
    | cons second filter =>
      rw [List.intercalate_cons_cons, List.append_assoc, List.singleton_append]
      generalize hrest : ['/'].intercalate (second :: filter) = rest at ih
      have hplus : Stands '+' AtLevelEnd (level ++ '/' :: rest) ↔ _ :=
        stands_append (by decide) hl fun _ => eq_nil_of_atLevelEnd ('/' :: rest)
      have hhash : Stands '#' (· = []) (level ++ '/' :: rest) ↔ _ :=
        stands_append (by decide) hl (by simp)
      have hends : AtLevelEnd ('/' :: rest) := .inr (List.prefix_append ['/'] rest)
      rw [WildcardsStand, hplus, hhash, ← ih (by simp) hr, WildcardsStand]
      simp only [hends, and_true, reduceCtorEq, and_false]
      tauto

end wildcards

section limits

/-- There is one level more than there are separators. -/
lemma length_levels (text : String) : (levels text).length = text.toList.count '/' + 1 := by
  unfold levels
  induction text.toList with
  | nil => rfl
  | cons d cs ih =>
    rw [List.splitOn_cons_eq_if_modifyHead]
    by_cases hd : d = '/' <;> simp [hd, ih]

lemma ofNat_eq_separatorByte {n : ℕ} (h : n < 256) : UInt8.ofNat n = separatorByte ↔ n = 47 := by
  rw [← UInt8.toNat_inj, UInt8.toNat_ofNat_of_lt' h]
  rfl

/-- No character but the separator has the byte of the separator in its encoding. -/
lemma count_utf8EncodeChar (d : Char) :
    (String.utf8EncodeChar d).count separatorByte = if d = '/' then 1 else 0 := by
  have hd : d = '/' ↔ d.val.toNat = 47 := by
    rw [← Char.val_inj, ← UInt32.toNat_inj]
    rfl
  have hlead {n : ℕ} (h : 128 ≤ n) (hn : n < 256) : (UInt8.ofNat n == separatorByte) = false := by
    rw [beq_eq_false_iff_ne, ne_eq, ofNat_eq_separatorByte hn]
    omega
  by_cases hv : d.val.toNat ≤ 127
  · simp only [String.utf8EncodeChar, if_pos hv, List.count_singleton, beq_iff_eq, hd,
      ofNat_eq_separatorByte (show d.val.toNat < 256 by omega)]
  · -- every byte of a longer encoding is at least 128
    rw [if_neg (mt hd.mp (by omega))]
    simp only [String.utf8EncodeChar, if_neg hv]
    split_ifs <;> simp (disch := omega) only [List.count_cons, List.count_nil, hlead,
      Bool.false_eq_true, if_false]

lemma count_separatorByte (text : String) :
    text.toUTF8.data.toList.count separatorByte = text.toList.count '/' := by
  have hencoded : text.toUTF8.data.toList = text.toList.flatMap String.utf8EncodeChar := by
    rw [String.toUTF8_eq_toByteArray, ← String.utf8Encode_toList, List.utf8Encode,
      List.data_toByteArray]
  rw [hencoded]
  induction text.toList with
  | nil => rfl
  | cons d cs ih =>
    rw [List.flatMap_cons, List.count_append, count_utf8EncodeChar, ih, List.count_cons]
    by_cases hd : d = '/' <;> simp [hd, Nat.add_comm]

/-- Levels are counted as long as there may be one more. -/
lemma countLevels_eq {max : ℕ} (bytes : List UInt8) {found : ℕ} (h : found ≤ max) :
    countLevels max found bytes = if max < found + bytes.count separatorByte then
      .error (.topicTooDeep (max + 1) max) else .ok () := by
  induction bytes generalizing found with
  | nil => simp [countLevels, Nat.not_lt.mpr h]
  | cons byte bytes ih =>
    by_cases hb : byte = separatorByte
    · subst hb
      rw [countLevels, if_pos rfl, List.count_cons_self]
      by_cases hm : max < found + 1
      · obtain rfl : found = max := by omega
        rw [if_pos hm, if_pos (by omega)]
      · rw [if_neg hm, ih (by omega)]
        simp only [Nat.add_right_comm, Nat.add_assoc]
    · rw [countLevels, if_neg hb, ih h, List.count_cons_of_ne hb]

/-- The limits on the bytes of a text are limits on its length and on the number of its levels. -/
theorem checkLimits_eq (limits : Limits) (text : String) : checkLimits limits text =
    if limits.maxLength ≠ 0 ∧ limits.maxLength < text.utf8ByteSize then
      .error (.topicTooLong text.utf8ByteSize limits.maxLength)
    else if limits.maxLevels ≠ 0 ∧ limits.maxLevels < (levels text).length then
      .error (.topicTooDeep (limits.maxLevels + 1) limits.maxLevels)
    else .ok () := by
  have hlength : text.toUTF8.data.toList.length = text.utf8ByteSize := rfl
  rw [checkLimits, checkByteLimits, hlength]
  split
  · rfl
  · by_cases hm : limits.maxLevels = 0
    · simp [hm]
    · rw [if_pos hm, countLevels_eq _ (Nat.one_le_iff_ne_zero.mpr hm), count_separatorByte,
        length_levels, Nat.add_comm 1]
      simp [hm]

end limits

lemma validateName_eq_ok {topic : String} : validateName topic = .ok () ↔
    topic ≠ "" ∧ ∀ c ∈ topic.toList, c ≠ '+' ∧ c ≠ '#' ∧ c ≠ '\x00' := by
  unfold validateName
  by_cases he : topic = ""
  · simp [he]
  · simp [he, and_assoc]

/-- Filters and topic names are accepted exactly if their wildcards stand as the grammar wants, and
limits if they keep to them.  A text that breaks both limits is too long. -/
theorem validators_accept_grammar (text : String) :
    (validateFilter text = .ok () ↔ text ≠ "" ∧ '\x00' ∉ text.toList ∧
      (∀ before after, text.toList = before ++ '+' :: after →
        AtLevelStart before ∧ AtLevelEnd after) ∧
      (∀ before after, text.toList = before ++ '#' :: after →
        AtLevelStart before ∧ after = [])) ∧
    (validateName text = .ok () ↔
      validateFilter text = .ok () ∧ '+' ∉ text.toList ∧ '#' ∉ text.toList) ∧
    ∀ limits : Limits,
      (checkLimits limits text = .ok () ↔
        (limits.maxLength = 0 ∨ text.utf8ByteSize ≤ limits.maxLength) ∧
        (limits.maxLevels = 0 ∨ (levels text).length ≤ limits.maxLevels)) ∧
      (checkLimits limits text ≠ .ok () → checkLimits limits text =
        if limits.maxLength ≠ 0 ∧ limits.maxLength < text.utf8ByteSize then
          .error (.topicTooLong text.utf8ByteSize limits.maxLength)
        else .error (.topicTooDeep (limits.maxLevels + 1) limits.maxLevels)) := by
  have hplaced : WildcardsStand text.toList ↔ wildcardsPlaced (levels text) := by
    rw [← intercalate_levels]
    exact wildcardsStand_iff (levels_ne_nil text) fun level hl hs =>
      (mem_text_of_mem_level hl hs).2 rfl
  have hfilter : validateFilter text = .ok () ↔
      text ≠ "" ∧ '\x00' ∉ text.toList ∧ WildcardsStand text.toList := by
    rw [validateFilter_eq_ok, hplaced]
  refine ⟨hfilter, ?_, fun limits => ?_⟩
  · rw [hfilter, validateName_eq_ok]
    constructor
    · rintro ⟨hne, hplain⟩
      have hplus : '+' ∉ text.toList := fun h => (hplain _ h).1 rfl
      have hhash : '#' ∉ text.toList := fun h => (hplain _ h).2.1 rfl
      exact ⟨⟨hne, fun h => (hplain _ h).2.2 rfl, stands_of_not_mem hplus, stands_of_not_mem hhash⟩,
        hplus, hhash⟩
    · rintro ⟨⟨hne, hzero, -⟩, hplus, hhash⟩
      refine ⟨hne, fun c hc => ⟨?_, ?_, ?_⟩⟩ <;> rintro rfl <;> contradiction
  · rw [checkLimits_eq]
    by_cases hlong : limits.maxLength ≠ 0 ∧ limits.maxLength < text.utf8ByteSize
    · simp only [if_pos hlong, reduceCtorEq, false_iff, not_and, implies_true, and_true]
      omega
    · simp only [if_neg hlong]
      split
      · simp only [reduceCtorEq, false_iff, not_and, implies_true, and_true]
        omega
      · simp only [true_iff, ne_eq, not_true_eq_false, false_implies, and_true]
        omega

end MqttBroker.Topic
