import Mathlib.Data.List.Infix
import Mathlib.Data.List.TakeWhile
import Mathlib.Tactic.Common
import MqttBroker.Config.Substitution

/-!
Texts cut at the variables they mention.  Every text has one cut in which each mention is the first
one that begins after the mention before it, and to replace the variables of the text is to put the
values in the place of the mentions of this cut.
-/
namespace MqttBroker.Config.Substitution

/-- A mention of a variable: its name, and what stands for it while it is unset, if that is given. -/
structure Mention where
  name : List Char
  fallback : Option (List Char)
  name_ne_nil : name ≠ []
  name_plain : '\x7d' ∉ name ∧ ':' ∉ name
  fallback_plain : ∀ text ∈ fallback, '\x7d' ∉ text

namespace Mention

/-- How a mention stands in a text. -/
def written (mention : Mention) : List Char :=
  '$' :: '\x7b' :: mention.name ++
    (mention.fallback.elim [] fun text => ':' :: '-' :: text) ++ ['\x7d']

/-- What takes the place of a mention. -/
def value (environment : String → Option String) (mention : Mention) : List Char :=
  match environment (String.ofList mention.name) with
  | some value => value.toList
  | none => mention.fallback.getD []

end Mention

/-- A mention begins the text. -/
def Begins (text : List Char) : Prop := ∃ mention : Mention, mention.written <+: text

/-- No mention stands anywhere in the text. -/
def Unmentioning (text : List Char) : Prop := ∀ mention : Mention, ¬ mention.written <:+: text

/-- A text in parts: plain text, or a mention after some plain text and before other parts. -/
inductive Parts where
  | plain (text : List Char)
  | mention (before : List Char) (mention : Mention) (after : Parts)

namespace Parts

/-- The text that the parts make up. -/
def written : Parts → List Char
  | .plain text => text
  | .mention before found after => before ++ (found.written ++ after.written)

/-- The text with the values of the variables in the place of their mentions. -/
def filled (environment : String → Option String) : Parts → List Char
  | .plain text => text
  | .mention before found after =>
    before ++ (found.value environment ++ after.filled environment)

/-- No mention begins in plain text: each is the first one after the mention before it. -/
def Leftmost : Parts → Prop
  | .plain text => Unmentioning text
  | .mention before found after =>
    (∀ back, back <:+ before → back ≠ [] → ¬ Begins (back ++ (found.written ++ after.written))) ∧
      after.Leftmost

end Parts

/-- A text whose first character begins no mention, and why. -/
inductive Malformed : List Char → Prop
  | other {c rest} (h : c ≠ '$') : Malformed (c :: rest)
  | lone {rest : List Char} (h : rest.head? ≠ some '\x7b') : Malformed ('$' :: rest)
  | unnamed {c rest} (h : c = '\x7d' ∨ c = ':') : Malformed ('$' :: '\x7b' :: c :: rest)
  | colon {name rest : List Char} (h : rest.head? ≠ some '-') (hn : '\x7d' ∉ name ∧ ':' ∉ name) :
    Malformed ('$' :: '\x7b' :: (name ++ ':' :: rest))
  | unclosed {rest} (h : '\x7d' ∉ rest) : Malformed ('$' :: '\x7b' :: rest)

variable {text rest name after : List Char} {c : Char} {reference : Reference}
  {environment : String → Option String}

section reading

lemma isNameChar_eq_true : isNameChar c = true ↔ c ≠ '\x7d' ∧ c ≠ ':' := by
  simp [isNameChar]

lemma isFallbackChar_eq_true : isFallbackChar c = true ↔ c ≠ '\x7d' := by
  simp [isFallbackChar]

/-- What is taken off the front of a text ends where the first other character stands. -/
lemma takeWhile_append_cons {p : Char → Bool} (h : ∀ d ∈ name, p d = true) (hc : p c = false)
    (rest : List Char) :
    (name ++ c :: rest).takeWhile p = name ∧ (name ++ c :: rest).dropWhile p = c :: rest := by
  rw [List.takeWhile_append_of_pos h, List.dropWhile_append_of_pos h]
  simp [hc]

lemma forall_isNameChar (h : '\x7d' ∉ name ∧ ':' ∉ name) : ∀ d ∈ name, isNameChar d = true := by
  intro d hd
  refine isNameChar_eq_true.mpr ⟨?_, ?_⟩ <;> rintro rfl
  · exact h.1 hd
  · exact h.2 hd

lemma forall_isFallbackChar (h : '\x7d' ∉ text) : ∀ d ∈ text, isFallbackChar d = true := by
  intro d hd
  refine isFallbackChar_eq_true.mpr ?_
  rintro rfl
  exact h hd

lemma inside?_closed (hne : name ≠ []) (hn : '\x7d' ∉ name ∧ ':' ∉ name) (rest : List Char) :
    inside? (name ++ '\x7d' :: rest) = some ⟨name, [], rest⟩ := by
  obtain ⟨ht, hd⟩ := takeWhile_append_cons (forall_isNameChar hn)
    (rfl : isNameChar '\x7d' = false) rest
  simp [inside?, ht, hd, hne]

lemma inside?_fallback (hne : name ≠ []) (hn : '\x7d' ∉ name ∧ ':' ∉ name) (ht : '\x7d' ∉ text)
    (rest : List Char) :
    inside? (name ++ ':' :: '-' :: (text ++ '\x7d' :: rest)) = some ⟨name, text, rest⟩ := by
  obtain ⟨hn, hd⟩ := takeWhile_append_cons (forall_isNameChar hn)
    (rfl : isNameChar ':' = false) ('-' :: (text ++ '\x7d' :: rest))
  obtain ⟨ht, ha⟩ := takeWhile_append_cons (forall_isFallbackChar ht)
    (rfl : isFallbackChar '\x7d' = false) rest
  simp [inside?, hn, hd, ht, ha, hne]

/-- A mention is read as it was written. -/
theorem reference?_written (mention : Mention) (rest : List Char) :
    reference? (mention.written ++ rest) =
      some ⟨mention.name, mention.fallback.getD [], rest⟩ := by
  obtain ⟨name, fallback, hne, hn, hf⟩ := mention
  cases fallback with
  | none => simpa [Mention.written, reference?] using inside?_closed hne hn rest
  | some text =>
    simpa [Mention.written, reference?] using inside?_fallback hne hn (hf text rfl) rest

/-- A text is cut at its first closing brace or colon, if there is one. -/
lemma exists_name (text : List Char) : ∃ name, ('\x7d' ∉ name ∧ ':' ∉ name) ∧
    (text = name ∨ ∃ c rest, (c = '\x7d' ∨ c = ':') ∧ text = name ++ c :: rest) := by
  have hname : ∀ d ∈ text.takeWhile isNameChar, d ≠ '\x7d' ∧ d ≠ ':' := fun d hd =>
    isNameChar_eq_true.mp (List.mem_takeWhile_imp hd)
  refine ⟨text.takeWhile isNameChar,
    ⟨fun h => (hname _ h).1 rfl, fun h => (hname _ h).2 rfl⟩, ?_⟩
  have hsplit := List.takeWhile_append_dropWhile (p := isNameChar) (l := text)
  cases hd : text.dropWhile isNameChar with
  | nil =>
    rw [hd, List.append_nil] at hsplit
    exact .inl hsplit.symm
  | cons c rest =>
    have hc := List.head_dropWhile_not isNameChar (l := text) (by simp [hd])
    simp only [hd, List.head_cons] at hc
    rw [hd] at hsplit
    have hc : c = '\x7d' ∨ c = ':' := by
      simpa [isNameChar, or_iff_not_imp_left] using hc
    exact .inr ⟨c, rest, hc, hsplit.symm⟩

/-- A mention begins a text, or its first character begins none. -/
lemma begins_or_malformed (hne : text ≠ []) :
    (∃ (mention : Mention) (rest : List Char), text = mention.written ++ rest) ∨
      Malformed text := by
  obtain ⟨first, tail, rfl⟩ := List.exists_cons_of_ne_nil hne
  by_cases hd : first = '$'
  swap
  · exact .inr (.other hd)
  subst hd
  by_cases hb : tail.head? = some '\x7b'
  swap
  · exact .inr (.lone hb)
  obtain ⟨inner, rfl⟩ := List.head?_eq_some_iff.mp hb
  by_cases hclosed : '\x7d' ∈ inner
  swap
  · exact .inr (.unclosed hclosed)
  obtain ⟨name, hn, rfl | ⟨c, rest, hc, rfl⟩⟩ := exists_name inner
  · exact absurd hclosed hn.1
  by_cases hname : name = []
  · exact .inr (hname ▸ .unnamed hc)
  obtain rfl | rfl := hc
  · exact .inl ⟨⟨name, none, hname, hn, nofun⟩, rest, by simp [Mention.written]⟩
  by_cases hh : rest.head? = some '-'
  swap
  · exact .inr (.colon hh hn)
  obtain ⟨after, rfl⟩ := List.head?_eq_some_iff.mp hh
  have hbrace : '\x7d' ∈ after := by simpa [hn.1] using hclosed
  obtain ⟨fallback, rest, rfl, hf⟩ := List.eq_append_cons_of_mem hbrace
  refine .inl ⟨⟨name, some fallback, hname, hn, fun _ h => Option.some.inj h ▸ hf⟩, rest, ?_⟩
  simp [Mention.written]

/-- Where a text is malformed, nothing is read. -/
lemma reference?_malformed (h : Malformed text) : reference? text = none := by
  cases h with
  | other h =>
    unfold reference?
    split
    · next heq => exact absurd (List.cons.inj heq).1 h
    · rfl
  | lone h =>
    unfold reference?
    split
    · next heq => exact absurd (congrArg List.head? (List.cons.inj heq).2) h
    · rfl
  | unnamed h =>
    obtain rfl | rfl := h <;> simp [reference?, inside?, isNameChar]
  | @colon name rest h hn =>
    obtain ⟨ht, hd⟩ := takeWhile_append_cons (forall_isNameChar hn)
      (rfl : isNameChar ':' = false) rest
    simp only [reference?, inside?, ht, hd]
    split
    · rfl
    · split
      · next heq => simp at heq
      · next heq => exact absurd (congrArg List.head? (List.cons.inj heq).2) h
      · rfl
  | @unclosed rest h =>
    have hd : '\x7d' ∉ rest.dropWhile isNameChar := fun hm =>
      h ((List.dropWhile_sublist _).subset hm)
    simp only [reference?, inside?]
    split
    · rfl
    · split
      · next heq => simp [heq] at hd
      · next after heq =>
        have ha : ∀ c ∈ after, isFallbackChar c = true := forall_isFallbackChar fun hm =>
          hd (by simp [heq, hm])
        rw [List.dropWhile_eq_nil_iff.mpr ha]
      · rfl

/-- What is read was written as a mention. -/
lemma exists_mention (h : reference? text = some reference) : ∃ mention : Mention,
    text = mention.written ++ reference.rest ∧ mention.name = reference.name ∧
      mention.fallback.getD [] = reference.fallback := by
  have hne : text ≠ [] := by
    rintro rfl
    cases h
  obtain ⟨mention, rest, rfl⟩ | hm := begins_or_malformed hne
  · rw [reference?_written] at h
    cases h
    exact ⟨mention, rfl, rfl, rfl⟩
  · rw [reference?_malformed hm] at h
    cases h

lemma begins_iff : Begins text ↔ (reference? text).isSome = true := by
  constructor
  · rintro ⟨mention, rest, rfl⟩
    rw [reference?_written, Option.isSome_some]
  · intro h
    obtain ⟨mention, ht, -⟩ := exists_mention (Option.some_get h).symm
    exact ⟨mention, ht ▸ List.prefix_append _ _⟩

/-- No mention begins a malformed text, and every other text is begun by one. -/
theorem not_begins_iff : ¬ Begins text ↔ text = [] ∨ Malformed text := by
  constructor
  · intro h
    by_cases hne : text = []
    · exact .inl hne
    · refine .inr ((begins_or_malformed hne).resolve_left ?_)
      rintro ⟨mention, rest, rfl⟩
      exact h ⟨mention, List.prefix_append _ _⟩
  · rw [begins_iff]
    rintro (rfl | h)
    · decide
    · simp [reference?_malformed h]

end reading

section parts

/-- A text is begun by one mention at most. -/
lemma written_append_injective {mention other : Mention} {rest others : List Char}
    (h : mention.written ++ rest = other.written ++ others) :
    mention = other ∧ rest = others := by
  have hr := reference?_written mention rest
  rw [h, reference?_written other others] at hr
  obtain ⟨hn, -, rfl⟩ := Reference.mk.inj (Option.some.inj hr)
  have hw := List.append_cancel_right h
  obtain ⟨name, fallback, _, _, _⟩ := mention
  obtain ⟨name', fallback', _, _, _⟩ := other
  obtain rfl : name' = name := hn
  have hf : fallback = fallback' := by
    cases fallback <;> cases fallback' <;> simp_all [Mention.written]
  exact ⟨by simp only [hf], rfl⟩

/-- Nothing is mentioned in a text exactly if no mention begins at any place of it. -/
lemma unmentioning_iff : Unmentioning text ↔ ∀ back, back <:+ text → ¬ Begins back := by
  constructor
  · rintro h back ⟨skipped, rfl⟩ ⟨mention, rest, rfl⟩
    exact h mention ⟨skipped, rest, List.append_assoc ..⟩
  · rintro h mention ⟨skipped, rest, rfl⟩
    exact h (mention.written ++ rest) ⟨skipped, (List.append_assoc ..).symm⟩
      ⟨mention, List.prefix_append _ _⟩

instance : Decidable (Begins text) := decidable_of_iff _ begins_iff.symm

instance : Decidable (Unmentioning text) :=
  decidable_of_iff (∀ back ∈ text.tails, ¬ Begins back) (by simp [unmentioning_iff])

instance decidableLeftmost : (parts : Parts) → Decidable parts.Leftmost
  | .plain text => inferInstanceAs (Decidable (Unmentioning text))
  | .mention before found after =>
    have := decidableLeftmost after
    decidable_of_iff ((∀ back ∈ before.tails, back ≠ [] →
      ¬ Begins (back ++ (found.written ++ after.written))) ∧ after.Leftmost)
      (by simp [Parts.Leftmost])

/-- Plain text does not reach past the place where a mention begins. -/
lemma Parts.Leftmost.unique {parts other : Parts} (h : parts.Leftmost) (h' : other.Leftmost)
    (he : parts.written = other.written) : parts = other := by
  induction parts generalizing other with
  | plain text =>
    cases other with
    | plain text' => exact congrArg Parts.plain he
    | mention before found after =>
      exact absurd ⟨found, List.prefix_append _ _⟩ (unmentioning_iff.mp h _ ⟨before, he.symm⟩)
  | mention before found after ih =>
    cases other with
    | plain text' =>
      exact absurd ⟨found, List.prefix_append _ _⟩ (unmentioning_iff.mp h' _ ⟨before, he⟩)
    | mention before' found' after' =>
      obtain ⟨back, hb, ho⟩ | ⟨back, hb, ho⟩ := List.append_eq_append_iff.mp he
      · obtain rfl : back = [] := by
          by_contra hne
          exact h'.1 back ⟨before, hb.symm⟩ hne ⟨found, ho ▸ List.prefix_append _ _⟩
        rw [List.nil_append] at ho
        obtain ⟨rfl, hr⟩ := written_append_injective ho
        rw [ih h.2 h'.2 hr, hb, List.append_nil]
      · obtain rfl : back = [] := by
          by_contra hne
          exact h.1 back ⟨before', hb.symm⟩ hne ⟨found', ho ▸ List.prefix_append _ _⟩
        rw [List.nil_append] at ho
        obtain ⟨rfl, hr⟩ := written_append_injective ho.symm
        rw [ih h.2 h'.2 hr, hb, List.append_nil]

/-- One more character of plain text in front. -/
def Parts.push (c : Char) : Parts → Parts
  | .plain text => .plain (c :: text)
  | .mention before found after => .mention (c :: before) found after

@[simp] lemma Parts.written_push (c : Char) (parts : Parts) :
    (parts.push c).written = c :: parts.written := by
  cases parts <;> rfl

@[simp] lemma Parts.filled_push (environment : String → Option String) (c : Char)
    (parts : Parts) : (parts.push c).filled environment = c :: parts.filled environment := by
  cases parts <;> rfl

lemma Parts.Leftmost.push {parts : Parts} (h : parts.Leftmost)
    (hb : ¬ Begins (c :: parts.written)) : (parts.push c).Leftmost := by
  cases parts with
  | plain text =>
    refine unmentioning_iff.mpr fun back hs => ?_
    obtain rfl | hs := List.suffix_cons_iff.mp hs
    · exact hb
    · exact unmentioning_iff.mp h back hs
  | mention before found after =>
    refine ⟨fun back hs hne => ?_, h.2⟩
    obtain rfl | hs := List.suffix_cons_iff.mp hs
    · exact hb
    · exact h.1 back hs hne

lemma value_eq {mention : Mention} (hn : mention.name = reference.name)
    (hf : mention.fallback.getD [] = reference.fallback) :
    mention.value environment = reference.value environment := by
  rw [Mention.value, Reference.value, hn, hf]
  cases environment (String.ofList reference.name) <;> rfl

/-- The scan cuts a text at its leftmost mentions and fills them. -/
theorem exists_leftmost (environment : String → Option String) (text : List Char) :
    ∃ parts : Parts, parts.Leftmost ∧ parts.written = text ∧
      parts.filled environment = expand environment text := by
  fun_induction expand environment text with
  | case1 text reference hr ih =>
    obtain ⟨mention, rfl, hn, hf⟩ := exists_mention hr
    obtain ⟨parts, hl, hw, he⟩ := ih
    refine ⟨.mention [] mention parts, ⟨fun back hs hne => ?_, hl⟩, ?_, ?_⟩
    · exact absurd (List.suffix_nil.mp hs) hne
    · rw [Parts.written, hw, List.nil_append]
    · rw [Parts.filled, he, value_eq hn hf, List.nil_append]
  | case2 =>
    refine ⟨.plain [], unmentioning_iff.mpr fun back hs => ?_, rfl, rfl⟩
    exact not_begins_iff.mpr (.inl (List.suffix_nil.mp hs))
  | case3 c rest hr ih =>
    obtain ⟨parts, hl, hw, he⟩ := ih
    refine ⟨parts.push c, hl.push ?_, by rw [Parts.written_push, hw],
      by rw [Parts.filled_push, he]⟩
    rw [begins_iff, hw, hr]
    decide

end parts

/-- To replace the variables of a text is to fill its leftmost mentions, which are the parts of just
one cut; a text that mentions nothing stays as it is.  Where no mention begins, the text is
malformed. -/
theorem substituteVariables_fills_leftmost (environment : String → Option String)
    (text : String) :
    (∃! parts : Parts, parts.Leftmost ∧ parts.written = text.toList) ∧
    (∀ parts : Parts, parts.Leftmost → parts.written = text.toList →
      (substituteVariables environment text).toList = parts.filled environment) ∧
    (Unmentioning text.toList → substituteVariables environment text = text) ∧
    ∀ start, ¬ Begins start ↔ start = [] ∨ Malformed start := by
  obtain ⟨parts, hl, hw, he⟩ := exists_leftmost environment text.toList
  have hfilled : ∀ parts : Parts, parts.Leftmost → parts.written = text.toList →
      (substituteVariables environment text).toList = parts.filled environment := by
    intro other ho hs
    obtain rfl := hl.unique ho (hw.trans hs.symm)
    rw [substituteVariables, String.toList_ofList, he]
  refine ⟨⟨parts, ⟨hl, hw⟩, fun other ho => ho.1.unique hl (ho.2.trans hw.symm)⟩, hfilled,
    fun hu => ?_, fun start => not_begins_iff⟩
  exact String.toList_injective (hfilled (.plain text.toList) hu rfl)

/-- A value that mentions its own variable is not read again, and a brace may stand in a name. -/
theorem substituteVariables_fills_leftmost_once :
    let parts : Parts :=
      .mention [] ⟨['A'], none, by decide, by decide, nofun⟩
        (.mention ['$'] ⟨['$', '\x7b', 'B'], some ['x'], by decide, by decide, by simp⟩
          (.plain ['$', '\x7b', '\x7d']))
    let environment := fun name => if name = "A" then some "$\x7bA\x7d" else none
    parts.Leftmost ∧ parts.written = "$\x7bA\x7d$$\x7b$\x7bB:-x\x7d$\x7b\x7d".toList ∧
      substituteVariables environment "$\x7bA\x7d$$\x7b$\x7bB:-x\x7d$\x7b\x7d" =
        "$\x7bA\x7d$x$\x7b\x7d" := by
  intro parts environment
  have hl : parts.Leftmost := by decide
  have hw : parts.written = "$\x7bA\x7d$$\x7b$\x7bB:-x\x7d$\x7b\x7d".toList := by decide
  refine ⟨hl, hw, String.toList_injective ?_⟩
  rw [(substituteVariables_fills_leftmost environment _).2.1 parts hl hw]
  decide

end MqttBroker.Config.Substitution
