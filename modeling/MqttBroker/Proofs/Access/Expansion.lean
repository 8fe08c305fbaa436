import Mathlib.Tactic
import MqttBroker.Access.Acl

/-!
A pattern is meant to take both values of an identity at once.  It does so exactly if the client
identifier, which is put in first, makes no new mention of the user name.
-/
namespace MqttBroker.Acl

/-- A pattern with the client identifier put in: its characters, and a place for the user name
wherever the pattern itself mentions it. -/
def pieces (clientId : List Char) : List Char → List (Option Char)
  | [] => []
  | '%' :: 'c' :: rest => clientId.map some ++ pieces clientId rest
  | '%' :: 'u' :: rest => none :: pieces clientId rest
  | c :: rest => some c :: pieces clientId rest

/-- Put a value in every place. -/
def fillPlaces (value : List Char) (pieces : List (Option Char)) : List Char :=
  pieces.flatMap fun piece => piece.elim value ([·])

/-- A pattern with both values put in at once: what was put in is not read again. -/
def fill (clientId username pattern : List Char) : List Char :=
  fillPlaces username (pieces clientId pattern)

/-- How often a percent sign and the given letter stand next to each other. -/
def occurrences (letter : Char) : List Char → ℕ
  | [] => 0
  | [_] => 0
  | c :: d :: rest =>
    if c = '%' ∧ d = letter then occurrences letter rest + 1 else occurrences letter (d :: rest)

variable {letter c : Char} {value rest : List Char}

section mentions

lemma substitute_mention :
    substitute letter value ('%' :: letter :: rest) = value ++ substitute letter value rest := by
  simp [substitute]

lemma occurrences_mention :
    occurrences letter ('%' :: letter :: rest) = occurrences letter rest + 1 := by
  simp [occurrences]

/-- A character that starts no mention stays. -/
lemma substitute_cons (h : c = '%' → rest.head? ≠ some letter) :
    substitute letter value (c :: rest) = c :: substitute letter value rest := by
  cases rest with
  | nil => rfl
  | cons d rest =>
    have hn : ¬ (c = '%' ∧ d = letter) := by
      rintro ⟨hc, hd⟩
      exact h hc (congrArg some hd)
    rw [substitute, if_neg hn]

lemma occurrences_cons (h : c = '%' → rest.head? ≠ some letter) :
    occurrences letter (c :: rest) = occurrences letter rest := by
  cases rest with
  | nil => rfl
  | cons d rest =>
    have hn : ¬ (c = '%' ∧ d = letter) := by
      rintro ⟨hc, hd⟩
      exact h hc (congrArg some hd)
    rw [occurrences, if_neg hn]

/-- Every mention takes two characters, and each is replaced. -/
lemma length_substitute (letter : Char) (value text : List Char) :
    (substitute letter value text).length + 2 * occurrences letter text =
      text.length + value.length * occurrences letter text := by
  fun_induction occurrences letter text with
  | case1 => simp [substitute]
  | case2 c => simp [substitute]
  | case3 c d rest h ih =>
    obtain ⟨rfl, rfl⟩ := h
    have hm := Nat.mul_add_one value.length (occurrences d rest)
    rw [substitute_mention, List.length_append, List.length_cons, List.length_cons]
    omega
  | case4 c d rest h ih =>
    have hs : substitute letter value (c :: d :: rest) = c :: substitute letter value (d :: rest) :=
      substitute_cons fun hc hd => h ⟨hc, Option.some.inj hd⟩
    rw [hs, List.length_cons, List.length_cons]
    omega

end mentions

section places

@[simp] lemma fillPlaces_nil : fillPlaces value [] = [] := rfl

@[simp] lemma fillPlaces_place (pieces : List (Option Char)) :
    fillPlaces value (none :: pieces) = value ++ fillPlaces value pieces := rfl

@[simp] lemma fillPlaces_char (pieces : List (Option Char)) :
    fillPlaces value (some c :: pieces) = c :: fillPlaces value pieces := rfl

lemma fillPlaces_chars (chars : List Char) (pieces : List (Option Char)) :
    fillPlaces value (chars.map some ++ pieces) = chars ++ fillPlaces value pieces := by
  induction chars with
  | nil => rfl
  | cons c chars ih => exact congrArg (c :: ·) ih

/-- With the mentions left standing, the pieces are what the first substitution yields. -/
lemma fillPlaces_pieces (clientId pattern : List Char) :
    fillPlaces ['%', 'u'] (pieces clientId pattern) = substitute 'c' clientId pattern := by
  fun_induction pieces clientId pattern with
  | case1 => rfl
  | case2 rest ih => rw [fillPlaces_chars, substitute_mention, ih]
  | case3 rest ih =>
    have hp : ('%' : Char) = '%' → ('u' :: rest).head? ≠ some 'c' := by simp
    have hu : ('u' : Char) = '%' → rest.head? ≠ some 'c' := by simp
    rw [substitute_cons hp, substitute_cons hu, fillPlaces_place, ih]
    rfl
  | case4 c rest hc _ ih =>
    have hn : c = '%' → rest.head? ≠ some 'c' := by
      rintro rfl hh
      obtain ⟨tail, rfl⟩ := List.head?_eq_some_iff.mp hh
      exact hc tail rfl rfl
    rw [substitute_cons hn, fillPlaces_char, ih]

/-- The places are the mentions of the pattern itself. -/
lemma count_places (clientId pattern : List Char) :
    (pieces clientId pattern).count none = occurrences 'u' pattern := by
  fun_induction pieces clientId pattern with
  | case1 => rfl
  | case2 rest ih =>
    have hp : ('%' : Char) = '%' → ('c' :: rest).head? ≠ some 'u' := by simp
    have hc : ('c' : Char) = '%' → rest.head? ≠ some 'u' := by simp
    have hn : (clientId.map some).count none = 0 := by simp [List.count_eq_zero]
    rw [occurrences_cons hp, occurrences_cons hc, List.count_append, hn, ih, Nat.zero_add]
  | case3 rest ih => rw [occurrences_mention, List.count_cons_self, ih]
  | case4 c rest _ hu ih =>
    have hn : c = '%' → rest.head? ≠ some 'u' := by
      rintro rfl hh
      obtain ⟨tail, rfl⟩ := List.head?_eq_some_iff.mp hh
      exact hu tail rfl rfl
    rw [occurrences_cons hn, List.count_cons_of_ne (by simp), ih]

/-- A text read again has all its places as mentions.  If it has no others, a value that replaces
the mentions fills the places. -/
lemma substitute_fillPlaces (pieces : List (Option Char)) :
    pieces.count none ≤ occurrences 'u' (fillPlaces ['%', 'u'] pieces) ∧
      (pieces.count none = occurrences 'u' (fillPlaces ['%', 'u'] pieces) →
        ∀ value, substitute 'u' value (fillPlaces ['%', 'u'] pieces) = fillPlaces value pieces) := by
  induction pieces with
  | nil => exact ⟨le_rfl, fun _ _ => rfl⟩
  | cons piece pieces ih =>
    obtain ⟨hle, hfill⟩ := ih
    set text := fillPlaces ['%', 'u'] pieces with ht
    cases piece with
    | none =>
      have he : fillPlaces ['%', 'u'] (none :: pieces) = '%' :: 'u' :: text := rfl
      rw [he, List.count_cons_self, occurrences_mention]
      refine ⟨Nat.succ_le_succ hle, fun heq value => ?_⟩
      rw [substitute_mention, hfill (Nat.succ_injective heq), fillPlaces_place]
    | some c =>
      rw [fillPlaces_char, List.count_cons_of_ne (by simp), ← ht]
      by_cases hc : c = '%' ∧ text.head? = some 'u'
      · -- a mention that spans the pieces: there are more mentions than places
        obtain ⟨rfl, hu⟩ := hc
        obtain ⟨tail, htail⟩ := List.head?_eq_some_iff.mp hu
        have ho : occurrences 'u' text = occurrences 'u' tail := by
          rw [htail]
          exact occurrences_cons (by simp)
        have hlt : pieces.count none < occurrences 'u' ('%' :: text) := by
          rw [htail, occurrences_mention, ← ho]
          exact Nat.lt_succ_of_le hle
        exact ⟨hlt.le, fun heq => absurd heq hlt.ne⟩
      · have hn : c = '%' → text.head? ≠ some 'u' := fun h hu => hc ⟨h, hu⟩
        rw [occurrences_cons hn]
        refine ⟨hle, fun heq value => ?_⟩
        rw [substitute_cons hn, hfill heq, fillPlaces_char]

lemma length_fillPlaces (value : List Char) (pieces : List (Option Char)) :
    (fillPlaces value pieces).length + pieces.count none =
      pieces.length + value.length * pieces.count none := by
  induction pieces with
  | nil => rfl
  | cons piece pieces ih =>
    cases piece with
    | none =>
      rw [fillPlaces_place, List.length_append, List.count_cons_self, List.length_cons,
        Nat.mul_succ]
      omega
    | some c =>
      rw [fillPlaces_char, List.count_cons_of_ne (by simp), List.length_cons, List.length_cons]
      omega

end places

/-- Both values are put in at once, and a pattern that mentions an unsafe one is refused, whatever
the user name, exactly if the client identifier is refused itself or makes no new mention of the
user name. -/
theorem expand_eq_fill_iff (pattern clientId : List Char) :
    (∀ username, expand pattern clientId username =
      if (mentions 'c' pattern && isUnsafe clientId) ||
        (mentions 'u' pattern && isUnsafe username) then none
      else some (fill clientId username pattern)) ↔
    (mentions 'c' pattern && isUnsafe clientId) ∨
      occurrences 'u' (substitute 'c' clientId pattern) = occurrences 'u' pattern := by
  have hp := fillPlaces_pieces clientId pattern
  have hn := count_places clientId pattern
  constructor
  · intro h
    by_cases hr : (mentions 'c' pattern && isUnsafe clientId) = true
    · exact .inl hr
    right
    -- a harmless user name that is longer than its mention shows every mention
    have hs := h ['a', 'a', 'a']
    have hsafe : isUnsafe ['a', 'a', 'a'] = false := by decide
    have hg : ¬ ((mentions 'c' pattern && isUnsafe clientId) ||
        (mentions 'u' pattern && isUnsafe ['a', 'a', 'a'])) = true := by
      rw [hsafe, Bool.and_false, Bool.or_false]
      exact hr
    rw [expand, if_neg hg, if_neg hg] at hs
    have hlen := congrArg List.length (Option.some.inj hs)
    have h3 := length_fillPlaces ['a', 'a', 'a'] (pieces clientId pattern)
    have h2 := length_fillPlaces ['%', 'u'] (pieces clientId pattern)
    have hc := length_substitute 'u' ['a', 'a', 'a'] (substitute 'c' clientId pattern)
    rw [hp, hn] at h2
    rw [hn] at h3
    rw [fill] at hlen
    simp only [List.length_cons, List.length_nil] at h2 h3 hc
    omega
  · rintro (hr | ho) username
    · rw [expand, if_pos (by rw [hr, Bool.true_or]), if_pos (by rw [hr, Bool.true_or])]
    · have hf := (substitute_fillPlaces (pieces clientId pattern)).2
      rw [hp, hn] at hf
      rw [expand, fill, hf ho.symm]

/-- The client identifier may bring in a mention of the user name, which is then put in unseen: here
it opens a topic that no pattern names. -/
theorem expand_fills_twice :
    let pattern := "commands/%c".toList
    let clientId := "%u".toList
    let username := "#".toList
    isUnsafe clientId = false ∧ isUnsafe username = true ∧ mentions 'u' pattern = false ∧
      fill clientId username pattern = "commands/%u".toList ∧
      expand pattern clientId username = some "commands/#".toList ∧
      permits ["commands/%c"] (.authenticated "%u" (some "#") none) "commands/victim" = true := by
  decide

end MqttBroker.Acl
