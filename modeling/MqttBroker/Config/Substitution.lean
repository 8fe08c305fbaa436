/-!
Variables in the text of a configuration.  A dollar sign and a name in braces stand for the value
of the variable; after the name, a colon and a hyphen may give a text for an unset variable.
-/
namespace MqttBroker.Config.Substitution

/-- A reference at the start of a text, and what follows it. -/
structure Reference where
  name : List Char
  fallback : List Char
  rest : List Char

def isNameChar (c : Char) : Bool := c != '\x7d' && c != ':'

def isFallbackChar (c : Char) : Bool := c != '\x7d'

/-- Read a reference after its opening brace.  A name is not empty and has no colon. -/
def inside? (text : List Char) : Option Reference :=
  let name := text.takeWhile isNameChar
  if name.isEmpty then none
  else match text.dropWhile isNameChar with
    | '\x7d' :: rest => some ⟨name, [], rest⟩
    | ':' :: '-' :: after =>
      match after.dropWhile isFallbackChar with
      | _ :: rest => some ⟨name, after.takeWhile isFallbackChar, rest⟩
      | [] => none
    | _ => none

/-- The reference that a text starts with. -/
def reference? : List Char → Option Reference
  | '$' :: '\x7b' :: text => inside? text
  | _ => none

theorem length_dropWhile_le (p : Char → Bool) (text : List Char) :
    (text.dropWhile p).length ≤ text.length :=
  (List.dropWhile_sublist p).length_le

theorem inside?_length {text : List Char} {reference : Reference}
    (h : inside? text = some reference) : reference.rest.length < text.length := by
  have dropped := length_dropWhile_le isNameChar text
  simp only [inside?] at h
  split at h
  · contradiction
  · split at h
    · next rest same =>
      rw [same] at dropped
      simp only [Option.some.injEq] at h
      subst h
      simp only [List.length_cons] at dropped ⊢
      omega
    · next after same =>
      rw [same] at dropped
      have dropped' := length_dropWhile_le isFallbackChar after
      split at h
      · next rest same' =>
        rw [same'] at dropped'
        simp only [Option.some.injEq] at h
        subst h
        simp only [List.length_cons] at dropped dropped' ⊢
        omega
      · contradiction
    · contradiction

theorem reference?_length {text : List Char} {reference : Reference}
    (h : reference? text = some reference) : reference.rest.length < text.length := by
  unfold reference? at h
  split at h
  · have := inside?_length h
    simp only [List.length_cons]
    omega
  · contradiction

/-- The value of a reference's variable, or its fallback. -/
def Reference.value (environment : String → Option String) (reference : Reference) : List Char :=
  ((environment (String.ofList reference.name)).map String.toList).getD reference.fallback

/-- Replace the references from left to right.  Inserted values are not read again. -/
def expand (environment : String → Option String) (text : List Char) : List Char :=
  match _ : reference? text with
  | some reference => reference.value environment ++ expand environment reference.rest
  | none =>
    match text with
    | [] => []
    | c :: rest => c :: expand environment rest
termination_by text.length
decreasing_by
  · exact reference?_length ‹_›
  · simp

end Substitution

/-- Replace the variables of a configuration's text. -/
def substituteVariables (environment : String → Option String) (text : String) : String :=
  String.ofList (Substitution.expand environment text.toList)

end MqttBroker.Config
