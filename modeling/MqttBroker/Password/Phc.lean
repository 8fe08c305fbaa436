import MqttBroker.Password.Base64
import MqttBroker.Password.Argon2

/-!
Password hashes written as text: fields after dollar signs for the algorithm, its version, its
parameters, the salt and the hash.
-/
namespace MqttBroker.Password.Phc

def isIdentifierChar (c : Char) : Bool :=
  ('a' ≤ c && c ≤ 'z') || ('0' ≤ c && c ≤ '9') || c == '-'

def isValueChar (c : Char) : Bool :=
  c.isAlphanum || c == '/' || c == '+' || c == '.' || c == '-'

/-- Names of algorithms and parameters. -/
def isIdentifier (text : List Char) : Bool :=
  !text.isEmpty && text.length ≤ 32 && text.all isIdentifierChar

def isValue (text : List Char) : Bool := text.length ≤ 64 && text.all isValueChar

/-- A decimal number of 32 bits without leading zeros. -/
def decimal? (text : List Char) : Option Nat :=
  if text.isEmpty || !text.all (fun c => '0' ≤ c && c ≤ '9') ||
      (text.head? == some '0' && 1 < text.length) then none
  else
    let n := text.foldl (fun n c => 10 * n + (c.toNat - '0'.toNat)) 0
    if n < 1 <<< 32 then some n else none

/-- The fields of a written hash. -/
structure Fields where
  algorithm : List Char
  version : Option Nat
  parameters : List (List Char × List Char)
  salt : Option (List Char)
  hash : Option Bytes

def version? (field : List Char) : Option (Option Nat) :=
  match field with
  | 'v' :: '=' :: digits =>
    if field.contains ',' then some none
    else if isValue digits then (decimal? digits).map some else none
  | _ => some none

/-- Pairs of a name and a value, in any order. -/
def parameters? (field : List Char) : Option (List (List Char × List Char)) :=
  if 127 < (String.ofList field).utf8ByteSize then none
  else (field.splitOn ',').mapM fun pair =>
    match pair.splitOn '=' with
    | [name, value] => if isIdentifier name && isValue value then some (name, value) else none
    | _ => none

def salt? (field : List Char) : Option (List Char) :=
  if 4 ≤ field.length && isValue field then some field else none

/-- Hashes from ten to sixty-four bytes. -/
def hash? (field : List Char) : Option Bytes := do
  let bytes ← Base64.decode field
  if 10 ≤ bytes.length ∧ bytes.length ≤ 64 then some bytes else none

/-- The version and the parameters may be left out; salt and hash follow in this order. -/
def read (text : List Char) : Option Fields := do
  let [] :: algorithm :: rest := text.splitOn '$' | none
  if !isIdentifier algorithm then none
  let (version, rest) ← match rest with
    | field :: others => do
      match ← version? field with
      | some version => pure (some version, others)
      | none => pure (none, rest)
    | [] => pure (none, [])
  let (parameters, rest) ← match rest with
    | field :: others =>
      if field.contains '=' then do pure (← parameters? field, others) else pure ([], rest)
    | [] => pure ([], [])
  let (salt, rest) ← match rest with
    | field :: others => do pure (some (← salt? field), others)
    | [] => pure (none, [])
  match rest with
  | [] => pure { algorithm, version, parameters, salt, hash := none }
  | [field] => pure { algorithm, version, parameters, salt, hash := some (← hash? field) }
  | _ => none

def variant? (name : List Char) : Option Argon2.Variant :=
  if name = "argon2d".toList then some .dependent
  else if name = "argon2i".toList then some .independent
  else if name = "argon2id".toList then some .hybrid
  else none

/-- An absent version is the newer one. -/
def argonVersion? : Option Nat → Option Argon2.Version
  | none => some .v19
  | some 19 => some .v19
  | some 16 => some .v16
  | some _ => none

/-- Set one parameter; of a name given twice the later value counts. -/
def setParameter (settings : Argon2.Settings) (name value : List Char) :
    Option Argon2.Settings :=
  if name = ['m'] then do return { settings with memory := ← decimal? value }
  else if name = ['t'] then do return { settings with passes := ← decimal? value }
  else if name = ['p'] then do return { settings with lanes := ← decimal? value }
  else if name = "keyid".toList then do
    let key ← Base64.decode value
    if key.length ≤ 8 then some settings else none
  else if name = "data".toList then do
    let data ← Base64.decode value
    if data.length ≤ 32 then some { settings with associatedData := data } else none
  else none

/-- Costs that make a hash: every lane has at least eight blocks. -/
def costsValid (settings : Argon2.Settings) : Bool :=
  8 ≤ settings.memory && 1 ≤ settings.passes && 1 ≤ settings.lanes &&
    settings.lanes < 1 <<< 24 && 8 * settings.lanes ≤ settings.memory

def settings? (fields : Fields) : Option Argon2.Settings := do
  let start : Argon2.Settings :=
    { variant := ← variant? fields.algorithm, version := ← argonVersion? fields.version
      memory := 19456, passes := 2, lanes := 1, associatedData := [] }
  let settings ← fields.parameters.foldlM (fun settings (name, value) =>
    setParameter settings name value) start
  if costsValid settings then some settings else none

/-- Whether the password has the written hash; a malformed text accepts none. -/
def verify (text : String) (password : Bytes) : Bool :=
  ((do
    let fields ← read text.toList
    let settings ← settings? fields
    let salt ← Base64.decode (← fields.salt)
    let expected ← fields.hash
    if salt.length < 8 then none
    some (Argon2.hash settings password salt expected.length == expected)) : Option Bool).getD
    false

end MqttBroker.Password.Phc
