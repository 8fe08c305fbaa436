import MqttBroker.Toml.Value
import MqttBroker.Number.Scan

/-!
Blanks, line ends, keys and strings.  A reader takes a prefix of the text and gives what it read
and the rest, or nothing if the text is malformed.
-/
namespace MqttBroker.Toml

abbrev Text := List Char

abbrev Reader (α : Type) := Text → Option (α × Text)

/-- What may stand in a comment or a string: no control character but the tab. -/
def isText (c : Char) : Bool := c == '\t' || (0x20 ≤ c.toNat && c.toNat != 0x7f)

def isBlank (c : Char) : Bool := c == ' ' || c == '\t'

def skipBlanks (text : Text) : Text := text.dropWhile isBlank

/-- What follows a line end, if the text starts with one. -/
def lineEnd? : Text → Option Text
  | '\n' :: rest => some rest
  | '\r' :: '\n' :: rest => some rest
  | _ => none

/-- Skip a comment up to its line end. -/
def skipComment (text : Text) : Text :=
  match text with
  | '#' :: rest => rest.dropWhile isText
  | _ => text

/-- What follows a line that holds nothing more than blanks and a comment. -/
def finishLine (text : Text) : Option Text :=
  match skipComment (skipBlanks text) with
  | [] => some []
  | rest => lineEnd? rest

/-- Skip blanks, line ends and comments.  `inComment` says whether a comment is open. -/
def skipLines (inComment : Bool) : Text → Text
  | [] => []
  | '\n' :: rest => skipLines false rest
  | '\r' :: '\n' :: rest => skipLines false rest
  | c :: rest =>
    if inComment then if isText c then skipLines true rest else c :: rest
    else if c == '#' then skipLines true rest
    else if isBlank c then skipLines false rest
    else c :: rest

def hexDigit? (c : Char) : Option Nat :=
  if '0' ≤ c ∧ c ≤ '9' then some (c.toNat - '0'.toNat)
  else if 'a' ≤ c ∧ c ≤ 'f' then some (c.toNat - 'a'.toNat + 10)
  else if 'A' ≤ c ∧ c ≤ 'F' then some (c.toNat - 'A'.toNat + 10)
  else none

/-- The character of a code point; surrogates have none. -/
def scalar? (digits : List Char) : Option Char := do
  let n := Number.digitsValue 16 (← digits.mapM hexDigit?)
  if h : n.isValidChar then some (Char.ofNatAux n h) else none

/-- The character that a letter stands for after a backslash. -/
def shortEscape? : Char → Option Char
  | 'b' => some '\x08'
  | 't' => some '\t'
  | 'n' => some '\n'
  | 'f' => some '\x0c'
  | 'r' => some '\r'
  | '"' => some '"'
  | '\\' => some '\\'
  | _ => none

/-- Put a character in front of what a reader gave. -/
def push (c : Char) (read : Option (Text × Text)) : Option (Text × Text) :=
  read.map fun (text, rest) => (c :: text, rest)

/-- The inside of a string in double quotes, up to its end. -/
def basicString : Reader Text
  | '"' :: rest => some ([], rest)
  | '\\' :: 'u' :: a :: b :: c :: d :: rest => do
    push (← scalar? [a, b, c, d]) (basicString rest)
  | '\\' :: 'U' :: a :: b :: c :: d :: e :: f :: g :: h :: rest => do
    push (← scalar? [a, b, c, d, e, f, g, h]) (basicString rest)
  | '\\' :: c :: rest => do push (← shortEscape? c) (basicString rest)
  | c :: rest => if isText c && c != '\\' then push c (basicString rest) else none
  | [] => none

/-- The inside of a string in single quotes, where nothing is escaped. -/
def literalString : Reader Text
  | '\'' :: rest => some ([], rest)
  | c :: rest => if isText c then push c (literalString rest) else none
  | [] => none

/-- The end of a string in triple quotes: one or two more quotes belong to the string. -/
def finishTriple (quote : Char) (rest : Text) : Option (Text × Text) :=
  let extra := rest.takeWhile (· == quote)
  if extra.length ≤ 2 then some (extra, rest.drop extra.length) else none

/-- The inside of a string in triple double quotes.  While `joining`, blanks and line ends are
dropped: a backslash at the end of a line joins it to the next text. -/
def basicLines (joining : Bool) : Reader Text
  | '"' :: '"' :: '"' :: rest => finishTriple '"' rest
  | '\n' :: rest => if joining then basicLines true rest else push '\n' (basicLines false rest)
  | '\r' :: '\n' :: rest =>
    if joining then basicLines true rest else push '\n' (basicLines false rest)
  | '\\' :: rest =>
    if (lineEnd? (skipBlanks rest)).isSome then basicLines true rest
    else match rest with
      | 'u' :: a :: b :: c :: d :: rest => do
        push (← scalar? [a, b, c, d]) (basicLines false rest)
      | 'U' :: a :: b :: c :: d :: e :: f :: g :: h :: rest => do
        push (← scalar? [a, b, c, d, e, f, g, h]) (basicLines false rest)
      | c :: rest => do push (← shortEscape? c) (basicLines false rest)
      | [] => none
  | c :: rest =>
    if joining && isBlank c then basicLines true rest
    else if isText c then push c (basicLines false rest)
    else none
  | [] => none

/-- The inside of a string in triple single quotes. -/
def literalLines : Reader Text
  | '\'' :: '\'' :: '\'' :: rest => finishTriple '\'' rest
  | '\n' :: rest => push '\n' (literalLines rest)
  | '\r' :: '\n' :: rest => push '\n' (literalLines rest)
  | c :: rest => if isText c then push c (literalLines rest) else none
  | [] => none

/-- A line end right after the opening quotes does not belong to the string. -/
def skipFirstLineEnd (text : Text) : Text := (lineEnd? text).getD text

/-- A string of any of the four forms. -/
def stringValue : Reader String := fun text => do
  let (chars, rest) ← match text with
    | '"' :: '"' :: '"' :: rest => basicLines false (skipFirstLineEnd rest)
    | '"' :: rest => basicString rest
    | '\'' :: '\'' :: '\'' :: rest => literalLines (skipFirstLineEnd rest)
    | '\'' :: rest => literalString rest
    | _ => none
  return (String.ofList chars, rest)

def isBareKeyChar (c : Char) : Bool := c.isAlphanum || c == '-' || c == '_'

/-- A bare key or a key in quotes. -/
def simpleKey : Reader String
  | '"' :: rest => (basicString rest).map fun (key, rest) => (String.ofList key, rest)
  | '\'' :: rest => (literalString rest).map fun (key, rest) => (String.ofList key, rest)
  | text =>
    let key := text.takeWhile isBareKeyChar
    if key.isEmpty then none else some (String.ofList key, text.dropWhile isBareKeyChar)

/-- The most levels of keys, arrays and inline tables a document may use. -/
def maxDepth : Nat := 79

/-- Keys with dots between them and blanks around them. -/
def dottedKey : Nat → Reader (List String)
  | 0, _ => none
  | depth + 1, text => do
    let (key, rest) ← simpleKey (skipBlanks text)
    match skipBlanks rest with
    | '.' :: rest =>
      let (keys, rest) ← dottedKey depth rest
      return (key :: keys, rest)
    | rest => return ([key], rest)

end MqttBroker.Toml
