import MqttBroker.Toml.Scalar

/-!
Documents: keys, headers and the tables they fill.  A table is opened by a header once; tables
that only lead to others, and tables made by dotted keys, follow rules of their own.
-/
namespace MqttBroker.Toml

/-- How a table came to be: by its own header, on the way to another header, or by a dotted key. -/
inductive Origin where
  | header
  | implied
  | dotted
  deriving DecidableEq

/-- A document under construction.  The last of several tables in an array is the open one. -/
inductive Node where
  | value (value : Value)
  | table (origin : Origin) (entries : List (String × Node))
  | tables (items : List (List (String × Node)))

abbrev Entries := List (String × Node)

/-- Replace the first entry of a key, or add one at the end. -/
def setEntry (key : String) (node : Node) : Entries → Entries
  | [] => [(key, node)]
  | entry :: rest =>
    if entry.1 = key then (key, node) :: rest else entry :: setEntry key node rest

/-- Apply a change at the table that a path leads to.  Missing tables are made on the way.  A
dotted key may pass only through tables that no header opened. -/
def within (dotted : Bool) (change : Origin → Entries → Option (Origin × Entries)) :
    List String → Origin → Entries → Option (Origin × Entries)
  | [], origin, entries => change origin entries
  | key :: path, origin, entries =>
    match entries.lookup key with
    | none => do
      let (made, inner) ← within dotted change path (if dotted then .dotted else .implied) []
      return (origin, setEntry key (.table made inner) entries)
    | some (.table found inner) =>
      if dotted ∧ found = .header then none
      else do
        let (found, inner) ← within dotted change path found inner
        return (origin, setEntry key (.table found inner) entries)
    | some (.tables items) =>
      match items.reverse with
      | [] => none
      | last :: earlier => do
        let (_, last) ← within dotted change path .header last
        return (origin, setEntry key (.tables (earlier.reverse ++ [last])) entries)
    | some (.value _) => none

/-- Add a key with its value.  A dotted key ends in a table made by dotted keys. -/
def assign (path : List String) (key : String) (node : Node) (origin : Origin)
    (entries : Entries) : Option (Origin × Entries) :=
  within true (fun origin entries =>
    if (origin == .dotted) == path.isEmpty || (entries.lookup key).isSome then none
    else some (origin, entries ++ [(key, node)])) path origin entries

/-- Open the table of a header.  One that so far only led to others moves to the end. -/
def openTable (key : String) (origin : Origin) (entries : Entries) :
    Option (Origin × Entries) :=
  match entries.lookup key with
  | none => some (origin, setEntry key (.table .header []) entries)
  | some (.table .implied inner) =>
    some (origin, entries.filter (·.1 ≠ key) ++ [(key, .table .header inner)])
  | some _ => none

/-- Open one more table of an array. -/
def openItem (key : String) (origin : Origin) (entries : Entries) : Option (Origin × Entries) :=
  match entries.lookup key with
  | none => some (origin, setEntry key (.tables [[]]) entries)
  | some (.tables items) => some (origin, setEntry key (.tables (items ++ [[]])) entries)
  | some _ => none

mutual

/-- The finished value of a node. -/
def Node.toValue : Node → Value
  | .value value => value
  | .table _ entries => .table (entriesToValues entries)
  | .tables items => .array (itemsToValues items)

def entriesToValues : List (String × Node) → List (String × Value)
  | [] => []
  | (key, node) :: rest => (key, node.toValue) :: entriesToValues rest

def itemsToValues : List (List (String × Node)) → List Value
  | [] => []
  | entries :: rest => .table (entriesToValues entries) :: itemsToValues rest

end

/-- Split a path into its last key and the keys before it. -/
def splitLast : List String → Option (List String × String)
  | [] => none
  | [key] => some ([], key)
  | key :: rest => (splitLast rest).map fun (path, last) => (key :: path, last)

mutual

/-- A value; `depth` bounds its nesting, and `fuel` the length of the text. -/
def value : Nat → Nat → Reader Value
  | 0, _, _ => none
  | _ + 1, 0, '[' :: _ => none
  | _ + 1, 0, '\x7b' :: _ => none
  | fuel + 1, depth + 1, '[' :: rest => arrayItems fuel depth [] rest
  | fuel + 1, depth + 1, '\x7b' :: rest => inlineEntries fuel depth true [] rest
  | _ + 1, _, text => scalarValue text

/-- The items of an array; a comma may follow the last one. -/
def arrayItems : Nat → Nat → List Value → Reader Value
  | 0, _, _, _ => none
  | fuel + 1, depth, items, text =>
    match skipLines false text with
    | ']' :: rest => some (.array items.reverse, rest)
    | text => do
      let (item, rest) ← value fuel depth text
      match skipLines false rest with
      | ',' :: rest => arrayItems fuel depth (item :: items) rest
      | ']' :: rest => some (.array (item :: items).reverse, rest)
      | _ => none

/-- The entries of an inline table, on one line and without a last comma. -/
def inlineEntries : Nat → Nat → Bool → Entries → Reader Value
  | 0, _, _, _, _ => none
  | fuel + 1, depth, first, entries, text =>
    match skipBlanks text, first with
    | '\x7d' :: rest, true => some (.table (entriesToValues entries), rest)
    | text, _ => do
      let (keys, rest) ← dottedKey maxDepth text
      let '=' :: rest := rest | none
      let (item, rest) ← value fuel depth (skipBlanks rest)
      let (path, key) ← splitLast keys
      let (_, entries) ← assign path key (.value item) .header entries
      match skipBlanks rest with
      | ',' :: rest => inlineEntries fuel depth false entries rest
      | '\x7d' :: rest => some (.table (entriesToValues entries), rest)
      | _ => none

end

/-- The document so far and the header its next keys belong to. -/
structure Progress where
  root : Entries
  current : List String

/-- A header in brackets; double brackets open a table of an array. -/
def header (progress : Progress) (text : Text) : Option (Progress × Text) := do
  let (isItem, inside) := match text with
    | '[' :: rest => (true, rest)
    | rest => (false, rest)
  let (keys, rest) ← dottedKey maxDepth inside
  let rest ← match isItem, rest with
    | true, ']' :: ']' :: rest => some rest
    | false, ']' :: rest => some rest
    | _, _ => none
  let (path, key) ← splitLast keys
  let (_, root) ← within false (if isItem then openItem key else openTable key) path .header
    progress.root
  return (⟨root, keys⟩, ← finishLine rest)

/-- A key with its value, in the table of the current header. -/
def keyValue (progress : Progress) (text : Text) : Option (Progress × Text) := do
  let (keys, rest) ← dottedKey maxDepth text
  let '=' :: rest := rest | none
  let (item, rest) ← value (rest.length + 1) maxDepth (skipBlanks rest)
  let (path, key) ← splitLast keys
  let (_, root) ← within false (assign path key (.value item)) progress.current .header
    progress.root
  return (⟨root, progress.current⟩, ← finishLine rest)

/-- The lines of a document.  Each takes at least one character. -/
def lines : Nat → Progress → Text → Option Progress
  | 0, _, _ => none
  | fuel + 1, progress, text =>
    match skipLines false text with
    | [] => some progress
    | '[' :: rest => do
      let (progress, rest) ← header progress rest
      lines fuel progress rest
    | text => do
      let (progress, rest) ← keyValue progress text
      lines fuel progress rest

/-- Read a document; nothing if it is malformed.  A byte order mark at the start is skipped. -/
def parse? (document : String) : Option (List (String × Value)) := do
  let text := match document.toList with
    | c :: rest => if c.toNat = 0xfeff then rest else c :: rest
    | [] => []
  let progress ← lines (text.length + 1) ⟨[], []⟩ text
  return entriesToValues progress.root

end MqttBroker.Toml
