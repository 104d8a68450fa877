import StreamDispatch.Document.Toml.Quoted
import StreamDispatch.Document.Toml.Scalar

/-!
# The statements of a TOML text

A TOML text is a sequence of statements, each on a line of its own: a header names the
table that the following lines belong to, a doubled header adds a table to a list of
tables, and an assignment gives a key its value. Keys may be dotted, so every statement
carries a path.

This file reads the statements and knows nothing about which of them may stand together;
that is the matter of `StreamDispatch.Document.Toml.Assembly`. The fuel of the mutual
readers of values bounds how often they call each other and is computed from the length
of the text. Lists and inline tables may be nested 80 deep.

## Main definitions

* `Toml.Statement`, `Toml.Value`: what a text says.
* `Toml.readStatements`: the statements of a text, or `none` if it is ill-formed.
-/

namespace StreamDispatch

namespace Toml

/-- A key, dotted keys in their parts. -/
abbrev Path := List String

/-- A value as it is written. -/
inductive Value
  /-- A text, a number, a truth value, a date or a time. -/
  | leaf (d : Document)
  /-- A list. -/
  | array (items : List Value)
  /-- A table within a line. -/
  | inlineTable (entries : List (Path × Value))
  deriving Inhabited

/-- One statement. -/
inductive Statement
  /-- The following assignments belong to the table at a path. -/
  | header (path : Path)
  /-- The following assignments belong to a new table in the list at a path. -/
  | arrayHeader (path : Path)
  /-- The key at a path, within the current table, has a value. -/
  | assign (path : Path) (value : Value)
  deriving Inhabited

/-! ### White space and comments -/

/-- The text after a comment, which begins with the line break that ends it. -/
def skipComment? : List Char → Option (List Char)
  | [] => some []
  | '\n' :: s => some ('\n' :: s)
  | '\r' :: '\n' :: s => some ('\n' :: s)
  | c :: s => if isControl c then none else skipComment? s

/-- The text after white space, comments and line breaks. The fuel is a bound on the
number of comments and runs of blanks. -/
def skipTrivia? : (fuel : Nat) → List Char → Option (List Char)
  | 0, _ => none
  | fuel + 1, s =>
    match skipLines s with
    | '#' :: s => (skipComment? s).bind (skipTrivia? fuel)
    | s => some s

/-- The text after the rest of a line: blanks, perhaps a comment, and the line break. -/
def endLine? (s : List Char) : Option (List Char) :=
  match skipBlanks s with
  | [] => some []
  | '#' :: s =>
    match skipComment? s with
    | some [] => some []
    | some s => dropNewline? s
    | none => none
  | s => dropNewline? s

/-! ### Keys -/

/-- The characters of a key without quotes. -/
def isBare (c : Char) : Bool := c.isAlphanum || c = '_' || c = '-'

/-- One part of a key. -/
def readKeyPart (s : List Char) : Option (String × List Char) :=
  match s with
  | '"' :: s => readBasic s
  | '\'' :: s => readLiteral s
  | s =>
    let bare := s.takeWhile isBare
    if bare.isEmpty then none else some (String.ofList bare, s.drop bare.length)

/-- A key with its parts, and the blanks after it. The fuel bounds the number of parts. -/
def readPath : (fuel : Nat) → List Char → Option (Path × List Char)
  | 0, _ => none
  | fuel + 1, s =>
    match readKeyPart (skipBlanks s) with
    | none => none
    | some (key, s) =>
      match skipBlanks s with
      | '.' :: s => (readPath fuel s).map fun r => (key :: r.1, r.2)
      | s => some ([key], s)

/-! ### Values -/

/-- How deep lists and inline tables may be nested. -/
def maxDepth : Nat := 80

/-- The characters that end an unquoted value. -/
def endsScalar (c : Char) : Bool :=
  c = ' ' || c = '\t' || c = '\n' || c = '\r' || c = ',' || c = '#' || c = ']' || c = '}'
    || c = '[' || c = '{' || c = '=' || c = '"' || c = '\''

/-- An unquoted value. A date and the time that follows it after a single space are one. -/
def readScalar (s : List Char) : Option (Value × List Char) :=
  let front := s.takeWhile (!endsScalar ·)
  let rest := s.drop front.length
  match isDate front, rest with
  | true, ' ' :: c :: rest' =>
    if (digitOf? 10 c).isSome then
      let back := (c :: rest').takeWhile (!endsScalar ·)
      (scalar? (front ++ ' ' :: back)).map fun d => (.leaf d, (c :: rest').drop back.length)
    else (scalar? front).map fun d => (.leaf d, rest)
  | _, _ => (scalar? front).map fun d => (.leaf d, rest)

mutual

/-- Reads a value; `depth` more lists or tables may be opened. -/
def readValue (fuel depth : Nat) (s : List Char) : Option (Value × List Char) :=
  match fuel with
  | 0 => none
  | fuel + 1 =>
    match s with
    | '"' :: s => (readQuoted ('"' :: s)).map fun r => (.leaf (.text r.1), r.2)
    | '\'' :: s => (readQuoted ('\'' :: s)).map fun r => (.leaf (.text r.1), r.2)
    | '[' :: s =>
      match depth with
      | 0 => none
      | depth + 1 => (readItems fuel depth s).map fun r => (.array r.1, r.2)
    | '{' :: s =>
      match depth with
      | 0 => none
      | depth + 1 => (readEntries fuel depth s).map fun r => (.inlineTable r.1, r.2)
    | s => readScalar s

/-- Reads the items of a list, from after its opening bracket or a comma. -/
def readItems (fuel depth : Nat) (s : List Char) : Option (List Value × List Char) :=
  match fuel with
  | 0 => none
  | fuel + 1 =>
    match skipTrivia? (s.length + 1) s with
    | none => none
    | some (']' :: s) => some ([], s)
    | some s =>
      match readValue fuel depth s with
      | none => none
      | some (v, s) =>
        match skipTrivia? (s.length + 1) s with
        | some (',' :: s) => (readItems fuel depth s).map fun r => (v :: r.1, r.2)
        | some (']' :: s) => some ([v], s)
        | _ => none

/-- Reads the entries of an inline table, from after its opening brace or a comma. -/
def readEntries (fuel depth : Nat) (s : List Char) :
    Option (List (Path × Value) × List Char) :=
  match fuel with
  | 0 => none
  | fuel + 1 =>
    match skipTrivia? (s.length + 1) s with
    | none => none
    | some ('}' :: s) => some ([], s)
    | some s =>
      match readPath (s.length + 1) s with
      | some (path, '=' :: s) =>
        match readValue fuel depth (skipBlanks s) with
        | none => none
        | some (v, s) =>
          match skipTrivia? (s.length + 1) s with
          | some (',' :: s) => (readEntries fuel depth s).map fun r => ((path, v) :: r.1, r.2)
          | some ('}' :: s) => some ([(path, v)], s)
          | _ => none
      | _ => none

end

/-! ### Statements -/

/-- Reads one statement and the line it ends. -/
def readStatement (s : List Char) : Option (Statement × List Char) :=
  match s with
  | '[' :: '[' :: s =>
    match readPath (s.length + 1) s with
    | some (path, ']' :: ']' :: s) => (endLine? s).map fun s => (.arrayHeader path, s)
    | _ => none
  | '[' :: s =>
    match readPath (s.length + 1) s with
    | some (path, ']' :: s) => (endLine? s).map fun s => (.header path, s)
    | _ => none
  | s =>
    match readPath (s.length + 1) s with
    | some (path, '=' :: s) =>
      match readValue (2 * s.length + 2) maxDepth (skipBlanks s) with
      | some (v, s) => (endLine? s).map fun s => (.assign path v, s)
      | none => none
    | _ => none

/-- Reads statements to the end of a text. The fuel bounds their number. -/
def readStatementsFrom : (fuel : Nat) → List Char → Option (List Statement)
  | 0, _ => none
  | fuel + 1, s =>
    match skipTrivia? (s.length + 1) s with
    | none => none
    | some [] => some []
    | some s =>
      match readStatement s with
      | some (statement, s) => (readStatementsFrom fuel s).map (statement :: ·)
      | none => none

/-- The statements of a text, which may begin with a byte order mark. -/
def readStatements (text : String) : Option (List Statement) :=
  match text.toList with
  | '\uFEFF' :: s => readStatementsFrom (s.length + 1) s
  | s => readStatementsFrom (s.length + 1) s

end Toml

end StreamDispatch
