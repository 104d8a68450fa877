import StreamDispatch.Document
import StreamDispatch.Number.Exact

/-!
# Writing JSON

Documents are written either spread over lines, with two more spaces of indentation in
every list and table, or on one line. Both forms write an empty list or table without a
break, and both quote text alike.

## Main definitions

* `Json.quoted`: a text as a JSON string.
* `Json.pretty`, `Json.compact`: the two forms of a document.
-/

namespace StreamDispatch

namespace Json

/-- A hexadecimal digit in lower case. -/
def hexLetter (n : Nat) : Char :=
  if n < 10 then Char.ofNat ('0'.toNat + n) else Char.ofNat ('a'.toNat + (n - 10))

/-- A character inside a string: quotes, backslashes and control characters are escaped. -/
def escapedChar (c : Char) : List Char :=
  if c = '"' then ['\\', '"']
  else if c = '\\' then ['\\', '\\']
  else if c = '\n' then ['\\', 'n']
  else if c = '\r' then ['\\', 'r']
  else if c = '\t' then ['\\', 't']
  else if c = '\x08' then ['\\', 'b']
  else if c = '\x0C' then ['\\', 'f']
  else if c < ' ' then
    ['\\', 'u', '0', '0', hexLetter (c.toNat / 16), hexLetter (c.toNat % 16)]
  else [c]

/-- A text as a string. -/
def quoted (s : String) : String :=
  String.ofList ('"' :: s.toList.flatMap escapedChar ++ ['"'])

/-- A float; JSON has no infinities and writes `null` for them. -/
def floatWord (x : Float) : String := (exactText x).getD "null"

/-- The opening of a line, indented by `depth` steps of two spaces. -/
def newLine (depth : Nat) : String := "\n" ++ String.ofList (List.replicate (2 * depth) ' ')

mutual

/-- A document over several lines; `depth` lists and tables are open around it. -/
def prettyAt (depth : Nat) : Document → String
  | .null => "null"
  | .boolean b => if b then "true" else "false"
  | .integer n => toString n
  | .float x => floatWord x
  | .text s => quoted s
  | .date s => quoted s
  | .list [] _ => "[]"
  | .list items _ => "[" ++ prettyItems (depth + 1) "" items ++ newLine depth ++ "]"
  | .table [] _ => "\x7b\x7d"
  | .table entries _ => "\x7b" ++ prettyEntries (depth + 1) "" entries ++ newLine depth ++ "\x7d"
  | .unreadable => "null"
  | .broken => "null"

/-- The items of a list, each on a line of its own; `before` is written first. -/
def prettyItems (depth : Nat) (before : String) : List Document → String
  | [] => ""
  | d :: rest => before ++ newLine depth ++ prettyAt depth d ++ prettyItems depth "," rest

/-- The entries of a table, each on a line of its own; `before` is written first. -/
def prettyEntries (depth : Nat) (before : String) :
    List (Option String × Document) → String
  | [] => ""
  | (k, d) :: rest =>
    before ++ newLine depth ++ quoted (k.getD "") ++ ": " ++ prettyAt depth d
      ++ prettyEntries depth "," rest

end

/-- A document over several lines. -/
def pretty (d : Document) : String := prettyAt 0 d

mutual

/-- A document on one line. -/
def compact : Document → String
  | .null => "null"
  | .boolean b => if b then "true" else "false"
  | .integer n => toString n
  | .float x => floatWord x
  | .text s => quoted s
  | .date s => quoted s
  | .list items _ => "[" ++ compactItems "" items ++ "]"
  | .table entries _ => "\x7b" ++ compactEntries "" entries ++ "\x7d"
  | .unreadable => "null"
  | .broken => "null"

/-- The items of a list on one line; `before` is written first. -/
def compactItems (before : String) : List Document → String
  | [] => ""
  | d :: rest => before ++ compact d ++ compactItems "," rest

/-- The entries of a table on one line; `before` is written first. -/
def compactEntries (before : String) : List (Option String × Document) → String
  | [] => ""
  | (k, d) :: rest =>
    before ++ quoted (k.getD "") ++ ":" ++ compact d ++ compactEntries "," rest

end

end Json

end StreamDispatch
