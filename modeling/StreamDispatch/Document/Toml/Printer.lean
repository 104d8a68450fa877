import StreamDispatch.Document
import StreamDispatch.Number.Exact

/-!
# Writing TOML

A document is written as a TOML text: in every table the single values come first, each
on a line of its own, and the tables within it follow under headers. A header is left out
if all it would have below it is further headers.

Text is quoted in the way that needs the least escaping. In order of preference: double
quotes, single quotes, triple double quotes, triple single quotes, each if it holds the
text without an escape (the tab is escaped in any case), and else double quotes with
escapes, triple ones if there are line breaks. A list of two or more items has each item
on a line of its own.

TOML has integers of 64 bits with a sign; a greater number cannot be written.

## Main definitions

* `Toml.quoted`, `Toml.keyText`: a text and a key in writing.
* `Toml.print`: the TOML text of a table.
-/

namespace StreamDispatch

namespace Toml

/-! ### Text -/

/-- A hexadecimal digit in upper case. -/
def hexCapital (n : Nat) : Char :=
  if n < 10 then Char.ofNat ('0'.toNat + n) else Char.ofNat ('A'.toNat + (n - 10))

/-- A code point in four hexadecimal digits. -/
def hexWord (n : Nat) : List Char :=
  [hexCapital (n / 4096 % 16), hexCapital (n / 256 % 16), hexCapital (n / 16 % 16),
    hexCapital (n % 16)]

/-- Characters that have to be escaped wherever they stand. -/
def isControlText (c : Char) : Bool := c < ' ' || c = '\x7F'

/-- A control character, a quote or a backslash as an escape. -/
def escapedChar (c : Char) : List Char :=
  if c = '\x08' then ['\\', 'b']
  else if c = '\t' then ['\\', 't']
  else if c = '\n' then ['\\', 'n']
  else if c = '\x0C' then ['\\', 'f']
  else if c = '\r' then ['\\', 'r']
  else if c = '"' then ['\\', '"']
  else if c = '\\' then ['\\', '\\']
  else if isControlText c then '\\' :: 'u' :: hexWord c.toNat
  else [c]

/-- The longest run of `quote` in a text; `current` is the run at its front. -/
def longestRun (quote : Char) : List Char → (current longest : Nat) → Nat
  | [], _, longest => longest
  | c :: s, current, longest =>
    if c = quote then longestRun quote s (current + 1) (max longest (current + 1))
    else longestRun quote s 0 longest

/-- What the choice of quotes depends on. -/
structure TextShape where
  /-- The longest run of single quotes. -/
  singles : Nat
  /-- The longest run of double quotes. -/
  doubles : Nat
  /-- Whether there is a backslash. -/
  backslash : Bool
  /-- Whether there is a control character other than a line break. -/
  control : Bool
  /-- Whether there is a line break. -/
  newline : Bool

/-- The shape of a text. -/
def shapeOf (cs : List Char) : TextShape where
  singles := longestRun '\'' cs 0 0
  doubles := longestRun '"' cs 0 0
  backslash := cs.contains '\\'
  control := cs.any fun c => isControlText c && c ≠ '\n' && c ≠ '\t'
  newline := cs.contains '\n'

/-- Text between double quotes, with escapes. -/
def basicText (cs : List Char) : List Char :=
  '"' :: cs.flatMap escapedChar ++ ['"']

/-- Text between triple double quotes: line breaks stay, and of a run of quotes every
third is escaped. -/
def basicLinesFrom (run : Nat) : List Char → List Char
  | [] => []
  | c :: s =>
    if c = '"' then
      if run = 2 then '\\' :: '"' :: basicLinesFrom 0 s
      else '"' :: basicLinesFrom (run + 1) s
    else if c = '\n' then '\n' :: basicLinesFrom 0 s
    else escapedChar c ++ basicLinesFrom 0 s

/-- What follows an opening triple quote: text with line breaks begins on a line of its
own. -/
def linesStart (newline : Bool) : List Char := if newline then ['\n'] else []

/-- Text between triple double quotes. -/
def basicLinesText (newline : Bool) (cs : List Char) : List Char :=
  "\"\"\"".toList ++ linesStart newline ++ basicLinesFrom 0 cs ++ "\"\"\"".toList

/-- Text between triple single quotes. -/
def literalLinesText (newline : Bool) (cs : List Char) : List Char :=
  "'''".toList ++ linesStart newline ++ cs ++ "'''".toList

/-- A text in the quotes that need the least escaping. -/
def quotedChars (cs : List Char) : List Char :=
  let shape := shapeOf cs
  let unescaped := !shape.control && !shape.backslash
  if unescaped && shape.doubles = 0 && !shape.newline then basicText cs
  else if !shape.control && shape.singles = 0 && !shape.newline then
    '\'' :: cs ++ ['\'']
  else if unescaped && shape.doubles ≤ 2 then basicLinesText shape.newline cs
  else if !shape.control && shape.singles ≤ 2 then
    literalLinesText shape.newline cs
  else if shape.newline then basicLinesText true cs
  else basicText cs

/-- A text as a value. -/
def quoted (s : String) : String := String.ofList (quotedChars s.toList)

/-- A key, without quotes if it has only letters, digits, `_` and `-`. -/
def keyText (s : String) : String :=
  let cs := s.toList
  if !cs.isEmpty && cs.all (fun c => c.isAlphanum || c = '_' || c = '-') then s
  else
    let shape := shapeOf cs
    if !shape.control && shape.singles = 0 && !shape.newline
        && (shape.backslash || shape.doubles ≠ 0) then
      String.ofList ('\'' :: cs ++ ['\''])
    else String.ofList (basicText cs)

/-! ### Values -/

/-- An integer, if it fits into 64 bits with a sign. -/
def integerText? (n : Int) : Option String :=
  if -(halfWordCount64 : Int) ≤ n ∧ n < halfWordCount64 then some (toString n) else none

/-- A float; infinities have words of their own. -/
def floatText (x : Float) : String :=
  (exactText x).getD (if x.isNaN then "nan" else if x < 0 then "-inf" else "inf")

mutual

/-- A value within a line. -/
def inline? : Document → Option String
  | .boolean b => some (if b then "true" else "false")
  | .integer n => integerText? n
  | .float x => some (floatText x)
  | .text s => some (quoted s)
  | .date s => some s
  | .list [] _ => some "[]"
  | .list [d] _ => (inline? d).map fun s => "[" ++ s ++ "]"
  | .list items _ => (itemLines? items).map fun s => "[\n" ++ s ++ "]"
  | .table [] _ => some "\x7b\x7d"
  | .table entries _ => (entriesInline? "" entries).map fun s => "\x7b " ++ s ++ " \x7d"
  | .null => none
  | .unreadable => none
  | .broken => none

/-- The items of a list, each on a line of its own. -/
def itemLines? : List Document → Option String
  | [] => some ""
  | d :: rest =>
    match inline? d, itemLines? rest with
    | some s, some t => some ("    " ++ s ++ ",\n" ++ t)
    | _, _ => none

/-- The entries of a table within a line; `before` is written first. -/
def entriesInline? (before : String) : List (Option String × Document) → Option String
  | [] => some ""
  | (k, d) :: rest =>
    match inline? d, entriesInline? ", " rest with
    | some s, some t => some (before ++ keyText (k.getD "") ++ " = " ++ s ++ t)
    | _, _ => none

end

/-! ### Tables -/

/-- The header of the table at a path. -/
def headerText (path : List String) : String :=
  "[" ++ ".".intercalate (path.map keyText) ++ "]\n"

/-- The lines of the single values of a table; what is absent has none. -/
def valueLines? : List (Option String × Document) → Option String
  | [] => some ""
  | (_, .table _ _) :: rest => valueLines? rest
  | (_, .null) :: rest => valueLines? rest
  | (k, d) :: rest =>
    match inline? d, valueLines? rest with
    | some s, some t => some (keyText (k.getD "") ++ " = " ++ s ++ "\n" ++ t)
    | _, _ => none

/-- Whether a table has a line of its own to show under its header: a single value, or
nothing at all. -/
def needsHeader (entries : List (Option String × Document)) : Bool :=
  entries.all (fun e => match e.2 with
    | .null => true
    | _ => false)
  || entries.any fun e =>
    match e.2 with
    | .table _ _ => false
    | .null => false
    | _ => true

mutual

/-- The blocks of a table at a path: its header with its single values, and after it those
of the tables within. -/
def blocks? (path : List String) : Document → Option (List String)
  | .table entries _ =>
    match valueLines? entries, innerBlocks? path entries with
    | some own, some inner =>
      if path.isEmpty then some (if own.isEmpty then inner else own :: inner)
      else if needsHeader entries then some ((headerText path ++ own) :: inner)
      else some inner
    | _, _ => none
  | _ => none

/-- The blocks of the tables within a table at a path. -/
def innerBlocks? (path : List String) :
    List (Option String × Document) → Option (List String)
  | [] => some []
  | (k, .table entries closed) :: rest =>
    match blocks? (path ++ [k.getD ""]) (.table entries closed), innerBlocks? path rest with
    | some bs, some cs => some (bs ++ cs)
    | _, _ => none
  | _ :: rest => innerBlocks? path rest

end

/-- The TOML text of a table: its blocks, with an empty line between two of them. -/
def print (d : Document) : Option String :=
  (blocks? [] d).map fun bs => "\n".intercalate bs

end Toml

end StreamDispatch
