import StreamDispatch.Document
import StreamDispatch.Number.Word

/-!
# Decoding documents

How a document becomes a value of a given type, and how that can fail. A record is
described by its `FieldReader`s: the name of each, a second name that is accepted for
it, whether it must be given, and how its value is read into the record under
construction. A record is written as a table, or as the list of its fields in order.

Decoding follows the document in its written order, and the first fault ends it:

* a field given twice, also once under each of its names, is a fault as soon as the
  second key is seen;
* unknown entries are skipped, and so only have to be well-formed;
* a field that must be given and is not is a fault at the end of the table.

## Main definitions

* `Fault`, `Fault.detail`: what is wrong with a document, and its text.
* `decodeRecord`: a record from a table or a list.
* `decodeText`, `decodeNat`, `decodeInt`, `decodeList`, `decodeDict`, `decodeChoice`,
  `decodeOption`: the other shapes.
-/

namespace StreamDispatch

/-- What is wrong with a document. -/
inductive Fault
  /-- The text is ill-formed, or a value stands for nothing. -/
  | malformed
  /-- A field that must be given is not. -/
  | missingField (name : String)
  /-- A field is given twice. -/
  | duplicateField (name : String)
  /-- A choice is none of the known ones. -/
  | unknownVariant (given : String) (known : List String)
  /-- A value is of another type. -/
  | wrongType
  /-- A number is of the right type and out of range. -/
  | wrongValue
  /-- A list of fields ends too early. -/
  | wrongLength
  deriving DecidableEq, Repr

/-- The first line of a text. -/
def firstLine (s : String) : String := String.ofList (s.toList.takeWhile (· ≠ '\n'))

/-- A name between back quotes. -/
def backQuoted (s : String) : String := "`" ++ s ++ "`"

/-- The part of a report that says what is wrong with a document; it is empty for ill-formed
text, and a single line. -/
def Fault.detail : Fault → String
  | .malformed => ""
  | .missingField name => s!": missing field {backQuoted name}"
  | .duplicateField name => s!": duplicate field {backQuoted name}"
  | .unknownVariant given known =>
    firstLine <|
      ": unknown variant " ++ backQuoted given ++ ", expected one of "
        ++ ", ".intercalate (known.map backQuoted)
  | .wrongType => ": invalid type"
  | .wrongValue => ": invalid value"
  | .wrongLength => ": invalid length"

namespace Document

/-- The fault of a document where another type is asked for: text that cannot be read is
ill-formed before it is of a wrong type. -/
def mistyped : Document → Fault
  | .broken => .malformed
  | .unreadable => .malformed
  | _ => .wrongType

/-- The table that a date is seen as where a table is asked for. -/
def asTable : Document → Document
  | .date s => ofEntries [("$__toml_private_datetime", .text s)]
  | d => d

/-! ### Single values -/

/-- A text. -/
def decodeText : Document → Except Fault String
  | .text s => .ok s
  | d => .error d.mistyped

/-- The least and greatest numbers that are read as integers at all. -/
def isWord64 (n : Int) : Bool := -(halfWordCount64 : Int) ≤ n && n < wordCount64

/-- An integer between `low` and `high`. -/
def decodeInt (low high : Int) : Document → Except Fault Int
  | .integer n =>
    if !isWord64 n then .error .wrongType
    else if low ≤ n ∧ n ≤ high then .ok n
    else .error .wrongValue
  | d => .error d.mistyped

/-- A signed number of 64 bits. -/
def decodeSigned64 : Document → Except Fault Int :=
  decodeInt (-(halfWordCount64 : Int)) (halfWordCount64 - 1)

/-- A natural number up to `high`. -/
def decodeNat (high : Nat) (d : Document) : Except Fault Nat :=
  (decodeInt 0 high d).map Int.toNat

/-- A value that may be left out by writing `null`. -/
def decodeOption {α : Type} (read : Document → Except Fault α) :
    Document → Except Fault (Option α)
  | .null => .ok none
  | d => (read d).map some

/-- One of the named choices. -/
def variant {α : Type} (choices : List (String × α)) (given : String) : Except Fault α :=
  match choices.find? fun c => c.1 == given with
  | some c => .ok c.2
  | none => .error (.unknownVariant given (choices.map (·.1)))

/-- A choice among names, written as a text. It may also be written as a table with the
name as its only key, over `null` in JSON and over an empty table or list in TOML. -/
def decodeChoice {α : Type} (format : Format) (choices : List (String × α)) :
    Document → Except Fault α
  | .text s => variant choices s
  | .table entries closed =>
    match format, entries with
    | .json, (some k, v) :: rest => do
      let chosen ← variant choices k
      match v with
      | .null => if rest.isEmpty && closed then .ok chosen else .error .malformed
      | d => .error d.mistyped
    | .toml, [(some k, v)] => do
      let chosen ← variant choices k
      match v with
      | .table [] _ => .ok chosen
      | .list [] _ => .ok chosen
      | _ => .error .malformed
    | _, _ => .error .malformed
  | _ => .error .malformed

/-! ### Lists and dictionaries -/

/-- Reads every item of a list, in order. -/
def decodeItems {α : Type} (read : Document → Except Fault α) :
    List Document → Except Fault (List α)
  | [] => .ok []
  | d :: rest => do
    let a ← read d
    let as ← decodeItems read rest
    .ok (a :: as)

/-- A list of values. -/
def decodeList {α : Type} (read : Document → Except Fault α) :
    Document → Except Fault (List α)
  | .list items closed => do
    let as ← decodeItems read items
    if closed then .ok as else .error .malformed
  | d => .error d.mistyped

/-- Writes every entry of a table into a dictionary, in order. -/
def decodeEntries {α : Type} (read : Document → Except Fault α) :
    List (Option String × Document) → Dict String α → Except Fault (Dict String α)
  | [], dict => .ok dict
  | (none, _) :: _, _ => .error .malformed
  | (some k, d) :: rest, dict => do
    let a ← read d
    decodeEntries read rest (dict.insert k a)

/-- A dictionary of values; of two entries with one key the later counts. -/
def decodeDict {α : Type} (read : Document → Except Fault α) (d : Document) :
    Except Fault (Dict String α) :=
  match d.asTable with
  | .table entries closed => do
    let dict ← decodeEntries read entries ∅
    if closed then .ok dict else .error .malformed
  | d => .error d.mistyped

/-! ### Records -/

/-- A field of a record `σ`. -/
structure FieldReader (σ : Type) where
  /-- Its name. -/
  name : String
  /-- A second name accepted for it. -/
  otherName : Option String
  /-- Whether it must be given. -/
  required : Bool
  /-- Reads its value into the record. -/
  read : Document → σ → Except Fault σ

/-- Whether a key names a field. -/
def FieldReader.answersTo {σ : Type} (f : FieldReader σ) (key : String) : Bool :=
  f.name == key || f.otherName == some key

/-- Reads the entries of a table in order; `seen` are the names of the fields that were
given. -/
def decodeFields {σ : Type} (fields : List (FieldReader σ)) :
    List (Option String × Document) → List String → σ → Except Fault (List String × σ)
  | [], seen, record => .ok (seen, record)
  | (none, _) :: _, _, _ => .error .malformed
  | (some key, d) :: rest, seen, record =>
    match fields.find? (·.answersTo key) with
    | none => if d.sound then decodeFields fields rest seen record else .error .malformed
    | some f =>
      if seen.contains f.name then .error (.duplicateField f.name)
      else do
        let record ← f.read d record
        decodeFields fields rest (f.name :: seen) record

/-- Reads the items of a list as the fields in order. -/
def decodePositions {σ : Type} (format : Format) (closed : Bool) :
    List (FieldReader σ) → List Document → σ → Except Fault σ
  | [], items, record =>
    if closed && (items.isEmpty || format == .toml) then .ok record else .error .malformed
  | f :: fields, [], record =>
    if !closed then .error .malformed
    else if f.required then .error .wrongLength
    else decodePositions format closed fields [] record
  | f :: fields, d :: items, record => do
    let record ← f.read d record
    decodePositions format closed fields items record

/-- A record; `start` holds what its fields are when they are not given. -/
def decodeRecord {σ : Type} (format : Format) (fields : List (FieldReader σ)) (start : σ)
    (d : Document) : Except Fault σ :=
  match d.asTable with
  | .table entries closed => do
    let (seen, record) ← decodeFields fields entries [] start
    if !closed then .error .malformed
    else
      match fields.find? fun f => f.required && !seen.contains f.name with
      | some f => .error (.missingField f.name)
      | none => .ok record
  | .list items closed => decodePositions format closed fields items start
  | d => .error d.mistyped

end Document

end StreamDispatch
