import StreamDispatch.Dict

/-!
# Documents

Settings and record payloads come as documents: trees of lists and tables with text,
numbers and truth values at the leaves. One type holds what was read from either of the
two written forms, so that settings are decoded from it by one set of rules.

A document also records *damage*. Decoding goes through a document in its written
order and stops at the first thing that is wrong with it, so a wrong value near the
start of a text has to win over a missing bracket near its end, and reading must not
give up before decoding begins:

* `Document.broken` stands where no value could be read; nothing after it was read,
  and the lists and tables around it are not `closed`.
* `Document.unreadable` is well-formed text that stands for no value, such as a number
  beyond every float. It does no harm where values are skipped.

## Main definitions

* `Document`, `Document.sound`: whether a document may be skipped.
* `Document.whole?`: the value of a document without damage, tables in key order.
* `Document.same`: equality of whole values, where floats compare as numbers.
-/

namespace StreamDispatch

/-- The two written forms of a document. -/
inductive Format
  | toml
  | json
  deriving DecidableEq, Repr, Inhabited

/-- A document as it was read. -/
inductive Document
  | null
  | boolean (b : Bool)
  | integer (n : Int)
  | float (x : Float)
  | text (s : String)
  /-- A date or a time of day, in its normal form. -/
  | date (s : String)
  /-- A list; it is closed unless reading stopped inside it. -/
  | list (items : List Document) (closed : Bool)
  /-- A table, entries as written; an entry has no key if its key was unreadable. -/
  | table (entries : List (Option String × Document)) (closed : Bool)
  /-- Well-formed text that stands for no value. -/
  | unreadable
  /-- No value could be read here. -/
  | broken
  deriving Inhabited

namespace Document

/-- A list without damage. -/
def ofList (items : List Document) : Document := .list items true

/-- A table without damage. -/
def ofEntries (entries : List (String × Document)) : Document :=
  .table (entries.map fun e => (some e.1, e.2)) true

/-- A table without damage from the entries of a dictionary. -/
def ofDict (d : Dict String Document) : Document := ofEntries d.entries

/-! ### Skipping a value -/

mutual

/-- Whether the text of a document is well-formed, so that its value may be skipped. -/
def sound : Document → Bool
  | .list items closed => soundItems items && closed
  | .table entries closed => soundEntries entries && closed
  | .broken => false
  | _ => true

/-- Whether all items of a list are well-formed. -/
def soundItems : List Document → Bool
  | [] => true
  | d :: rest => sound d && soundItems rest

/-- Whether the values of all entries of a table are well-formed. -/
def soundEntries : List (Option String × Document) → Bool
  | [] => true
  | (_, d) :: rest => sound d && soundEntries rest

end

/-! ### The value of a document -/

mutual

/-- The value of a document without damage in which at most `depth` lists and tables are
nested: tables are brought to key order, and of two entries with one key the later
counts. -/
def whole? (depth : Nat) : Document → Option Document
  | .list items closed =>
    match depth with
    | 0 => none
    | depth + 1 => if closed then (wholeItems? depth items).map ofList else none
  | .table entries closed =>
    match depth with
    | 0 => none
    | depth + 1 => if closed then (wholeEntries? depth entries ∅).map ofDict else none
  | .unreadable => none
  | .broken => none
  | d => some d

/-- The values of the items of a list. -/
def wholeItems? (depth : Nat) : List Document → Option (List Document)
  | [] => some []
  | d :: rest =>
    match whole? depth d with
    | none => none
    | some d => (wholeItems? depth rest).map (d :: ·)

/-- The values of the entries of a table, written over those of `seen`. -/
def wholeEntries? (depth : Nat) :
    List (Option String × Document) → Dict String Document → Option (Dict String Document)
  | [], seen => some seen
  | (none, _) :: _, _ => none
  | (some k, d) :: rest, seen =>
    match whole? depth d with
    | none => none
    | some d => wholeEntries? depth rest (seen.insert k d)

end

/-! ### Equality of values -/

mutual

/-- Whether two values are the same; floats compare as numbers, so that nothing equals
what is not a number. -/
def same : Document → Document → Bool
  | .null, .null => true
  | .boolean a, .boolean b => a == b
  | .integer a, .integer b => a == b
  | .float a, .float b => a == b
  | .text a, .text b => a == b
  | .date a, .date b => a == b
  | .list a _, .list b _ => sameItems a b
  | .table a _, .table b _ => sameEntries a b
  | _, _ => false

/-- Whether two lists have the same items. -/
def sameItems : List Document → List Document → Bool
  | [], [] => true
  | a :: as, b :: bs => same a b && sameItems as bs
  | _, _ => false

/-- Whether two tables have the same entries. -/
def sameEntries :
    List (Option String × Document) → List (Option String × Document) → Bool
  | [], [] => true
  | (k, a) :: as, (l, b) :: bs => k == l && same a b && sameEntries as bs
  | _, _ => false

end

/-! ### Looking into a value -/

/-- The value at `key` in a table, the first one if there are several; `null` counts as
absent. -/
def get? (d : Document) (key : String) : Option Document :=
  match d with
  | .table entries _ =>
    match entries.find? fun e => e.1 == some key with
    | some (_, .null) => none
    | some (_, v) => some v
    | none => none
  | _ => none

theorem sound_ofEntries_nil : (ofEntries []).sound = true := rfl

end Document

end StreamDispatch
