import StreamDispatch.Document
import StreamDispatch.Number.Exact
import StreamDispatch.Number.Word
import StreamDispatch.Text.Utf8

/-!
# Reading JSON

A JSON text is read into a `Document` that also says where the text is damaged. The text
comes as `Symbols`: characters, with `none` in the place of octets that are no UTF-8.
Those do no harm inside a string that is skipped, and damage the text everywhere else.

Reading goes on after an unreadable value and stops at a broken one: a reader returns
what it read together with the rest of the text, or with no rest where it could not go
on. The fuel of the mutual readers is only there to let them recurse; it is computed
from the length of the text and never runs out, as each round takes a symbol or
enters a list or table that begins with one.

## Numbers

A number without fraction and exponent is an integer if it fits into 64 bits, signed or
unsigned; `-0`, a longer number, and a number with fraction or exponent is a float. Its
float is found from the first digits that fit into 64 bits and the number of digits
after them.

## Main definitions

* `Json.read`: the document at the start of a text, and whether the text ends with it.
-/

namespace StreamDispatch

/-- A text as it is read: `none` stands for octets that are no UTF-8. -/
abbrev Symbols := List (Option Char)

/-- The symbols of a text. -/
def symbolsOf (s : String) : Symbols := s.toList.map some

/-- The symbols of a sequence of octets. -/
def symbolsOfBytes (bs : Bytes) : Symbols := Utf8.decodeParts bs

namespace Json

/-- What was read, and what is left to read, if reading can go on. -/
structure Piece where
  document : Document
  rest : Option Symbols

/-- Reading could not get past this point. -/
def Piece.damage : Piece := ⟨.broken, none⟩

/-- Leaves out the white space that JSON allows between tokens. -/
def skipSpace : Symbols → Symbols
  | some ' ' :: s => skipSpace s
  | some '\n' :: s => skipSpace s
  | some '\t' :: s => skipSpace s
  | some '\r' :: s => skipSpace s
  | s => s

/-- Takes a given word off the front of a text. -/
def dropWord : List Char → Symbols → Option Symbols
  | [], s => some s
  | c :: cs, some d :: s => if c = d then dropWord cs s else none
  | _ :: _, _ => none

/-! ### Numbers -/

/-- The value of a decimal digit. -/
def digit? (c : Char) : Option Nat :=
  if '0' ≤ c ∧ c ≤ '9' then some (c.toNat - '0'.toNat) else none

/-- The decimal digits at the front of a text, and the rest. -/
def takeDigits : Symbols → List Nat × Symbols
  | some c :: s =>
    match digit? c with
    | some d =>
      let (ds, rest) := takeDigits s
      (d :: ds, rest)
    | none => ([], some c :: s)
  | s => ([], s)

/-- The digits of a number that count, as a number, and the power of ten to scale it by.
Once a digit of the integer part does not fit into 64 bits it and the later ones only
raise the power. -/
def integerDigits (ds : List Nat) : Nat × Nat :=
  ds.foldl
    (fun (acc : Nat × Nat) d =>
      if acc.2 = 0 ∧ acc.1 * 10 + d ≤ maxWord64 then (acc.1 * 10 + d, 0)
      else (acc.1, acc.2 + 1))
    (0, 0)

/-- Adds the digits of the fraction, up to the first that does not fit into 64 bits. -/
def fractionDigits : List Nat → (significand : Nat) → (exponent : Int) → Nat × Int
  | [], significand, exponent => (significand, exponent)
  | d :: ds, significand, exponent =>
    if significand * 10 + d ≤ maxWord64 then
      fractionDigits ds (significand * 10 + d) (exponent - 1)
    else (significand, exponent)

/-- The float with the given parts; beyond every float it is unreadable. -/
def floatDocument (negative : Bool) (significand : Nat) (exponent : Int) : Document :=
  match scaledFloat significand exponent with
  | some x => .float (if negative then -x else x)
  | none => .unreadable

/-- A float from the digits of its integer part, its fraction and its exponent, which
has a sign. -/
def floatOfDigits (negative : Bool) (whole fraction : List Nat) (negativeExponent : Bool)
    (exponent : List Nat) : Document :=
  let (significand, dropped) := integerDigits whole
  let (significand, scale) := fractionDigits fraction significand dropped
  let power := exponent.foldl (fun n d => n * 10 + d) 0
  if maxSigned32 < power then
    if significand = 0 ∨ negativeExponent then .float (if negative then -0.0 else 0.0)
    else .unreadable
  else
    floatDocument negative significand (if negativeExponent then scale - power else scale + power)

/-- A number without fraction and exponent. -/
def integerDocument (negative : Bool) (whole : List Nat) : Document :=
  let (significand, dropped) := integerDigits whole
  if dropped ≠ 0 then floatDocument negative significand dropped
  else if !negative then .integer significand
  else if significand = 0 ∨ halfWordCount64 < significand then
    floatDocument true significand 0
  else .integer (-significand)

/-- Reads the exponent after its `e`: the sign, the digits and the rest. -/
def readExponent (s : Symbols) : Option (Bool × List Nat × Symbols) :=
  let (negative, s) :=
    match s with
    | some '-' :: r => (true, r)
    | some '+' :: r => (false, r)
    | r => (false, r)
  match takeDigits s with
  | ([], _) => none
  | (ds, rest) => some (negative, ds, rest)

/-- Reads what follows the integer part and the fraction of a number. -/
def readScale (negative : Bool) (whole fraction : List Nat) (s : Symbols) : Piece :=
  let scaled (s : Symbols) : Piece :=
    match readExponent s with
    | some (negativeExponent, ds, rest) =>
      ⟨floatOfDigits negative whole fraction negativeExponent ds, some rest⟩
    | none => .damage
  match s with
  | some 'e' :: r => scaled r
  | some 'E' :: r => scaled r
  | r =>
    if fraction.isEmpty then ⟨integerDocument negative whole, some r⟩
    else ⟨floatOfDigits negative whole fraction false [], some r⟩

/-- Reads a number after its sign. -/
def readNumber (negative : Bool) (s : Symbols) : Piece :=
  match takeDigits s with
  | ([], _) => .damage
  | (0 :: _ :: _, _) => .damage
  | (whole, some '.' :: r) =>
    match takeDigits r with
    | ([], _) => .damage
    | (fraction, rest) => readScale negative whole fraction rest
  | (whole, rest) => readScale negative whole [] rest

/-! ### Strings -/

/-- The value of a hexadecimal digit. -/
def hexDigit? (c : Char) : Option Nat :=
  if '0' ≤ c ∧ c ≤ '9' then some (c.toNat - '0'.toNat)
  else if 'a' ≤ c ∧ c ≤ 'f' then some (c.toNat - 'a'.toNat + 10)
  else if 'A' ≤ c ∧ c ≤ 'F' then some (c.toNat - 'A'.toNat + 10)
  else none

/-- The number that four hexadecimal digits at the front of a text stand for. -/
def hexWord? : Symbols → Option (Nat × Symbols)
  | some a :: some b :: some c :: some d :: rest =>
    match hexDigit? a, hexDigit? b, hexDigit? c, hexDigit? d with
    | some a, some b, some c, some d => some (((a * 16 + b) * 16 + c) * 16 + d, rest)
    | _, _, _, _ => none
  | _ => none

/-- The second half of a surrogate pair, written as an escape. -/
def lowSurrogate? : Symbols → Option (Nat × Symbols)
  | some '\\' :: some 'u' :: s =>
    match hexWord? s with
    | some (v, rest) => if 0xDC00 ≤ v ∧ v < 0xE000 then some (v, rest) else none
    | none => none
  | _ => none

/-- The character of a one-letter escape. -/
def escaped? : Char → Option Char
  | '"' => some '"'
  | '\\' => some '\\'
  | '/' => some '/'
  | 'b' => some '\x08'
  | 'f' => some '\x0C'
  | 'n' => some '\n'
  | 'r' => some '\r'
  | 't' => some '\t'
  | _ => none

/-- Reads an escape after its backslash: the character, if it is one, and the rest. The
halves of a surrogate pair are one character, and a lone half is none. -/
def readEscape : Symbols → Option (Option Char × Symbols)
  | some 'u' :: s =>
    match hexWord? s with
    | none => none
    | some (v, rest) =>
      if 0xD800 ≤ v ∧ v < 0xDC00 then
        match lowSurrogate? rest with
        | some (w, rest) =>
          some (some (Char.ofNat (0x10000 + (v - 0xD800) * 0x400 + (w - 0xDC00))), rest)
        | none => some (none, rest)
      else if 0xDC00 ≤ v ∧ v < 0xE000 then some (none, rest)
      else some (some (Char.ofNat v), rest)
  | some c :: s => (escaped? c).map fun d => (some d, s)
  | _ => none

theorem hexWord?_length {s rest : Symbols} {v : Nat} (h : hexWord? s = some (v, rest)) :
    rest.length < s.length := by
  unfold hexWord? at h
  split at h
  · split at h
    · simp only [Option.some.injEq, Prod.mk.injEq] at h
      simp only [← h.2, List.length_cons]
      omega
    · simp at h
  · simp at h

theorem lowSurrogate?_length {s rest : Symbols} {v : Nat}
    (h : lowSurrogate? s = some (v, rest)) : rest.length < s.length := by
  unfold lowSurrogate? at h
  split at h
  · split at h
    next heq =>
      split at h
      · simp only [Option.some.injEq, Prod.mk.injEq] at h
        have := hexWord?_length heq
        simp only [← h.2, List.length_cons]
        omega
      · simp at h
    · simp at h
  · simp at h

theorem readEscape_length {s rest : Symbols} {c : Option Char}
    (h : readEscape s = some (c, rest)) : rest.length < s.length := by
  unfold readEscape at h
  split at h
  · split at h
    · simp at h
    next heq =>
      have hw := hexWord?_length heq
      split at h
      · split at h
        next hlow =>
          have := lowSurrogate?_length hlow
          simp only [Option.some.injEq, Prod.mk.injEq] at h
          simp only [← h.2, List.length_cons]
          omega
        next =>
          simp only [Option.some.injEq, Prod.mk.injEq] at h
          simp only [← h.2, List.length_cons]
          omega
      · split at h <;>
          simp only [Option.some.injEq, Prod.mk.injEq] at h <;>
          simp only [← h.2, List.length_cons] <;> omega
  · simp only [Option.map_eq_some_iff, Prod.mk.injEq] at h
    obtain ⟨d, _, _, rfl⟩ := h
    simp
  · simp at h

/-- Reads a string after its opening quote: its characters in reverse, `none` among them for
what is no character, and the rest after the closing quote. -/
def readString (read : List (Option Char)) (s : Symbols) :
    Option (List (Option Char) × Symbols) :=
  match s with
  | [] => none
  | none :: s => readString (none :: read) s
  | some c :: s =>
    if c = '"' then some (read, s)
    else if c = '\\' then
      match h : readEscape s with
      | some (d, rest) =>
        have := readEscape_length h
        readString (d :: read) rest
      | none => none
    else if c < ' ' then none
    else readString (some c :: read) s
termination_by s.length

/-- The text of characters that were read in reverse, unless one of them is none. -/
def textOf (read : List (Option Char)) : Option String :=
  (read.reverse.mapM id).map String.ofList

/-! ### Values -/

/-- A word that stands for a value, after its first letter. -/
def word (letters : String) (d : Document) (s : Symbols) : Piece :=
  match dropWord letters.toList s with
  | some rest => ⟨d, some rest⟩
  | none => .damage

mutual

/-- Reads one value. -/
def readValue (fuel : Nat) (s : Symbols) : Piece :=
  match fuel with
  | 0 => .damage
  | fuel + 1 =>
    match skipSpace s with
    | some 'n' :: s => word "ull" .null s
    | some 't' :: s => word "rue" (.boolean true) s
    | some 'f' :: s => word "alse" (.boolean false) s
    | some '-' :: s => readNumber true s
    | some '"' :: s =>
      match readString [] s with
      | none => .damage
      | some (read, rest) =>
        match textOf read with
        | some t => ⟨.text t, some rest⟩
        | none => ⟨.unreadable, some rest⟩
    | some '[' :: s =>
      match skipSpace s with
      | some ']' :: rest => ⟨.list [] true, some rest⟩
      | s =>
        let (items, rest) := readItems fuel s
        ⟨.list items rest.isSome, rest⟩
    | some '{' :: s =>
      match skipSpace s with
      | some '}' :: rest => ⟨.table [] true, some rest⟩
      | s =>
        let (entries, rest) := readEntries fuel s
        ⟨.table entries rest.isSome, rest⟩
    | s => readNumber false s

/-- Reads the items of a list that is not empty, and its closing bracket. -/
def readItems (fuel : Nat) (s : Symbols) : List Document × Option Symbols :=
  match fuel with
  | 0 => ([], none)
  | fuel + 1 =>
    match readValue fuel s with
    | ⟨d, none⟩ => ([d], none)
    | ⟨d, some rest⟩ =>
      match skipSpace rest with
      | some ',' :: rest =>
        match skipSpace rest with
        | some ']' :: _ => ([d], none)
        | rest =>
          let (items, rest) := readItems fuel rest
          (d :: items, rest)
      | some ']' :: rest => ([d], some rest)
      | _ => ([d], none)

/-- Reads the entries of a table that is not empty, and its closing brace. -/
def readEntries (fuel : Nat) (s : Symbols) :
    List (Option String × Document) × Option Symbols :=
  match fuel with
  | 0 => ([], none)
  | fuel + 1 =>
    match skipSpace s with
    | some '"' :: s =>
      match readString [] s with
      | none => ([], none)
      | some (read, rest) =>
        let key := textOf read
        match skipSpace rest with
        | some ':' :: rest =>
          match readValue fuel rest with
          | ⟨d, none⟩ => ([(key, d)], none)
          | ⟨d, some rest⟩ =>
            match skipSpace rest with
            | some ',' :: rest =>
              let (entries, rest) := readEntries fuel rest
              ((key, d) :: entries, rest)
            | some '}' :: rest => ([(key, d)], some rest)
            | _ => ([(key, d)], none)
        | _ => ([(key, .broken)], none)
    | _ => ([], none)

end

/-- The document at the start of a text. -/
structure Reading where
  document : Document
  /-- Whether nothing but white space follows it. -/
  complete : Bool

/-- Reads the document at the start of a text. -/
def read (s : Symbols) : Reading :=
  match readValue (2 * s.length + 2) s with
  | ⟨d, none⟩ => ⟨d, false⟩
  | ⟨d, some rest⟩ => ⟨d, (skipSpace rest).isEmpty⟩

end Json

end StreamDispatch
