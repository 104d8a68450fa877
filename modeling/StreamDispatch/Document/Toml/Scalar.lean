import StreamDispatch.Document

/-!
# Unquoted values in TOML

Truth values, numbers, dates and times are written without quotes. A value is read from
its characters as a whole, so that each of the forms is a small grammar of its own:

* an integer has a sign, no leading zeros and single underscores between digits; with one
  of the marks `0x`, `0o`, `0b` it has no sign;
* a float has a fraction, an exponent or both, or is `inf` or `nan`;
* a date, a time, or a date and a time with or without an offset has parts of fixed
  width, each in its range.

Integers beyond 128 bits and numbers beyond every float cannot be read.

## Main definitions

* `Toml.scalar?`: the value of an unquoted text.
-/

namespace StreamDispatch

namespace Toml

/-! ### Digits -/

/-- The value of a digit, as long as it is below `base`. -/
def digitOf? (base : Nat) (c : Char) : Option Nat :=
  let v :=
    if '0' ≤ c ∧ c ≤ '9' then c.toNat - '0'.toNat
    else if 'a' ≤ c ∧ c ≤ 'f' then c.toNat - 'a'.toNat + 10
    else if 'A' ≤ c ∧ c ≤ 'F' then c.toNat - 'A'.toNat + 10
    else 16
  if v < base then some v else none

/-- The values of digits between which single underscores may stand. -/
def groupedDigits? (base : Nat) : List Char → Option (List Nat)
  | [] => none
  | [c] => (digitOf? base c).map ([·])
  | c :: '_' :: rest =>
    match digitOf? base c with
    | some d => (groupedDigits? base rest).map (d :: ·)
    | none => none
  | c :: rest =>
    match digitOf? base c with
    | some d => (groupedDigits? base rest).map (d :: ·)
    | none => none

/-- The number that digits stand for. -/
def numberOf (base : Nat) (ds : List Nat) : Nat := ds.foldl (fun n d => n * base + d) 0

/-- The digits of a decimal integer without leading zeros. -/
def wholeDigits? (s : List Char) : Option (List Nat) :=
  match groupedDigits? 10 s with
  | some (0 :: _ :: _) => none
  | r => r

/-! ### Numbers -/

/-- An integer, unless it exceeds 128 bits. -/
def integerOf (negative : Bool) (n : Nat) : Document :=
  if negative then
    if n ≤ Nat.pow 2 127 then .integer (-n) else .broken
  else
    if n < Nat.pow 2 128 then .integer n else .broken

/-- An integer with a mark for its base. -/
def markedInteger? : List Char → Option Document
  | '0' :: 'x' :: s => (groupedDigits? 16 s).map fun ds => integerOf false (numberOf 16 ds)
  | '0' :: 'o' :: s => (groupedDigits? 8 s).map fun ds => integerOf false (numberOf 8 ds)
  | '0' :: 'b' :: s => (groupedDigits? 2 s).map fun ds => integerOf false (numberOf 2 ds)
  | _ => none

/-- The float nearest to `significand · 10 ^ exponent`; a number beyond every float is
broken. Far outside the range of floats the power of ten is not computed. -/
def floatOf (negative : Bool) (digits : List Nat) (exponent : Int) : Document :=
  let significand := numberOf 10 digits
  let magnitude : Int := exponent + digits.length
  let x :=
    if significand = 0 ∨ magnitude < -400 then 0.0
    else if 400 < magnitude then 1.0 / 0.0
    else if exponent < 0 then Float.ofScientific significand true exponent.natAbs
    else Float.ofScientific significand false exponent.natAbs
  if x.isInf then .broken else .float (if negative then -x else x)

/-- A text split at the first character that satisfies `p`, which is left out. -/
def splitAt? (p : Char → Bool) (s : List Char) : List Char × Option (List Char) :=
  match s.dropWhile (!p ·) with
  | [] => (s, none)
  | _ :: rest => (s.takeWhile (!p ·), some rest)

/-- The number after the mark of an exponent. -/
def exponent? : List Char → Option Int
  | '-' :: s => (groupedDigits? 10 s).map fun ds => -(numberOf 10 ds : Int)
  | '+' :: s => (groupedDigits? 10 s).map fun ds => (numberOf 10 ds : Int)
  | s => (groupedDigits? 10 s).map fun ds => (numberOf 10 ds : Int)

/-- A decimal number after its sign. -/
def decimal? (negative : Bool) (s : List Char) : Option Document :=
  match splitAt? (fun c => c = 'e' || c = 'E') s with
  | (mantissa, scale) =>
    match splitAt? (· = '.') mantissa, scale with
    | (whole, none), none =>
      (wholeDigits? whole).map fun ds => integerOf negative (numberOf 10 ds)
    | (whole, fraction), scale => do
      let whole ← wholeDigits? whole
      let fraction ←
        match fraction with
        | some f => groupedDigits? 10 f
        | none => some []
      let scale ←
        match scale with
        | some e => exponent? e
        | none => some 0
      some (floatOf negative (whole ++ fraction) (scale - fraction.length))

/-- A number after its sign, if it has one. -/
def signed? (negative : Bool) (s : List Char) : Option Document :=
  if s = "inf".toList then some (.float (if negative then -1.0 / 0.0 else 1.0 / 0.0))
  else if s = "nan".toList then some (.float (0.0 / 0.0))
  else decimal? negative s

/-! ### Dates and times -/

/-- A decimal number of exactly `width` digits at the front of a text. -/
def fixedDigits? : (width : Nat) → List Char → Option (Nat × List Char)
  | width, s =>
    let ds := s.take width
    if ds.length = width then
      (ds.mapM (digitOf? 10)).map fun ds => (numberOf 10 ds, s.drop width)
    else none

/-- Takes one character off the front of a text. -/
def expect? (c : Char) : List Char → Option (List Char)
  | d :: s => if c = d then some s else none
  | [] => none

/-- The number of days in a month. -/
def daysIn (year month : Nat) : Nat :=
  if month = 2 then
    if year % 4 = 0 ∧ (year % 100 ≠ 0 ∨ year % 400 = 0) then 29 else 28
  else if month = 4 ∨ month = 6 ∨ month = 9 ∨ month = 11 then 30
  else 31

/-- A number in decimal digits, at least `width` of them. -/
def zeroPadded (width n : Nat) : String :=
  let digits := toString n
  String.ofList (List.replicate (width - digits.length) '0') ++ digits

/-- A date at the front of a text, in its normal form. -/
def date? (s : List Char) : Option (String × List Char) := do
  let (year, s) ← fixedDigits? 4 s
  let (month, s) ← fixedDigits? 2 (← expect? '-' s)
  let (day, s) ← fixedDigits? 2 (← expect? '-' s)
  if 1 ≤ month ∧ month ≤ 12 ∧ 1 ≤ day ∧ day ≤ daysIn year month then
    some (s!"{zeroPadded 4 year}-{zeroPadded 2 month}-{zeroPadded 2 day}", s)
  else none

/-- The digits of a fraction of a second: at most nine count, and zeros at the end do not. -/
def fractionText (ds : List Char) : String :=
  String.ofList ((ds.take 9).reverse.dropWhile (· = '0')).reverse

/-- The seconds of a time at the front of a text, if there are any. -/
def seconds? : List Char → Option (String × List Char)
  | ':' :: s => do
    let (second, s) ← fixedDigits? 2 s
    if 60 < second then none
    else
      let whole := ":" ++ zeroPadded 2 second
      match s with
      | '.' :: s =>
        let ds := s.takeWhile fun c => (digitOf? 10 c).isSome
        if ds.isEmpty then none
        else
          let fraction := fractionText ds
          some (if fraction.isEmpty then whole else whole ++ "." ++ fraction, s.drop ds.length)
      | s => some (whole, s)
  | s => some ("", s)

/-- A time of day at the front of a text, in its normal form. -/
def time? (s : List Char) : Option (String × List Char) := do
  let (hour, s) ← fixedDigits? 2 s
  let (minute, s) ← fixedDigits? 2 (← expect? ':' s)
  let (seconds, s) ← seconds? s
  if hour ≤ 23 ∧ minute ≤ 59 then
    some (s!"{zeroPadded 2 hour}:{zeroPadded 2 minute}" ++ seconds, s)
  else none

/-- The offset that a time ends with, in its normal form. -/
def offset? : List Char → Option String
  | [] => some ""
  | ['Z'] => some "Z"
  | ['z'] => some "Z"
  | sign :: s => do
    let (hour, s) ← fixedDigits? 2 s
    let (minute, s) ← fixedDigits? 2 (← expect? ':' s)
    if (sign = '+' ∨ sign = '-') ∧ s.isEmpty ∧ hour ≤ 23 ∧ minute ≤ 59 then
      some (sign.toString ++ zeroPadded 2 hour ++ ":" ++ zeroPadded 2 minute)
    else none

/-- A date and a time, a date, or a time. -/
def moment? (s : List Char) : Option Document :=
  match date? s with
  | some (date, []) => some (.date date)
  | some (date, sep :: s) =>
    if sep = 'T' ∨ sep = 't' ∨ sep = ' ' then do
      let (time, s) ← time? s
      let offset ← offset? s
      some (.date (date ++ "T" ++ time ++ offset))
    else none
  | none =>
    match time? s with
    | some (time, []) => some (.date time)
    | _ => none

/-! ### All of them -/

/-- Whether a text has the shape of a date alone. -/
def isDate (s : List Char) : Bool :=
  match date? s with
  | some (_, []) => true
  | _ => false

/-- The value of an unquoted text. -/
def scalar? (s : List Char) : Option Document :=
  if s = "true".toList then some (.boolean true)
  else if s = "false".toList then some (.boolean false)
  else
    match s with
    | '+' :: r => signed? false r
    | '-' :: r => signed? true r
    | s =>
      match markedInteger? s with
      | some d => some d
      | none =>
        match signed? false s with
        | some d => some d
        | none => moment? s

end Toml

end StreamDispatch
