/-!
# Quoted text in TOML

TOML quotes text in four ways: in double quotes, where a backslash escapes, or in single
quotes, where nothing does; and either on one line, between single delimiters, or over
several lines, between triple ones. Each reader here starts after the opening delimiter
and returns the text with what follows the closing one.

Over several lines a line break right after the opening delimiter does not count, a
backslash at the end of a line takes with it all white space up to the next visible
character, and one or two quotes may stand right before the closing delimiter.

## Main definitions

* `Toml.readBasic`, `Toml.readLiteral`: text on one line.
* `Toml.readBasicLines`, `Toml.readLiteralLines`: text over several lines.
-/

namespace StreamDispatch

namespace Toml

/-- Control characters, which may not stand in a text or a comment; the tab is none. -/
def isControl (c : Char) : Bool := (c < ' ' && c ≠ '\t') || c = '\x7F'

/-- The value of a hexadecimal digit. -/
def hexValue? (c : Char) : Option Nat :=
  if '0' ≤ c ∧ c ≤ '9' then some (c.toNat - '0'.toNat)
  else if 'a' ≤ c ∧ c ≤ 'f' then some (c.toNat - 'a'.toNat + 10)
  else if 'A' ≤ c ∧ c ≤ 'F' then some (c.toNat - 'A'.toNat + 10)
  else none

/-- Reads a code point of `width` hexadecimal digits; `code` is what was read of it. -/
def readCode : (width : Nat) → (code : Nat) → List Char → Option (Char × List Char)
  | 0, code, s =>
    if code < 0xD800 ∨ (0xDFFF < code ∧ code < 0x110000) then some (Char.ofNat code, s)
    else none
  | width + 1, code, c :: s =>
    match hexValue? c with
    | some d => readCode width (code * 16 + d) s
    | none => none
  | _ + 1, _, [] => none

theorem readCode_length {width code : Nat} {s rest : List Char} {c : Char}
    (h : readCode width code s = some (c, rest)) : rest.length ≤ s.length := by
  induction width generalizing code s with
  | zero =>
    rw [readCode] at h
    split at h <;> simp_all
  | succ n ih =>
    cases s with
    | nil => simp [readCode] at h
    | cons d s =>
      rw [readCode] at h
      split at h
      · have := ih h
        simp only [List.length_cons]
        omega
      · simp at h

/-- Reads an escape after its backslash. -/
def readEscape : List Char → Option (Char × List Char)
  | 'b' :: s => some ('\x08', s)
  | 't' :: s => some ('\t', s)
  | 'n' :: s => some ('\n', s)
  | 'f' :: s => some ('\x0C', s)
  | 'r' :: s => some ('\r', s)
  | 'e' :: s => some ('\x1B', s)
  | '"' :: s => some ('"', s)
  | '\\' :: s => some ('\\', s)
  | 'x' :: s => readCode 2 0 s
  | 'u' :: s => readCode 4 0 s
  | 'U' :: s => readCode 8 0 s
  | _ => none

theorem readEscape_length {s rest : List Char} {c : Char}
    (h : readEscape s = some (c, rest)) : rest.length < s.length := by
  unfold readEscape at h
  have code {width : Nat} {s rest : List Char} {x : Char}
      (h : readCode width 0 s = some (c, rest)) : rest.length < (x :: s).length := by
    have := readCode_length h
    simp only [List.length_cons]
    omega
  split at h
  case h_9 => exact code h
  case h_10 => exact code h
  case h_11 => exact code h
  case h_12 => simp at h
  all_goals
    simp only [Option.some.injEq, Prod.mk.injEq] at h
    simp [← h.2]

/-! ### On one line -/

/-- Reads text up to a double quote; `read` is what was read, in reverse. -/
def readBasicFrom (read : List Char) (s : List Char) : Option (List Char × List Char) :=
  match s with
  | [] => none
  | c :: s =>
    if c = '"' then some (read.reverse, s)
    else if c = '\\' then
      match h : readEscape s with
      | some (d, rest) =>
        have := readEscape_length h
        readBasicFrom (d :: read) rest
      | none => none
    else if isControl c then none
    else readBasicFrom (c :: read) s
termination_by s.length

/-- Reads text up to a single quote; `read` is what was read, in reverse. -/
def readLiteralFrom (read : List Char) : List Char → Option (List Char × List Char)
  | [] => none
  | c :: s =>
    if c = '\'' then some (read.reverse, s)
    else if isControl c then none
    else readLiteralFrom (c :: read) s

/-- Text in double quotes on one line. -/
def readBasic (s : List Char) : Option (String × List Char) :=
  (readBasicFrom [] s).map fun r => (String.ofList r.1, r.2)

/-- Text in single quotes on one line. -/
def readLiteral (s : List Char) : Option (String × List Char) :=
  (readLiteralFrom [] s).map fun r => (String.ofList r.1, r.2)

/-! ### Over several lines -/

/-- The rest of a text that starts with a line break. -/
def dropNewline? : List Char → Option (List Char)
  | '\n' :: s => some s
  | '\r' :: '\n' :: s => some s
  | _ => none

/-- Leaves out spaces and tabs. -/
def skipBlanks : List Char → List Char
  | ' ' :: s => skipBlanks s
  | '\t' :: s => skipBlanks s
  | s => s

/-- Leaves out spaces, tabs and line breaks. -/
def skipLines : List Char → List Char
  | ' ' :: s => skipLines s
  | '\t' :: s => skipLines s
  | '\n' :: s => skipLines s
  | '\r' :: '\n' :: s => skipLines s
  | s => s

/-- The text after a backslash at the end of a line, up to the next visible character. -/
def skipLineEnd? (s : List Char) : Option (List Char) :=
  (dropNewline? (skipBlanks s)).map skipLines

/-- How many times `quote` stands at the front of a text, and what follows. -/
def countQuotes (quote : Char) : List Char → Nat × List Char
  | [] => (0, [])
  | c :: s =>
    if c = quote then
      let (n, rest) := countQuotes quote s
      (n + 1, rest)
    else (0, c :: s)

theorem skipBlanks_length (s : List Char) : (skipBlanks s).length ≤ s.length := by
  fun_induction skipBlanks s <;> simp_all <;> omega

theorem skipLines_length (s : List Char) : (skipLines s).length ≤ s.length := by
  fun_induction skipLines s <;> simp_all <;> omega

theorem dropNewline?_length {s rest : List Char} (h : dropNewline? s = some rest) :
    rest.length < s.length := by
  unfold dropNewline? at h
  split at h
  · cases h
    exact Nat.lt_succ_self _
  · cases h
    exact Nat.lt_add_of_pos_right (Nat.zero_lt_succ 1)
  · cases h

theorem skipLineEnd?_length {s rest : List Char} (h : skipLineEnd? s = some rest) :
    rest.length < s.length := by
  simp only [skipLineEnd?, Option.map_eq_some_iff] at h
  obtain ⟨t, ht, rfl⟩ := h
  have := dropNewline?_length ht
  have := skipBlanks_length s
  have := skipLines_length t
  omega

theorem countQuotes_length (quote : Char) (s : List Char) :
    (countQuotes quote s).2.length ≤ s.length := by
  induction s with
  | nil => simp [countQuotes]
  | cons c s ih =>
    rw [countQuotes]
    split
    · simp only [List.length_cons]
      omega
    · simp

/-- Reads text up to three quotes; `quote` is the delimiter's character, `escapes` says
whether a backslash escapes, and `read` is what was read, in reverse. -/
def readLinesFrom (quote : Char) (escapes : Bool) (read : List Char) (s : List Char) :
    Option (List Char × List Char) :=
  match s with
  | [] => none
  | c :: s =>
    if c = quote then
      let run := countQuotes quote s
      have := countQuotes_length quote s
      if run.1 < 2 then
        readLinesFrom quote escapes (List.replicate (run.1 + 1) quote ++ read) run.2
      else if run.1 < 5 then
        some ((List.replicate (run.1 - 2) quote ++ read).reverse, run.2)
      else none
    else if escapes ∧ c = '\\' then
      match hend : skipLineEnd? s with
      | some rest =>
        have := skipLineEnd?_length hend
        readLinesFrom quote escapes read rest
      | none =>
        match hesc : readEscape s with
        | some (d, rest) =>
          have := readEscape_length hesc
          readLinesFrom quote escapes (d :: read) rest
        | none => none
    else if c = '\n' then readLinesFrom quote escapes ('\n' :: read) s
    else if c = '\r' then
      match s with
      | '\n' :: s => readLinesFrom quote escapes ('\n' :: read) s
      | _ => none
    else if isControl c then none
    else readLinesFrom quote escapes (c :: read) s
termination_by s.length

/-- Reads text over several lines after its opening delimiter. -/
def readLines (quote : Char) (escapes : Bool) (s : List Char) :
    Option (String × List Char) :=
  let s := (dropNewline? s).getD s
  (readLinesFrom quote escapes [] s).map fun r => (String.ofList r.1, r.2)

/-- Text between three double quotes. -/
def readBasicLines (s : List Char) : Option (String × List Char) := readLines '"' true s

/-- Text between three single quotes. -/
def readLiteralLines (s : List Char) : Option (String × List Char) := readLines '\'' false s

/-- Reads text in any of the four forms. -/
def readQuoted : List Char → Option (String × List Char)
  | '"' :: '"' :: '"' :: s => readBasicLines s
  | '\'' :: '\'' :: '\'' :: s => readLiteralLines s
  | '"' :: s => readBasic s
  | '\'' :: s => readLiteral s
  | _ => none

end Toml

end StreamDispatch
