/-!
# Octets as text

Keys, payloads and header values arrive as octets. This file reads octets as UTF-8,
strictly (`Utf8.decode`, which says where and how an ill-formed text fails) and
leniently (`Utf8.decodeLossy`, which puts one replacement character for every maximal
ill-formed part), and writes text as octets (`Utf8.encode`).

Reading goes by one step at a time, `Utf8.step`: the first octet of a character
says how many more belong to it and which values the second one may have; those
bounds are what excludes overlong forms, surrogates and code points past U+10FFFF.
A step that fails still says how many octets it got through, which is both the
length that an error reports and the part that one replacement character stands for.

## Main definitions

* `Bytes`: octets.
* `Utf8.encode`, `Utf8.decode`, `Utf8.decodeLossy`.
* `Utf8.Fault.message`: the text of a fault.
-/

namespace StreamDispatch

/-- A sequence of octets. -/
abbrev Bytes := List UInt8

namespace Utf8

/-! ### Writing -/

/-- The octets of one code point. -/
def encodeCode (v : Nat) : Bytes :=
  if v < 0x80 then [.ofNat v]
  else if v < 0x800 then [.ofNat (0xC0 + v / 64), .ofNat (0x80 + v % 64)]
  else if v < 0x10000 then
    [.ofNat (0xE0 + v / 4096), .ofNat (0x80 + v / 64 % 64), .ofNat (0x80 + v % 64)]
  else
    [.ofNat (0xF0 + v / 262144), .ofNat (0x80 + v / 4096 % 64), .ofNat (0x80 + v / 64 % 64),
      .ofNat (0x80 + v % 64)]

/-- The octets of a list of characters. -/
def encodeChars (cs : List Char) : Bytes := cs.flatMap fun c => encodeCode c.toNat

/-- The octets of a text. -/
def encode (s : String) : Bytes := encodeChars s.toList

/-! ### One step of reading -/

/-- What the first octet of a character announces. -/
structure Lead where
  /-- How many octets follow. -/
  extra : Nat
  /-- The bits of the code point that the first octet carries. -/
  bits : Nat
  /-- The least value of the second octet. -/
  low : Nat
  /-- The greatest value of the second octet. -/
  high : Nat

/-- What an octet announces as the first one of a character, if it may stand there. -/
def lead? (b : Nat) : Option Lead :=
  if b < 0x80 then some ⟨0, b, 0x80, 0xBF⟩
  else if b < 0xC2 then none
  else if b < 0xE0 then some ⟨1, b - 0xC0, 0x80, 0xBF⟩
  else if b = 0xE0 then some ⟨2, 0, 0xA0, 0xBF⟩
  else if b = 0xED then some ⟨2, 0xD, 0x80, 0x9F⟩
  else if b < 0xF0 then some ⟨2, b - 0xE0, 0x80, 0xBF⟩
  else if b = 0xF0 then some ⟨3, 0, 0x90, 0xBF⟩
  else if b < 0xF4 then some ⟨3, b - 0xF0, 0x80, 0xBF⟩
  else if b = 0xF4 then some ⟨3, 4, 0x80, 0x8F⟩
  else none

/-- The outcome of reading the octets after the first. -/
inductive Tail
  /-- All of them are there: the code point, and what is left to read. -/
  | whole (code : Nat) (rest : Bytes)
  /-- An octet that may not stand there follows; so many octets were read before it. -/
  | broken (seen : Nat) (rest : Bytes)
  /-- The text ends after so many octets of the character. -/
  | cut (seen : Nat)

/-- Reads `extra` octets that continue a character of which `seen` octets and the bits
`code` are known; the next octet lies between `low` and `high`, all later ones between
`0x80` and `0xBF`. -/
def readTail : (extra : Nat) → (low high seen code : Nat) → Bytes → Tail
  | 0, _, _, _, code, rest => .whole code rest
  | _ + 1, _, _, seen, _, [] => .cut seen
  | extra + 1, low, high, seen, code, b :: rest =>
    if low ≤ b.toNat ∧ b.toNat ≤ high then
      readTail extra 0x80 0xBF (seen + 1) (code * 64 + (b.toNat - 0x80)) rest
    else
      .broken seen (b :: rest)

/-- One step of reading a text that is not at its end. -/
inductive Step
  /-- A character, written in `width` octets. -/
  | char (c : Char) (width : Nat) (rest : Bytes)
  /-- An ill-formed part of `width` octets, after which reading can go on. -/
  | bad (width : Nat) (rest : Bytes)
  /-- The text ends inside a character. -/
  | cut

/-- Reads one character, or one maximal ill-formed part. -/
def step (b : UInt8) (rest : Bytes) : Step :=
  match lead? b.toNat with
  | none => .bad 1 rest
  | some l =>
    match readTail l.extra l.low l.high 1 l.bits rest with
    | .whole code rest => .char (Char.ofNat code) (1 + l.extra) rest
    | .broken seen rest => .bad seen rest
    | .cut _ => .cut

theorem readTail_whole_length {extra low high seen code : Nat} {bs rest : Bytes} {v : Nat}
    (h : readTail extra low high seen code bs = .whole v rest) : rest.length ≤ bs.length := by
  induction extra generalizing low high seen code bs with
  | zero => simp only [readTail, Tail.whole.injEq] at h; simp [h.2]
  | succ n ih =>
    cases bs with
    | nil => simp [readTail] at h
    | cons b bs =>
      rw [readTail] at h
      split at h
      · have := ih h
        simp only [List.length_cons]
        omega
      · simp at h

theorem readTail_broken_length {extra low high seen code : Nat} {bs rest : Bytes} {n : Nat}
    (h : readTail extra low high seen code bs = .broken n rest) : rest.length ≤ bs.length := by
  induction extra generalizing low high seen code bs with
  | zero => simp [readTail] at h
  | succ n ih =>
    cases bs with
    | nil => simp [readTail] at h
    | cons b bs =>
      rw [readTail] at h
      split at h
      · have := ih h
        simp only [List.length_cons]
        omega
      · simp only [Tail.broken.injEq] at h
        simp [← h.2]

theorem step_char_length {b : UInt8} {bs rest : Bytes} {c : Char} {w : Nat}
    (h : step b bs = .char c w rest) : rest.length ≤ bs.length := by
  rw [step] at h
  split at h
  · simp at h
  · split at h
    next heq => simp only [Step.char.injEq] at h; rw [← h.2.2]; exact readTail_whole_length heq
    next => simp at h
    next => simp at h

theorem step_bad_length {b : UInt8} {bs rest : Bytes} {w : Nat}
    (h : step b bs = .bad w rest) : rest.length ≤ bs.length := by
  rw [step] at h
  split at h
  · simp only [Step.bad.injEq] at h; simp [← h.2]
  · split at h
    next => simp at h
    next heq => simp only [Step.bad.injEq] at h; rw [← h.2]; exact readTail_broken_length heq
    next => simp at h

/-! ### Reading a whole text -/

/-- How a text fails to be UTF-8. -/
inductive Fault
  /-- From octet `index` on, `width` octets are ill-formed. -/
  | invalid (width index : Nat)
  /-- The text ends inside the character that starts at octet `index`. -/
  | incomplete (index : Nat)
  deriving DecidableEq, Repr

/-- The text of a fault. -/
def Fault.message : Fault → String
  | .invalid width index => s!"invalid utf-8 sequence of {width} bytes from index {index}"
  | .incomplete index => s!"incomplete utf-8 byte sequence from index {index}"

/-- Reads octets strictly; `index` is the position of the first one. -/
def decodeFrom (index : Nat) : Bytes → Except Fault (List Char)
  | [] => .ok []
  | b :: bs =>
    match h : step b bs with
    | .char c width rest =>
      have := step_char_length h
      (decodeFrom (index + width) rest).map (c :: ·)
    | .bad width _ => .error (.invalid width index)
    | .cut => .error (.incomplete index)
termination_by bs => bs.length

/-- Reads octets as text, or says where that fails first. -/
def decode (bs : Bytes) : Except Fault String := (decodeFrom 0 bs).map String.ofList

/-- Reads octets as characters, with `none` for every maximal ill-formed part. -/
def decodeParts : Bytes → List (Option Char)
  | [] => []
  | b :: bs =>
    match h : step b bs with
    | .char c _ rest =>
      have := step_char_length h
      some c :: decodeParts rest
    | .bad _ rest =>
      have := step_bad_length h
      none :: decodeParts rest
    | .cut => [none]
termination_by bs => bs.length

/-- Reads octets leniently: U+FFFD stands for every maximal ill-formed part. -/
def decodeLossy (bs : Bytes) : String :=
  String.ofList ((decodeParts bs).map (·.getD '\uFFFD'))

end Utf8

end StreamDispatch
