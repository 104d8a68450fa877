import Mathlib.Tactic.ByContra
import StreamDispatch.Text.Utf8

/-!
# Reading undoes writing

A text is written character by character, in one to four octets each, and read back one step at a
time. What a step accepts is decided by bounds on the first two octets, and nothing in the
definition of reading mentions how characters are written. This file shows that the bounds are the
right ones: **a step reads a character exactly if the octets before it are those that the character
is written as** (`StreamDispatch.Utf8.step_eq_char_iff`). So reading succeeds exactly on the octets
of a text, and gives that text (`StreamDispatch.Utf8.decode_eq_ok_iff`); every other sequence of
octets is refused, and no text can be read from two of them.

Each direction goes through the same four cases, the number of octets of the character. The two
bounds on the second octet are what keeps the cases apart and within the code points that
characters have:

| octets | first octet | second octet | code points |
|---|---|---|---|
| 1 | below `80` | | below `80` |
| 2 | `C2` to `DF` | `80` to `BF` | `80` to `7FF` |
| 3 | `E0` to `EF` | from `A0` after `E0`, up to `9F` after `ED` | `800` to `FFFF` but no surrogate |
| 4 | `F0` to `F4` | from `90` after `F0`, up to `8F` after `F4` | `10000` to `10FFFF` |

## Main statements

* `StreamDispatch.Utf8.encode_eq_toUTF8`: texts are written as the octets that make them up.
* `StreamDispatch.Utf8.step_eq_char_iff`, `StreamDispatch.Utf8.decode_eq_ok_iff`.
-/

namespace StreamDispatch

namespace Utf8

/-! ### Writing -/

theorem ofNat_eq {n : Nat} {b : UInt8} (h : n = b.toNat) : UInt8.ofNat n = b := by
  rw [h, UInt8.ofNat_toNat]

/-- A number below 256 is an octet, in the spelling that arithmetic leaves it in. -/
theorem toNat_ofNat_eq {n : Nat} (h : n < 256) : (UInt8.ofNat n).toNat = n :=
  UInt8.toNat_ofNat_of_lt' h

/-- A character is written as the standard library writes it. -/
theorem encodeCode_toNat (c : Char) : encodeCode c.toNat = String.utf8EncodeChar c := by
  have hvalid : c.toNat < 0x110000 := by
    rcases c.valid with h | h
    · exact Nat.lt_trans h (by decide)
    · exact h.2
  have hval : c.val.toNat = c.toNat := rfl
  rw [encodeCode, String.utf8EncodeChar, hval]
  by_cases h₁ : c.toNat < 0x80
  · rw [if_pos h₁, if_pos (Nat.le_of_lt_succ h₁)]
  rw [if_neg h₁, if_neg (fun h => h₁ (Nat.lt_succ_of_le h))]
  by_cases h₂ : c.toNat < 0x800
  · rw [if_pos h₂, if_pos (Nat.le_of_lt_succ h₂), Nat.mod_eq_of_lt (b := 32) (by omega),
      Nat.add_comm 0xC0, Nat.add_comm 0x80]
  rw [if_neg h₂, if_neg (fun h => h₂ (Nat.lt_succ_of_le h))]
  by_cases h₃ : c.toNat < 0x10000
  · rw [if_pos h₃, if_pos (Nat.le_of_lt_succ h₃), Nat.mod_eq_of_lt (b := 16) (by omega),
      Nat.add_comm 0xE0, Nat.add_comm 0x80, Nat.add_comm 0x80]
  · rw [if_neg h₃, if_neg (fun h => h₃ (Nat.lt_succ_of_le h)),
      Nat.mod_eq_of_lt (b := 8) (by omega), Nat.add_comm 0xF0, Nat.add_comm 0x80,
      Nat.add_comm 0x80, Nat.add_comm 0x80]

/-- **A text is written as the octets that make it up.** -/
theorem encode_eq_toUTF8 (s : String) : encode s = s.toUTF8.data.toList := by
  have hcode : (fun c : Char => encodeCode c.toNat) = String.utf8EncodeChar :=
    funext encodeCode_toNat
  obtain ⟨cs, rfl⟩ : ∃ cs, s = String.ofList cs := ⟨s.toList, (String.ofList_toList).symm⟩
  rw [encode, encodeChars, hcode, String.toUTF8, String.toByteArray_ofList, List.utf8Encode,
    List.toList_data_toByteArray, String.toList_ofList]

section Codes

variable {a b c d : UInt8}

theorem encodeCode_one (ha : a.toNat < 0x80) : encodeCode a.toNat = [a] := by
  rw [encodeCode, if_pos ha, UInt8.ofNat_toNat]

/-- What two octets announce and continue is written as these octets. -/
theorem encodeCode_two (ha : 0xC2 ≤ a.toNat ∧ a.toNat < 0xE0)
    (hb : 0x80 ≤ b.toNat ∧ b.toNat ≤ 0xBF) :
    encodeCode ((a.toNat - 0xC0) * 64 + (b.toNat - 0x80)) = [a, b] := by
  rw [encodeCode, if_neg (by omega), if_pos (by omega), ofNat_eq (b := a) (by omega),
    ofNat_eq (b := b) (by omega)]

/-- What three octets announce and continue is written as these octets, unless two are enough. -/
theorem encodeCode_three (ha : 0xE0 ≤ a.toNat ∧ a.toNat < 0xF0)
    (hb : (if a.toNat = 0xE0 then 0xA0 else 0x80) ≤ b.toNat ∧ b.toNat ≤ 0xBF)
    (hc : 0x80 ≤ c.toNat ∧ c.toNat ≤ 0xBF) :
    encodeCode (((a.toNat - 0xE0) * 64 + (b.toNat - 0x80)) * 64 + (c.toNat - 0x80)) =
      [a, b, c] := by
  have hlow : 0x800 ≤ ((a.toNat - 0xE0) * 64 + (b.toNat - 0x80)) * 64 := by
    split at hb <;> omega
  have hb' : 0x80 ≤ b.toNat := by
    split at hb <;> omega
  rw [encodeCode, if_neg (by omega), if_neg (by omega), if_pos (by omega),
    ofNat_eq (b := a) (by omega), ofNat_eq (b := b) (by omega), ofNat_eq (b := c) (by omega)]

/-- What four octets announce and continue is written as these octets, unless three are enough. -/
theorem encodeCode_four (ha : 0xF0 ≤ a.toNat ∧ a.toNat ≤ 0xF4)
    (hb : (if a.toNat = 0xF0 then 0x90 else 0x80) ≤ b.toNat ∧ b.toNat ≤ 0xBF)
    (hc : 0x80 ≤ c.toNat ∧ c.toNat ≤ 0xBF) (hd : 0x80 ≤ d.toNat ∧ d.toNat ≤ 0xBF) :
    encodeCode ((((a.toNat - 0xF0) * 64 + (b.toNat - 0x80)) * 64 + (c.toNat - 0x80)) * 64 +
      (d.toNat - 0x80)) = [a, b, c, d] := by
  have hlow : 0x10000 ≤ ((a.toNat - 0xF0) * 64 + (b.toNat - 0x80)) * 4096 := by
    split at hb <;> omega
  have hb' : 0x80 ≤ b.toNat := by
    split at hb <;> omega
  rw [encodeCode, if_neg (by omega), if_neg (by omega), if_neg (by omega),
    ofNat_eq (b := a) (by omega), ofNat_eq (b := b) (by omega), ofNat_eq (b := c) (by omega),
    ofNat_eq (b := d) (by omega)]

end Codes

/-! ### First octets -/

theorem lead?_one {n : Nat} (h : n < 0x80) : lead? n = some ⟨0, n, 0x80, 0xBF⟩ := if_pos h

theorem lead?_two {n : Nat} (h : 0xC2 ≤ n ∧ n < 0xE0) :
    lead? n = some ⟨1, n - 0xC0, 0x80, 0xBF⟩ := by
  rw [lead?, if_neg (by omega), if_neg (by omega), if_pos (by omega)]

/-- An octet that announces two more. -/
theorem lead?_three {n : Nat} (h : 0xE0 ≤ n ∧ n < 0xF0) :
    lead? n = some ⟨2, n - 0xE0, if n = 0xE0 then 0xA0 else 0x80,
      if n = 0xED then 0x9F else 0xBF⟩ := by
  rw [lead?, if_neg (by omega), if_neg (by omega), if_neg (by omega)]
  by_cases hfirst : n = 0xE0
  · subst hfirst
    rfl
  · by_cases hsurrogate : n = 0xED
    · subst hsurrogate
      rfl
    · rw [if_neg hfirst, if_neg hsurrogate, if_pos h.2, if_neg hfirst, if_neg hsurrogate]

/-- An octet that announces three more. -/
theorem lead?_four {n : Nat} (h : 0xF0 ≤ n ∧ n ≤ 0xF4) :
    lead? n = some ⟨3, n - 0xF0, if n = 0xF0 then 0x90 else 0x80,
      if n = 0xF4 then 0x8F else 0xBF⟩ := by
  have hn : n = 0xF0 ∨ n = 0xF1 ∨ n = 0xF2 ∨ n = 0xF3 ∨ n = 0xF4 := by omega
  rcases hn with rfl | rfl | rfl | rfl | rfl <;> rfl

/-- No other octet is a first one. -/
theorem lead?_cases {n : Nat} {l : Lead} (h : lead? n = some l) :
    n < 0x80 ∨ (0xC2 ≤ n ∧ n < 0xE0) ∨ (0xE0 ≤ n ∧ n < 0xF0) ∨ (0xF0 ≤ n ∧ n ≤ 0xF4) := by
  by_contra hnone
  rw [lead?, if_neg (by omega)] at h
  split at h
  · cases h
  · rw [if_neg (by omega), if_neg (by omega), if_neg (by omega), if_neg (by omega),
      if_neg (by omega), if_neg (by omega), if_neg (by omega)] at h
    cases h

/-! ### One step -/

/-- Reading goes on over an octet within its bounds. -/
theorem readTail_succ_eq_whole {extra low high seen code v : Nat} {bs rest : Bytes} :
    readTail (extra + 1) low high seen code bs = .whole v rest ↔
      ∃ b bs', bs = b :: bs' ∧ (low ≤ b.toNat ∧ b.toNat ≤ high) ∧
        readTail extra 0x80 0xBF (seen + 1) (code * 64 + (b.toNat - 0x80)) bs' =
          .whole v rest := by
  rcases bs with _ | ⟨b, bs'⟩
  · exact ⟨by rintro ⟨⟩, by rintro ⟨_, _, ⟨⟩, _⟩⟩
  · rw [readTail]
    constructor
    · intro h
      split at h
      next hbounds => exact ⟨b, bs', rfl, hbounds, h⟩
      next => cases h
    · rintro ⟨_, _, ⟨⟩, hbounds, h⟩
      rwa [if_pos hbounds]

theorem readTail_zero_eq_whole {low high seen code v : Nat} {bs rest : Bytes} :
    readTail 0 low high seen code bs = .whole v rest ↔ v = code ∧ rest = bs := by
  rw [readTail, Tail.whole.injEq, eq_comm, eq_comm (a := bs)]

/-- A step reads a character if the first octet announces one and the others continue it. -/
theorem step_eq_char {b : UInt8} {bs rest : Bytes} {c : Char} {width : Nat} :
    step b bs = .char c width rest ↔
      ∃ l code, lead? b.toNat = some l ∧
        readTail l.extra l.low l.high 1 l.bits bs = .whole code rest ∧
          c = Char.ofNat code ∧ width = 1 + l.extra := by
  rw [step]
  constructor
  · intro h
    split at h
    next => cases h
    next l hlead =>
      split at h
      next code _ htail =>
        cases h
        exact ⟨l, code, hlead, htail, rfl, rfl⟩
      next => cases h
      next => cases h
  · rintro ⟨l, code, hlead, htail, rfl, rfl⟩
    simp only [hlead, htail]

theorem toNat_ofNat_of_valid {v : Nat} (h : v.isValidChar) : (Char.ofNat v).toNat = v := by
  rw [Char.ofNat, dif_pos h]
  rfl

/-- A character that is read stands in the octets before what is left. -/
theorem eq_append_of_step {b : UInt8} {bs rest : Bytes} {c : Char} {width : Nat}
    (h : step b bs = .char c width rest) : b :: bs = encodeCode c.toNat ++ rest := by
  obtain ⟨l, code, hlead, htail, rfl, -⟩ := step_eq_char.mp h
  rcases lead?_cases hlead with hb | hb | hb | hb
  · rw [lead?_one hb] at hlead
    cases hlead
    obtain ⟨hcode, rfl⟩ := readTail_zero_eq_whole.mp htail
    dsimp only at hcode
    rw [toNat_ofNat_of_valid (.inl (by omega)), hcode, encodeCode_one hb, List.singleton_append]
  · rw [lead?_two hb] at hlead
    cases hlead
    simp only [readTail_succ_eq_whole, readTail_zero_eq_whole] at htail
    obtain ⟨b₁, _, rfl, h₁, hcode, rfl⟩ := htail
    rw [hcode, toNat_ofNat_of_valid (.inl (by omega)), encodeCode_two hb h₁]
    rfl
  · rw [lead?_three hb] at hlead
    cases hlead
    simp only [readTail_succ_eq_whole, readTail_zero_eq_whole] at htail
    obtain ⟨b₁, _, rfl, ⟨hlow, hhigh⟩, b₂, _, rfl, h₂, hcode, rfl⟩ := htail
    have hmost : b₁.toNat ≤ 0xBF := Nat.le_trans hhigh (by split <;> decide)
    have hwritten := encodeCode_three hb ⟨hlow, hmost⟩ h₂
    rw [← hcode] at hwritten
    -- After `ED` the second octet is at most `9F`, which ends before the surrogates.
    rcases Nat.lt_trichotomy b.toNat 0xED with hbelow | hequal | habove
    · rw [toNat_ofNat_of_valid (.inl (by omega)), hwritten]
      rfl
    · rw [if_pos hequal] at hhigh
      rw [toNat_ofNat_of_valid (.inl (by omega)), hwritten]
      rfl
    · rw [toNat_ofNat_of_valid (.inr (by omega)), hwritten]
      rfl
  · rw [lead?_four hb] at hlead
    cases hlead
    simp only [readTail_succ_eq_whole, readTail_zero_eq_whole] at htail
    obtain ⟨b₁, _, rfl, ⟨hlow, hhigh⟩, b₂, _, rfl, h₂, b₃, _, rfl, h₃, hcode, rfl⟩ := htail
    have hmost : b₁.toNat ≤ 0xBF := Nat.le_trans hhigh (by split <;> decide)
    have hwritten := encodeCode_four hb ⟨hlow, hmost⟩ h₂ h₃
    rw [← hcode] at hwritten
    have hleast : 0x10000 ≤ ((b.toNat - 0xF0) * 64 + (b₁.toNat - 0x80)) * 4096 := by
      by_cases hfirst : b.toNat = 0xF0
      · rw [if_pos hfirst] at hlow
        omega
      · omega
    rcases Nat.lt_or_ge b.toNat 0xF4 with hbelow | habove
    · rw [toNat_ofNat_of_valid (.inr (by omega)), hwritten]
      rfl
    · rw [if_pos (by omega)] at hhigh
      rw [toNat_ofNat_of_valid (.inr (by omega)), hwritten]
      rfl

/-- **The octets of a character are read as that character**, whatever follows. -/
theorem step_encodeCode (c : Char) (rest : Bytes) :
    ∃ b bs, encodeCode c.toNat = b :: bs ∧ step b (bs ++ rest) = .char c (1 + bs.length) rest := by
  have hvalid : c.toNat < 0xD800 ∨ 0xDFFF < c.toNat ∧ c.toNat < 0x110000 := c.valid
  rw [encodeCode]
  by_cases h₁ : c.toNat < 0x80
  · have ha := toNat_ofNat_eq (n := c.toNat) (by omega)
    refine ⟨_, _, if_pos h₁, step_eq_char.mpr ⟨_, c.toNat, lead?_one (ha.symm ▸ h₁), ?_, ?_, rfl⟩⟩
    · exact readTail_zero_eq_whole.mpr ⟨ha.symm, rfl⟩
    · exact (Char.ofNat_toNat c).symm
  rw [if_neg h₁]
  by_cases h₂ : c.toNat < 0x800
  · have ha := toNat_ofNat_eq (n := 0xC0 + c.toNat / 64) (by omega)
    have hb := toNat_ofNat_eq (n := 0x80 + c.toNat % 64) (by omega)
    refine ⟨_, _, if_pos h₂, step_eq_char.mpr ⟨_, c.toNat, lead?_two (by omega), ?_, ?_, rfl⟩⟩
    · simp only [readTail_succ_eq_whole, readTail_zero_eq_whole]
      exact ⟨_, _, rfl, by omega, by omega, rfl⟩
    · exact (Char.ofNat_toNat c).symm
  rw [if_neg h₂]
  by_cases h₃ : c.toNat < 0x10000
  · have ha := toNat_ofNat_eq (n := 0xE0 + c.toNat / 4096) (by omega)
    have hb := toNat_ofNat_eq (n := 0x80 + c.toNat / 64 % 64) (by omega)
    have hc := toNat_ofNat_eq (n := 0x80 + c.toNat % 64) (by omega)
    refine ⟨_, _, if_pos h₃, step_eq_char.mpr ⟨_, c.toNat, lead?_three (by omega), ?_, ?_, rfl⟩⟩
    · simp only [readTail_succ_eq_whole, readTail_zero_eq_whole]
      refine ⟨_, _, rfl, ⟨?_, ?_⟩, _, _, rfl, by omega, by omega, rfl⟩
      · split <;> omega
      · split <;> omega
    · exact (Char.ofNat_toNat c).symm
  rw [if_neg h₃]
  have ha := toNat_ofNat_eq (n := 0xF0 + c.toNat / 262144) (by omega)
  have hb := toNat_ofNat_eq (n := 0x80 + c.toNat / 4096 % 64) (by omega)
  have hc := toNat_ofNat_eq (n := 0x80 + c.toNat / 64 % 64) (by omega)
  have hd := toNat_ofNat_eq (n := 0x80 + c.toNat % 64) (by omega)
  refine ⟨_, _, rfl, step_eq_char.mpr ⟨_, c.toNat, lead?_four (by omega), ?_, ?_, rfl⟩⟩
  · simp only [readTail_succ_eq_whole, readTail_zero_eq_whole]
    refine ⟨_, _, rfl, ⟨?_, ?_⟩, _, _, rfl, by omega, _, _, rfl, by omega, by omega, rfl⟩
    · split <;> omega
    · split <;> omega
  · exact (Char.ofNat_toNat c).symm

/-- **A step reads a character exactly if the octets are those of the character and what is left.**
-/
theorem step_eq_char_iff {b : UInt8} {bs rest : Bytes} {c : Char} :
    (∃ width, step b bs = .char c width rest) ↔ b :: bs = encodeCode c.toNat ++ rest := by
  constructor
  · rintro ⟨width, h⟩
    exact eq_append_of_step h
  · intro h
    obtain ⟨b', bs', hcode, hstep⟩ := step_encodeCode c rest
    rw [hcode, List.cons_append, List.cons.injEq] at h
    obtain ⟨rfl, rfl⟩ := h
    exact ⟨_, hstep⟩

/-! ### A whole text -/

theorem encodeChars_cons (c : Char) (cs : List Char) :
    encodeChars (c :: cs) = encodeCode c.toNat ++ encodeChars cs := rfl

/-- What is written and not empty begins with a character that is read back. -/
theorem step_of_encodeChars {b : UInt8} {bs : Bytes} {cs : List Char}
    (h : b :: bs = encodeChars cs) :
    ∃ c cs' width, cs = c :: cs' ∧ step b bs = .char c width (encodeChars cs') := by
  rcases cs with _ | ⟨c, cs'⟩
  · cases h
  · obtain ⟨width, hstep⟩ := step_eq_char_iff.mpr (h.trans (encodeChars_cons c cs'))
    exact ⟨c, cs', width, rfl, hstep⟩

/-- **Characters are read exactly from the octets that they are written as.** -/
theorem decodeFrom_eq_ok_iff {index : Nat} {bs : Bytes} {cs : List Char} :
    decodeFrom index bs = .ok cs ↔ bs = encodeChars cs := by
  fun_induction decodeFrom index bs generalizing cs with
  | case1 index =>
    rcases cs with _ | ⟨c, cs⟩
    · exact iff_of_true rfl rfl
    · obtain ⟨b, bs, hcode, -⟩ := step_encodeCode c []
      rw [encodeChars_cons, hcode]
      exact iff_of_false (by rintro ⟨⟩) (by rintro ⟨⟩)
  | case2 index b bs c width rest hstep _ ih =>
    constructor
    · intro h
      cases hrest : decodeFrom (index + width) rest with
      | error fault =>
        rw [hrest] at h
        cases h
      | ok cs' =>
        rw [hrest] at h
        cases h
        rw [encodeChars_cons, ← ih.mp hrest, eq_append_of_step hstep]
    · intro h
      obtain ⟨c', cs', width', rfl, hstep'⟩ := step_of_encodeChars h
      rw [hstep, Step.char.injEq] at hstep'
      obtain ⟨rfl, -, hrest⟩ := hstep'
      rw [ih.mpr hrest]
      rfl
  | case3 index b bs width rest hstep =>
    refine iff_of_false (by rintro ⟨⟩) fun h => ?_
    obtain ⟨c, cs', width', -, hstep'⟩ := step_of_encodeChars h
    rw [hstep] at hstep'
    cases hstep'
  | case4 index b bs hstep =>
    refine iff_of_false (by rintro ⟨⟩) fun h => ?_
    obtain ⟨c, cs', width', -, hstep'⟩ := step_of_encodeChars h
    rw [hstep] at hstep'
    cases hstep'

/-- **A text is read exactly from the octets that it is written as.** -/
theorem decode_eq_ok_iff {bs : Bytes} {s : String} : decode bs = .ok s ↔ bs = encode s := by
  rw [encode, ← @decodeFrom_eq_ok_iff 0 bs s.toList, decode]
  cases decodeFrom 0 bs with
  | error fault => exact iff_of_false (by rintro ⟨⟩) (by rintro ⟨⟩)
  | ok cs =>
    constructor
    · rintro ⟨⟩
      rw [String.toList_ofList]
    · intro h
      rw [Except.ok.inj h]
      exact congrArg Except.ok String.ofList_toList

end Utf8

end StreamDispatch
