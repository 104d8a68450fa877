import Mathlib.Data.List.Induction
import StreamDispatch.Proofs.Text.Utf8
import StreamDispatch.Record.Decoder

/-!
# Decoders that undo an encoding

A decoder *inverts* an encoding if it gives a value exactly for the octets that the value is encoded
as (`StreamDispatch.Decoder.Inverts`). That is more than a round trip. It also says that the decoder
accepts nothing else: octets that no value is encoded as are refused, and so are octets that come
close to those of a value. The decoders for texts, for octets and for integers invert encodings in
this sense (`StreamDispatch.Decoder.inverts_builtin`), where the encodings are those that the words
mean anywhere: the octets that make up a text, the octets as they are, and the octets of the word of
64 bits that stands for an integer in two's complement.

What is left is absent data. The three decoders refuse them, and a nullable decoder differs from
the one that it is made of there and nowhere else.

## Main definitions

* `StreamDispatch.octetsOfWord`: the octets of a word of 64 bits.
* `StreamDispatch.Decoder.Inverts`: a decoder undoes an encoding, and accepts nothing else.

## Main statements

* `StreamDispatch.encodeLong_eq_octetsOfWord`, `StreamDispatch.Decoder.long_eq_ok_iff`.
* `StreamDispatch.Decoder.inverts_builtin`.
-/

namespace StreamDispatch

/-! ### Octets and numbers -/

namespace Decoder

theorem bigEndian_concat (data : Bytes) (b : UInt8) :
    bigEndian (data ++ [b]) = bigEndian data * 256 + b.toNat := by
  rw [bigEndian, List.foldl_append]
  rfl

theorem bigEndian_lt (data : Bytes) : bigEndian data < Nat.pow 256 data.length := by
  induction data using List.reverseRecOn with
  | nil => exact Nat.one_pos
  | append_singleton data b ih =>
    have hb := b.toNat_lt
    rw [bigEndian_concat, List.length_append, List.length_singleton]
    show _ < Nat.pow 256 data.length * 256
    omega

/-- The octets of the number that octets stand for. -/
theorem octetsOf_bigEndian (data : Bytes) : octetsOf data.length (bigEndian data) = data := by
  induction data using List.reverseRecOn with
  | nil => rfl
  | append_singleton data b ih =>
    have hb := b.toNat_lt
    rw [bigEndian_concat, List.length_append, List.length_singleton, octetsOf]
    rw [show (bigEndian data * 256 + b.toNat) / 256 = bigEndian data by omega, ih,
      Utf8.ofNat_eq (b := b) (by omega)]

/-- The number that the octets of a number stand for. -/
theorem bigEndian_octetsOf (width n : Nat) :
    bigEndian (octetsOf width n) = n % Nat.pow 256 width := by
  induction width generalizing n with
  | zero => exact (Nat.mod_one n).symm
  | succ width ih =>
    rw [octetsOf, bigEndian_concat, ih, Utf8.toNat_ofNat_eq (Nat.mod_lt _ (by decide))]
    have hpow : Nat.pow 256 (width + 1) = 256 * Nat.pow 256 width := Nat.mul_comm _ _
    rw [hpow, Nat.mod_mul]
    omega

end Decoder

theorem length_octetsOf (width n : Nat) : (octetsOf width n).length = width := by
  induction width generalizing n with
  | zero => rfl
  | succ width ih => rw [octetsOf, List.length_append, ih, List.length_singleton]

theorem octetsOf_eq (width n : Nat) :
    octetsOf width n =
      (List.range width).reverse.map fun place => .ofNat (n >>> (8 * place) % 256) := by
  induction width generalizing n with
  | zero => rfl
  | succ width ih =>
    have hplace : ∀ place, (n / 256) >>> (8 * place) = n >>> (8 * (place + 1)) := by
      intro place
      rw [Nat.mul_succ, Nat.add_comm, Nat.shiftRight_add, Nat.shiftRight_eq_div_pow n]
    rw [octetsOf, ih, List.range_succ_eq_map, List.reverse_cons, List.map_append,
      ← List.map_reverse, List.map_map]
    simp only [hplace]
    rfl

theorem length_encodeLong (n : Int) : (encodeLong n).length = 8 := length_octetsOf 8 _

/-- The octets of a word of 64 bits, from the place of the most significant one on. -/
def octetsOfWord (w : BitVec 64) : Bytes :=
  (List.range 8).reverse.map fun place => ⟨w.extractLsb' (8 * place) 8⟩

/-- Octet by octet, a word is written as the number that it holds. -/
theorem octetsOfWord_eq (w : BitVec 64) : octetsOfWord w = octetsOf 8 w.toNat := by
  rw [octetsOfWord, octetsOf_eq]
  refine List.map_congr_left fun place _ => ?_
  rw [← UInt8.toNat_inj, UInt8.toNat_ofBitVec, BitVec.extractLsb'_toNat,
    Utf8.toNat_ofNat_eq (Nat.mod_lt _ (by decide))]

/-- **An integer is encoded as the word that stands for it in two's complement.** -/
theorem encodeLong_eq_octetsOfWord (n : Int) : encodeLong n = octetsOfWord (.ofInt 64 n) := by
  rw [octetsOfWord_eq, BitVec.toNat_ofInt]
  rfl

namespace Decoder

/-- The integers of 64 bits. -/
def FitsSigned64 (n : Int) : Prop := -(halfWordCount64 : Int) ≤ n ∧ n < halfWordCount64

theorem signed64_eq_iff {m : Nat} (hm : m < wordCount64) {n : Int} :
    signed64 m = n ↔ FitsSigned64 n ∧ m = (n % wordCount64).toNat := by
  have hword : wordCount64 = 18446744073709551616 := rfl
  have hhalf : halfWordCount64 = 9223372036854775808 := rfl
  rw [signed64, FitsSigned64, hword]
  split <;> omega

/-- **An integer is read exactly from the eight octets that it is encoded as.** -/
theorem long_eq_ok_iff {topic : String} {data : Bytes} {n : Int} :
    long topic (some data) = .ok n ↔ FitsSigned64 n ∧ data = encodeLong n := by
  rw [long, require]
  constructor
  · intro h
    split at h
    next hsize =>
      have hlt := bigEndian_lt data
      rw [hsize] at hlt
      obtain ⟨hfits, hbits⟩ := (signed64_eq_iff hlt).mp (Except.ok.inj h)
      refine ⟨hfits, ?_⟩
      rw [encodeLong, ← hbits, ← hsize, octetsOf_bigEndian]
    next => cases h
  · rintro ⟨hfits, rfl⟩
    have hlt : (n % wordCount64).toNat < wordCount64 := by
      simp only [wordCount64]
      omega
    have hread : bigEndian (encodeLong n) = (n % wordCount64).toNat :=
      (bigEndian_octetsOf 8 _).trans (Nat.mod_eq_of_lt hlt)
    rw [if_pos (length_encodeLong n), hread, (signed64_eq_iff hlt).mpr ⟨hfits, rfl⟩]

/-! ### Inverting an encoding -/

/-- **A decoder inverts an encoding**, on all topics: from octets it gives a value exactly if they
are what the value is encoded as, and refuses octets that no value is encoded as; it refuses absent
data; and made nullable it takes absent data, and nothing else, as the absence of a value, and
otherwise does what it did. -/
structure Inverts {α : Type} (decoder : Decoder α) (Valid : α → Prop) (encode : α → Bytes) :
    Prop where
  exactly : ∀ topic data a, decoder topic (some data) = .ok a ↔ Valid a ∧ data = encode a
  roundTrips : ∀ topic a, Valid a → decoder topic (some (encode a)) = .ok a
  refuses : ∀ topic data, (∀ a, Valid a → data ≠ encode a) →
    ∃ e, decoder topic (some data) = .error e
  absent : ∀ topic, decoder topic none = .error (.absent topic)
  nullable_eq_none : ∀ topic data, nullable decoder topic data = .ok none ↔ data = none
  nullable_some : ∀ topic data,
    nullable decoder topic (some data) = (decoder topic (some data)).map some

/-- A nullable decoder takes absent data as no value, and finds a value in all others. -/
theorem nullable_eq_ok_none {α : Type} {decoder : Decoder α} {topic : String}
    {data : Option Bytes} : nullable decoder topic data = .ok none ↔ data = none := by
  rcases data with _ | data
  · exact iff_of_true rfl rfl
  · refine iff_of_false (fun h => ?_) (by rintro ⟨⟩)
    rw [nullable] at h
    cases hread : decoder topic (some data) <;> rw [hread] at h <;> cases h

/-- It is enough to know when a decoder that requires data gives which value. -/
theorem Inverts.of_exactly {α : Type} {read : Bytes → Except DecodeError α} {Valid : α → Prop}
    {encode : α → Bytes} (h : ∀ data a, read data = .ok a ↔ Valid a ∧ data = encode a) :
    Inverts (require read) Valid encode where
  exactly _ := h
  roundTrips _ a ha := (h (encode a) a).mpr ⟨ha, rfl⟩
  refuses _ data hnone := by
    cases hread : read data with
    | error e => exact ⟨e, hread⟩
    | ok a =>
      obtain ⟨ha, hdata⟩ := (h data a).mp hread
      exact absurd hdata (hnone a ha)
  absent _ := rfl
  nullable_eq_none _ _ := nullable_eq_ok_none
  nullable_some _ _ := rfl

/-- **The built-in decoders invert their encodings**: the one for texts the octets that make up a
text, the one for octets these themselves, and the one for integers of 64 bits the octets of the
word that stands for them in two's complement, the most significant first. -/
theorem inverts_builtin :
    Inverts text (fun _ => True) (fun s => s.toUTF8.data.toList) ∧
      Inverts octets (fun _ => True) id ∧
      Inverts long FitsSigned64 fun n => octetsOfWord (.ofInt 64 n) := by
  refine ⟨.of_exactly fun data s => ?_, .of_exactly fun data bs => ?_, .of_exactly fun data n => ?_⟩
  · rw [true_and, ← Utf8.encode_eq_toUTF8, ← Utf8.decode_eq_ok_iff]
    cases Utf8.decode data with
    | ok s' => rw [Except.ok.injEq, Except.ok.injEq]
    | error fault => exact iff_of_false (by rintro ⟨⟩) (by rintro ⟨⟩)
  · rw [true_and, Except.ok.injEq, id]
  · rw [← encodeLong_eq_octetsOfWord]
    exact @long_eq_ok_iff "" data n

/-- An overlong form, a surrogate, a text that ends inside a character, and too many octets. -/
example :
    text "orders" (some [0xC0, 0xAF]) = .error (.notUtf8 (.invalid 1 0)) ∧
      text "orders" (some [0x61, 0xED, 0xA0, 0x80]) = .error (.notUtf8 (.invalid 1 1)) ∧
      text "orders" (some [0x61, 0xE2, 0x82]) = .error (.notUtf8 (.incomplete 1)) ∧
      long "orders" (some [0, 0, 0, 0, 0, 0, 0, 0, 1]) = .error (.wrongSize 9) :=
  ⟨by cbv, by cbv, by cbv, rfl⟩

end Decoder

end StreamDispatch
