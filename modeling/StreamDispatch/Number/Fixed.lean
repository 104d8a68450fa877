import StreamDispatch.Number.Binary

/-!
# Floats with a fixed number of places

Latency summaries show their figures with three decimal places. The number of
thousandths is computed exactly, by one division of natural numbers that rounds to
the nearest and sends a tie to the even neighbour; nothing is rounded twice.

## Main statements

* `roundDiv_two_mul_le`, `le_roundDiv_two_mul`: a rounded quotient is within half a
  unit of the quotient.

## Main definitions

* `fixedText`: the text of a float with a given number of places.
-/

namespace StreamDispatch

/-- The quotient of two natural numbers, rounded to the nearest; a tie goes to the
even neighbour. -/
def roundDiv (num den : Nat) : Nat :=
  let q := num / den
  let r := num % den
  if 2 * r < den then q
  else if den < 2 * r then q + 1
  else q + q % 2

/-- A rounded quotient is at most half a unit too large. -/
theorem roundDiv_two_mul_le (num : Nat) {den : Nat} (h : 0 < den) :
    2 * (roundDiv num den * den) ≤ 2 * num + den := by
  have hdiv := Nat.div_add_mod num den
  have hmod := Nat.mod_lt num h
  rw [Nat.mul_comm] at hdiv
  simp only [roundDiv]
  split
  · omega
  · split
    · rw [Nat.add_mul]
      omega
    · have : num / den % 2 * den ≤ 1 * den := Nat.mul_le_mul_right _ (by omega)
      rw [Nat.add_mul]
      omega

/-- A rounded quotient is at most half a unit too small. -/
theorem le_roundDiv_two_mul (num : Nat) {den : Nat} (h : 0 < den) :
    2 * num ≤ 2 * (roundDiv num den * den) + den := by
  have hdiv := Nat.div_add_mod num den
  have hmod := Nat.mod_lt num h
  rw [Nat.mul_comm] at hdiv
  simp only [roundDiv]
  split
  · omega
  · split
    · rw [Nat.add_mul]
      omega
    · rw [Nat.add_mul]
      omega

/-- The whole number of units of the last of `places` decimal places that lies nearest
to `significand · 2 ^ exponent`. -/
def fixedUnits (places significand : Nat) (exponent : Int) : Nat :=
  if 0 ≤ exponent then
    significand * Nat.pow 2 exponent.toNat * Nat.pow 10 places
  else
    roundDiv (significand * Nat.pow 10 places) (Nat.pow 2 (-exponent).toNat)

/-- The digits of a number, with zeros in front up to `width`. -/
def paddedDigits (width n : Nat) : String :=
  let digits := Nat.toDigits 10 n
  String.ofList (List.replicate (width - digits.length) '0' ++ digits)

/-- The text of a float with `places` decimal places; a negative zero, and a number that
rounds to zero from below, keep their sign. -/
def fixedText (places : Nat) (x : Float) : String :=
  match floatView x with
  | .nan => "NaN"
  | .infinite true => "-inf"
  | .infinite false => "inf"
  | .finite negative significand exponent =>
    let units := fixedUnits places significand exponent
    let whole := paddedDigits 1 (units / Nat.pow 10 places)
    let sign := if negative then "-" else ""
    if places = 0 then sign ++ whole
    else sign ++ whole ++ "." ++ paddedDigits places (units % Nat.pow 10 places)

end StreamDispatch
