import StreamDispatch.Number.Binary

/-!
# Floats written exactly

Every finite float is a whole number times a power of ten, since `2⁻ᵏ = 5ᵏ · 10⁻ᵏ`. Writing
it so loses nothing, and any reader that rounds correctly gives the same float back.

## Main definitions

* `exactText`: the exact decimal text of a float, where it has one.
* `scaledFloat`: a whole number times a power of ten, as a float.
-/

namespace StreamDispatch

/-- Halves `n` as often as it is even, at most `k` times; also how often that was. -/
def halve : Nat → Nat → Nat × Nat
  | n, 0 => (n, 0)
  | n, k + 1 =>
    if n % 2 = 0 then
      let (m, j) := halve (n / 2) k
      (m, j + 1)
    else (n, 0)

/-- The decimal text of a finite float, always with a point or an exponent; `none` for
infinities and for what is not a number. -/
def exactText (x : Float) : Option String :=
  match floatView x with
  | .finite negative significand exponent =>
    let sign := if negative then "-" else ""
    if significand = 0 then some (sign ++ "0.0")
    else if 0 ≤ exponent then
      some (sign ++ toString (significand * Nat.pow 2 exponent.toNat) ++ ".0")
    else
      let (odd, twos) := halve significand (-exponent).toNat
      let places := (-exponent).toNat - twos
      if places = 0 then some (sign ++ toString odd ++ ".0")
      else some (sign ++ toString (odd * Nat.pow 5 places) ++ "e-" ++ toString places)
  | _ => none

/-- Divides by `10 ^ places` in strides of `10 ^ 308`. -/
def divideByTens (x : Float) (places : Nat) : Float :=
  if h : places ≤ 308 then x / Float.ofScientific 1 false places
  else if x == 0 then x
  else divideByTens (x / Float.ofScientific 1 false 308) (places - 308)
termination_by places
decreasing_by omega

/-- `significand · 10 ^ exponent` by one rounded multiplication or division (more than one
only for exponents below `-308`); `none` if it exceeds every float. -/
def scaledFloat (significand : Nat) (exponent : Int) : Option Float :=
  let x := significand.toUInt64.toFloat
  if exponent < 0 then some (divideByTens x exponent.natAbs)
  else if exponent ≤ 308 then
    let y := x * Float.ofScientific 1 false exponent.toNat
    if y.isInf then none else some y
  else if significand = 0 then some x
  else none

end StreamDispatch
