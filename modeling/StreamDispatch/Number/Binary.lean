import StreamDispatch.Number.Word

/-!
# What a floating-point number is

A 64-bit float is read here as what it stands for: a sign, a whole significand and
a power of two, or one of the values outside the number line. Everything that has to be
exact about floats, printing with a fixed number of places above all, is then
arithmetic on natural numbers.

## Main definitions

* `FloatView`: the value of a float, taken apart.
* `FloatView.ofBits`, `Float.view`.
-/

namespace StreamDispatch

/-- A float taken apart. -/
inductive FloatView
  /-- Not a number. -/
  | nan
  /-- An infinity, with its sign. -/
  | infinite (negative : Bool)
  /-- The number `± significand · 2 ^ exponent`; zero keeps its sign. -/
  | finite (negative : Bool) (significand : Nat) (exponent : Int)
  deriving DecidableEq, Repr

/-- The leading bit of a significand, `2⁵²`, which is left out of the bits of a float. -/
def hiddenBit : Nat := 4503599627370496

/-- Reads the 64 bits of a float: one sign bit, eleven of exponent, 52 of significand. -/
def FloatView.ofBits (bits : Nat) : FloatView :=
  let negative := decide (halfWordCount64 ≤ bits % wordCount64)
  let exponent := bits / hiddenBit % 2048
  let significand := bits % hiddenBit
  if exponent = 2047 then
    if significand = 0 then .infinite negative else .nan
  else if exponent = 0 then
    .finite negative significand (-1074)
  else
    .finite negative (hiddenBit + significand) ((exponent : Int) - 1075)

/-- What a float stands for. -/
def floatView (x : Float) : FloatView := .ofBits x.toBits.toNat

end StreamDispatch
