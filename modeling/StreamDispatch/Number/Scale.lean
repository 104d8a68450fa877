import StreamDispatch.Number.Word

/-!
# Arithmetic between whole numbers and floats

A retry delay is a whole number of milliseconds that grows by a factor which need not
be whole. This file has the few operations that lead from whole numbers to floats and
back: conversion to the nearest float, powers by repeated squaring, the smaller and
the larger of two floats where one may be no number, and the whole part as an unsigned
64-bit number.

The order of the multiplications in `powFloat` is part of its result: each of them
rounds.

## Main definitions

* `nearestFloat`, `powFloat`, `minNumber`, `maxNumber`, `wholePart`.
-/

namespace StreamDispatch

/-- The float nearest to a whole number; a tie goes to the even significand.

Below `2⁶⁴` this is a machine conversion. A larger number is first cut to 63 or 64
bits, with the last bit set when anything nonzero was cut off, so that the conversion
of the shorter number still sees on which side of a tie the number lies. -/
def nearestFloat (n : Nat) : Float :=
  if n < wordCount64 then n.toUInt64.toFloat
  else
    let cut := n.log2 - 62
    let top := n >>> cut
    let sticky := if n % Nat.pow 2 cut = 0 then top else top ||| 1
    sticky.toUInt64.toFloat.scaleB cut

/-- Multiplies `acc` by `base ^ n`: the odd powers of two in `n` are multiplied in from the
least on, and the base is squared in between. -/
def powFrom (acc base : Float) (n : Nat) : Float :=
  let acc := if n % 2 = 1 then acc * base else acc
  if h : n / 2 = 0 then acc else powFrom acc (base * base) (n / 2)
termination_by n
decreasing_by omega

/-- `base ^ n` by repeated squaring. -/
def powFloat (base : Float) (n : Nat) : Float := powFrom 1 base n

/-- The smaller of two floats; what is not a number does not count. -/
def minNumber (a b : Float) : Float :=
  if a.isNaN then b else if b < a then b else a

/-- The larger of two floats; what is not a number does not count. -/
def maxNumber (a b : Float) : Float :=
  if a.isNaN then b else if a < b then b else a

/-- The whole part of a float as an unsigned 64-bit number: negative numbers and what is
not a number give zero, and what is too large gives the greatest number. -/
def wholePart (x : Float) : Nat := x.toUInt64.toNat

end StreamDispatch
