/-!
# Words

Configuration, attempts and counters are held in words of 64 or 32 bits. What is read from
the outside has to fit into them, and a counter that has gone past the greatest word
starts again from zero: counting here is done in natural numbers, and `lowWord64` is what
a reader of the counter gets to see.

## Main statements

* `lowWord64_add`: reading a sum is adding what is read.
* `lowWord64_eq_self`: a counter that has not gone round is read as it is.
-/

namespace StreamDispatch

/-- The number of words of 64 bits, `2⁶⁴`. -/
def wordCount64 : Nat := 18446744073709551616

/-- Half the number of words of 64 bits, `2⁶³`; signed words lie on both sides of zero, up to
here. -/
def halfWordCount64 : Nat := 9223372036854775808

/-- The greatest unsigned number of 64 bits. -/
def maxWord64 : Nat := 18446744073709551615

/-- The greatest unsigned number of 32 bits. -/
def maxWord32 : Nat := 4294967295

/-- The greatest signed number of 32 bits. -/
def maxSigned32 : Nat := 2147483647

/-- What is read from a counter of 64 bits that has counted to `n`. -/
def lowWord64 (n : Nat) : Nat := n % wordCount64

theorem lowWord64_add (m n : Nat) :
    lowWord64 (m + n) = lowWord64 (lowWord64 m + lowWord64 n) := by
  simp [lowWord64]

theorem lowWord64_eq_self {n : Nat} (h : n ≤ maxWord64) : lowWord64 n = n :=
  Nat.mod_eq_of_lt (Nat.lt_succ_of_le h)

end StreamDispatch
