/-!
# Blank text

A name that is nothing but white space names nothing. Broker addresses, metadata
fields, topics and registrations are all refused when they are *blank* in the sense
of this file: every character has the Unicode property `White_Space`.

The property is a closed table of 25 code points, written out here as ranges.

## Main statements

* `isBlankChar_of_isWhitespace`: the four white-space characters of ASCII text that
  every editor knows are in the table.
* `isBlank_append`: a text is blank exactly when its parts are.
-/

namespace StreamDispatch

/-- The ranges of code points with the Unicode property `White_Space`. -/
def blankRanges : List (Nat × Nat) :=
  [(0x0009, 0x000D), (0x0020, 0x0020), (0x0085, 0x0085), (0x00A0, 0x00A0),
   (0x1680, 0x1680), (0x2000, 0x200A), (0x2028, 0x2029), (0x202F, 0x202F),
   (0x205F, 0x205F), (0x3000, 0x3000)]

/-- Whether a character is white space. -/
def isBlankChar (c : Char) : Bool :=
  blankRanges.any fun r => r.1 ≤ c.toNat && c.toNat ≤ r.2

/-- Whether a text has no character other than white space. -/
def isBlank (s : String) : Bool := s.toList.all isBlankChar

@[simp] theorem isBlank_empty : isBlank "" = true := rfl

theorem isBlank_append (s t : String) : isBlank (s ++ t) = (isBlank s && isBlank t) := by
  simp [isBlank, List.all_append]

/-- White space of core's own class is in the table. -/
theorem isBlankChar_of_isWhitespace {c : Char} (h : c.isWhitespace = true) :
    isBlankChar c = true := by
  simp only [Char.isWhitespace, Bool.or_eq_true, decide_eq_true_eq] at h
  rcases h with ((h | h) | h) | h <;> subst h <;> decide

end StreamDispatch
