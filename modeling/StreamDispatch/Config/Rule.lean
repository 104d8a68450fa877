/-!
# Rules for single fields

Configuration fields obey two rules: a count has to be at least 1, and a name must not be
empty. Broken rules are reported together, in the order of the fields' names.

## Main definitions

* `Violation`, `violationsText`.
* `atLeastOne`, `notEmpty`: the two rules.
-/

namespace StreamDispatch

/-- A rule for a field. -/
inductive FieldRule
  /-- A text has a least length. -/
  | length
  /-- A number has a least value. -/
  | range
  deriving DecidableEq, Repr

/-- The name of a rule. -/
def FieldRule.name : FieldRule → String
  | .length => "length"
  | .range => "range"

/-- A field that breaks a rule. -/
structure Violation where
  field : String
  rule : FieldRule
  deriving DecidableEq, Repr

/-- The text of a broken rule. -/
def Violation.text (v : Violation) : String := s!"{v.field}: {v.rule.name}"

/-- The text of all broken rules. -/
def violationsText (vs : List Violation) : String := "; ".intercalate (vs.map Violation.text)

/-- The fields that break a rule. -/
def violatedFields (vs : List Violation) : String := ",".intercalate (vs.map Violation.field)

/-- A number has to be at least 1. -/
def atLeastOne (field : String) (n : Nat) : List Violation :=
  if 1 ≤ n then [] else [⟨field, .range⟩]

/-- A text must not be empty. -/
def notEmpty (field : String) (s : String) : List Violation :=
  if s = "" then [⟨field, .length⟩] else []

theorem atLeastOne_eq_nil_iff {field : String} {n : Nat} :
    atLeastOne field n = [] ↔ 1 ≤ n := by
  rw [atLeastOne]
  split <;> simp [*]

theorem notEmpty_eq_nil_iff {field s : String} : notEmpty field s = [] ↔ s ≠ "" := by
  simp [notEmpty]

end StreamDispatch
