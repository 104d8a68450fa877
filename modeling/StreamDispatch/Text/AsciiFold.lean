/-!
# Names that ignore the case of ASCII letters

Header names and metadata fields are matched without regard to the case of the
letters `A` to `Z`; every other character, also a letter of another alphabet, has to
agree exactly. Two ways of saying so meet here: two names can be compared character
by character (`sameName`), or a name can be brought to lower case first
(`foldName`).

## Main statements

* `sameName_iff`: **the two ways agree**, names match exactly when they fold to one
  text.
* `foldName_foldName`: folding twice is folding once.
-/

namespace StreamDispatch

/-- A name with its ASCII letters in lower case. -/
def foldName (s : String) : String := String.ofList (s.toList.map Char.toLower)

/-- Whether two lists of characters agree up to the case of ASCII letters. -/
def sameLetters : List Char → List Char → Bool
  | [], [] => true
  | a :: as, b :: bs => a.toLower == b.toLower && sameLetters as bs
  | _, _ => false

/-- Whether two names agree up to the case of ASCII letters. -/
def sameName (a b : String) : Bool := sameLetters a.toList b.toList

theorem sameLetters_iff {as bs : List Char} :
    sameLetters as bs = true ↔ as.map Char.toLower = bs.map Char.toLower := by
  fun_induction sameLetters as bs with
  | case1 => simp
  | case2 a as b bs ih => simp [ih]
  | case3 as bs hnil hcons =>
    cases as <;> cases bs
    · exact absurd rfl (hnil rfl)
    · simp
    · simp
    · exact (hcons _ _ _ _ rfl rfl).elim

/-- **Comparing letter by letter is comparing the folded names.** -/
theorem sameName_iff {a b : String} : sameName a b = true ↔ foldName a = foldName b := by
  rw [sameName, sameLetters_iff, foldName, foldName, String.ofList_inj]

theorem toLower_of_not_upper {c : Char} (h : ¬ ('A'.val ≤ c.val ∧ c.val ≤ 'Z'.val)) :
    c.toLower = c :=
  dif_neg h

theorem toLower_toLower (c : Char) : c.toLower.toLower = c.toLower := by
  by_cases h : 'A'.val ≤ c.val ∧ c.val ≤ 'Z'.val
  · have hval : c.toLower.val = c.val + 32 := congrArg Char.val (dif_pos h)
    refine toLower_of_not_upper fun hupper => ?_
    rw [hval] at hupper
    have hlow : (65 : Nat) ≤ c.val.toNat := h.1
    have hhigh : c.val.toNat ≤ 90 := h.2
    have hsum : (c.val + 32).toNat ≤ 90 := hupper.2
    rw [UInt32.toNat_add] at hsum
    have h32 : (32 : UInt32).toNat = 32 := rfl
    omega
  · rw [toLower_of_not_upper h, toLower_of_not_upper h]

@[simp] theorem foldName_foldName (s : String) : foldName (foldName s) = foldName s := by
  simp only [foldName, String.toList_ofList, List.map_map, Function.comp_def, toLower_toLower]

end StreamDispatch
