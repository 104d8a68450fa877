import StreamDispatch.Document.Toml.Statement

/-!
# Putting a TOML text together

The statements of a TOML text build up one table. Which statement may touch which part of
it depends on how that part came to be:

* a table that a header named is *explicit*, and no second header may name it;
* a table that only lies on the way of a header is *implicit*, and may be named later;
* a table that only lies on the way of a dotted key is *dotted*: further dotted keys may
  add to it, and no header may name it;
* the latest table of a list of tables stands for the list on the way to deeper ones;
* a value, an inline table or a list among them, is finished once it is written.

## Main definitions

* `Toml.Node`: a table under construction.
* `Toml.assemble`: the table that statements build, or `none` where they collide.
* `Toml.read`: the document of a TOML text.
-/

namespace StreamDispatch

namespace Toml

/-- How a table under construction came to be. -/
inductive Origin
  | explicit
  | implicit
  | dotted
  deriving DecidableEq, Repr

/-- A part of a table under construction. -/
inductive Node
  /-- A finished value. -/
  | value (d : Document)
  /-- A table. -/
  | table (origin : Origin) (entries : List (String × Node))
  /-- A list of tables: the finished ones, the latest first, and the one being written. -/
  | tables (earlier : List (List (String × Node))) (latest : List (String × Node))
  deriving Inhabited

/-- The entries of a table under construction. -/
abbrev Entries := List (String × Node)

/-- The entry at a key. -/
def Entries.find? (entries : Entries) (key : String) : Option Node :=
  (entries.lookup key)

/-- Writes the entry at a key. -/
def Entries.put (entries : Entries) (key : String) (node : Node) : Entries :=
  match entries with
  | [] => [(key, node)]
  | e :: rest => if e.1 = key then (key, node) :: rest else e :: Entries.put rest key node

/-- Changes the table at the end of a path by `change`, which sees how it came to be. Tables
that are missing on the way are made, dotted ones for a dotted key and implicit ones for a
header. -/
def changeAt (dotted : Bool) (change : Origin → Entries → Option (Origin × Entries)) :
    Path → Origin → Entries → Option (Origin × Entries)
  | [], origin, entries => change origin entries
  | key :: path, origin, entries =>
    match entries.find? key with
    | none =>
      (changeAt dotted change path (if dotted then .dotted else .implicit) []).map
        fun r => (origin, entries.put key (.table r.1 r.2))
    | some (.table inner es) =>
      if dotted && inner == .explicit then none
      else
        (changeAt dotted change path inner es).map
          fun r => (origin, entries.put key (.table r.1 r.2))
    | some (.tables earlier latest) =>
      (changeAt dotted change path .explicit latest).map
        fun r => (origin, entries.put key (.tables earlier r.2))
    | some (.value _) => none

/-- Gives the key at the end of a path a value, in the table with the given entries. -/
def assignAt (path : Path) (d : Document) (origin : Origin) (entries : Entries) :
    Option (Origin × Entries) :=
  match path.getLast? with
  | none => none
  | some key =>
    let way := path.dropLast
    let dotted := !way.isEmpty
    changeAt dotted
      (fun origin entries =>
        if (origin == .dotted) != dotted then none
        else if (entries.find? key).isSome then none
        else some (origin, entries.put key (.value d)))
      way origin entries

/-- Opens the table that a header names. -/
def openTable (path : Path) (root : Entries) : Option Entries :=
  match path.getLast? with
  | none => none
  | some key =>
    (changeAt false
      (fun origin entries =>
        match entries.find? key with
        | none => some (origin, entries.put key (.table .explicit []))
        | some (.table .implicit es) => some (origin, entries.put key (.table .explicit es))
        | some _ => none)
      path.dropLast .explicit root).map (·.2)

/-- Opens a new table in the list that a doubled header names. -/
def openListed (path : Path) (root : Entries) : Option Entries :=
  match path.getLast? with
  | none => none
  | some key =>
    (changeAt false
      (fun origin entries =>
        match entries.find? key with
        | none => some (origin, entries.put key (.tables [] []))
        | some (.tables earlier latest) =>
          some (origin, entries.put key (.tables (latest :: earlier) []))
        | some _ => none)
      path.dropLast .explicit root).map (·.2)

/-! ### Finished documents -/

mutual

/-- The document of a part under construction. -/
def Node.document : Node → Document
  | .value d => d
  | .table _ entries => .ofDict (entriesDict entries ∅)
  | .tables earlier latest =>
    .ofList ((tableDocuments earlier).reverse ++ [.ofDict (entriesDict latest ∅)])

/-- The entries of a table under construction, in key order. -/
def entriesDict : Entries → Dict String Document → Dict String Document
  | [], dict => dict
  | (key, node) :: rest, dict => entriesDict rest (dict.insert key node.document)

/-- The documents of finished tables. -/
def tableDocuments : List Entries → List Document
  | [] => []
  | entries :: rest => .ofDict (entriesDict entries ∅) :: tableDocuments rest

end

mutual

/-- The document of a value as written; an inline table must not collide with itself. -/
def Value.document? : Value → Option Document
  | .leaf d => some d
  | .array items => (documents? items).map .ofList
  | .inlineTable entries =>
    (inlineEntries? entries []).map fun es => .ofDict (entriesDict es ∅)

/-- The documents of the items of a list. -/
def documents? : List Value → Option (List Document)
  | [] => some []
  | v :: rest =>
    match v.document? with
    | none => none
    | some d => (documents? rest).map (d :: ·)

/-- Writes the entries of an inline table in order. -/
def inlineEntries? : List (Path × Value) → Entries → Option Entries
  | [], entries => some entries
  | (path, v) :: rest, entries =>
    match v.document? with
    | none => none
    | some d =>
      match assignAt path d .explicit entries with
      | some r => inlineEntries? rest r.2
      | none => none

end

/-! ### All statements -/

/-- Carries out statements; `current` is the path of the latest header. -/
def assembleFrom : List Statement → (current : Path) → Entries → Option Entries
  | [], _, root => some root
  | .header path :: rest, _, root =>
    match openTable path root with
    | some root => assembleFrom rest path root
    | none => none
  | .arrayHeader path :: rest, _, root =>
    match openListed path root with
    | some root => assembleFrom rest path root
    | none => none
  | .assign path v :: rest, current, root =>
    match v.document? with
    | none => none
    | some d =>
      match changeAt false (assignAt path d) current .explicit root with
      | some r => assembleFrom rest current r.2
      | none => none

/-- The table that statements build. -/
def assemble (statements : List Statement) : Option Document :=
  (assembleFrom statements [] []).map fun entries => .ofDict (entriesDict entries ∅)

/-- The document of a TOML text; an ill-formed text is broken as a whole. -/
def read (text : String) : Document :=
  ((readStatements text).bind assemble).getD .broken

end Toml

end StreamDispatch
