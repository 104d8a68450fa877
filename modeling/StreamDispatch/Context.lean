import StreamDispatch.Dict
import StreamDispatch.Record

/-!
# What a handler is told about its call

Beside the record a handler gets a `DispatchContext`: which registration and worker is
calling it, which attempt this is, and the values of those headers that the listener's
configuration names as *metadata fields*. Fields are named without regard to the case of
ASCII letters, and a field whose headers have no value is left out.

## Main definitions

* `metadataOf`: the metadata of a record for a list of fields.
* `DispatchContext`, `DispatchContext.ofRecord`, `DispatchContext.metadataValue`.
-/

namespace StreamDispatch

/-- The values of the metadata fields of a record, under their folded names. -/
def metadataOf (record : RawRecord) (fields : List String) : Dict String (List String) :=
  fields.foldl
    (fun metadata field =>
      let values := (record.headerValues field).map Utf8.decodeLossy
      if values.isEmpty then metadata else metadata.insert (foldName field) values)
    ∅

/-- What a handler is told about its call. -/
structure DispatchContext where
  registration : String
  worker : Nat
  topic : String
  partition : Int
  offset : Int
  attempt : Nat
  /-- The values of each metadata field in record order, under its folded name. -/
  metadata : Dict String (List String)
  deriving DecidableEq

namespace DispatchContext

/-- The context of an attempt at a record. -/
def ofRecord (registration : String) (worker attempt : Nat) (record : RawRecord)
    (fields : List String) : DispatchContext where
  registration := registration
  worker := worker
  topic := record.topic
  partition := record.partition
  offset := record.offset
  attempt := attempt
  metadata := metadataOf record fields

/-- The first value of a metadata field, whatever the case of its name. -/
def metadataValue (context : DispatchContext) (field : String) : Option String :=
  (context.metadata.get? (foldName field)).bind (·.head?)

end DispatchContext

end StreamDispatch
