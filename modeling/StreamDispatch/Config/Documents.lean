import StreamDispatch.Config.Settings
import StreamDispatch.Document.Decode
import StreamDispatch.Number.Word

/-!
# Settings as documents

How settings are written as documents, and how they are read from them. Reading accepts
more than writing produces: fields may be left out, most have a second, shorter name, and a
group of fields may be a list. What is read from what was written is the same again.

## Main definitions

* `Settings.ofDocument`, `Settings.toDocument`, and the same for listeners, consumers and
  topics.
-/

namespace StreamDispatch

open Document

/-- A field that reads its value by `read` and puts it into the record by `put`. -/
def field {σ α : Type} (name : String) (otherName : Option String)
    (read : Document → Except Fault α) (put : α → σ → σ) : FieldReader σ where
  name := name
  otherName := otherName
  required := false
  read := fun d record => (read d).map fun a => put a record

/-- A field that has to be given. -/
def requiredField {σ α : Type} (name : String) (otherName : Option String)
    (read : Document → Except Fault α) (put : α → σ → σ) : FieldReader σ :=
  { field name otherName read put with required := true }

/-- A number of milliseconds or of things, in 64 bits. -/
def decodeWord64 : Document → Except Fault Nat := decodeNat maxWord64

/-- A number of things, in 32 bits. -/
def decodeWord32 : Document → Except Fault Nat := decodeNat maxWord32

/-- A dictionary of texts as a document. -/
def textsDocument (d : Dict String String) : Document := .ofDict (d.map fun _ s => .text s)

/-- A number as a document, or nothing. -/
def countDocument : Option Nat → Document
  | some n => .integer n
  | none => .null

namespace ListenerConfig

/-- The fields of a listener. -/
def fields : List (FieldReader ListenerConfig) :=
  [field "poll_timeout_ms" none decodeWord64 fun n c => { c with pollTimeoutMs := n },
   field "max_instances" (some "instances") decodeWord64 fun n c =>
    { c with maxInstances := n },
   field "max_poll_records" none decodeWord64 fun n c => { c with maxPollRecords := n },
   field "shutdown_timeout_ms" none decodeWord64 fun n c => { c with shutdownTimeoutMs := n },
   field "metadata_fields" none (decodeList decodeText) fun names c =>
    { c with metadataFields := names }]

/-- Reads a listener. -/
def ofDocument (format : Format) : Document → Except Fault ListenerConfig :=
  decodeRecord format fields default

/-- Writes a listener. -/
def toDocument (c : ListenerConfig) : Document :=
  .ofEntries
    [("poll_timeout_ms", .integer c.pollTimeoutMs),
     ("max_instances", .integer c.maxInstances),
     ("max_poll_records", .integer c.maxPollRecords),
     ("shutdown_timeout_ms", .integer c.shutdownTimeoutMs),
     ("metadata_fields", .ofList (c.metadataFields.map .text))]

end ListenerConfig

namespace ConsumerConfig

/-- The fields of a consumer. -/
def fields (format : Format) : List (FieldReader ConsumerConfig) :=
  [field "group_id" (some "group") decodeText fun s c => { c with groupId := s },
   field "client_id_prefix" (some "client_id") decodeText fun s c =>
    { c with clientIdPrefix := s },
   field "commit_strategy" none (decodeChoice format CommitStrategy.choices) fun s c =>
    { c with commitStrategy := s },
   field "properties" (some "config") (decodeDict decodeText) fun d c =>
    { c with properties := d }]

/-- Reads a consumer. -/
def ofDocument (format : Format) : Document → Except Fault ConsumerConfig :=
  decodeRecord format (fields format) default

/-- Writes a consumer. -/
def toDocument (c : ConsumerConfig) : Document :=
  .ofEntries
    [("group_id", .text c.groupId),
     ("client_id_prefix", .text c.clientIdPrefix),
     ("commit_strategy", .text c.commitStrategy.name),
     ("properties", textsDocument c.properties)]

end ConsumerConfig

namespace TopicExpectation

/-- The fields of an expectation. -/
def fields : List (FieldReader TopicExpectation) :=
  [requiredField "topic_name" (some "name") decodeText fun s t => { t with topicName := s },
   field "partition_count" (some "partitions") (decodeOption decodeWord32) fun n t =>
    { t with partitionCount := n },
   field "replication_factor" none (decodeOption decodeWord32) fun n t =>
    { t with replicationFactor := n },
   field "config_entries" (some "config") (decodeDict decodeText) fun d t =>
    { t with configEntries := d }]

/-- Reads an expectation. -/
def ofDocument (format : Format) : Document → Except Fault TopicExpectation :=
  decodeRecord format fields (named "")

/-- Writes an expectation. -/
def toDocument (t : TopicExpectation) : Document :=
  .ofEntries
    [("topic_name", .text t.topicName),
     ("partition_count", countDocument t.partitionCount),
     ("replication_factor", countDocument t.replicationFactor),
     ("config_entries", textsDocument t.configEntries)]

end TopicExpectation

namespace Settings

/-- The fields of settings. -/
def fields (format : Format) : List (FieldReader Settings) :=
  [field "brokers" none (decodeList decodeText) fun l s => { s with brokers := l },
   field "properties" none (decodeDict decodeText) fun d s => { s with properties := d },
   field "listeners" none (decodeDict (ListenerConfig.ofDocument format)) fun d s =>
    { s with listeners := d },
   field "consumers" none (decodeDict (ConsumerConfig.ofDocument format)) fun d s =>
    { s with consumers := d },
   field "topics" none (decodeDict (TopicExpectation.ofDocument format)) fun d s =>
    { s with topics := d }]

/-- Reads settings. -/
def ofDocument (format : Format) : Document → Except Fault Settings :=
  decodeRecord format (fields format) empty

/-- Writes settings. -/
def toDocument (s : Settings) : Document :=
  .ofEntries
    [("brokers", .ofList (s.brokers.map .text)),
     ("properties", textsDocument s.properties),
     ("listeners", .ofDict (s.listeners.map fun _ c => c.toDocument)),
     ("consumers", .ofDict (s.consumers.map fun _ c => c.toDocument)),
     ("topics", .ofDict (s.topics.map fun _ t => t.toDocument))]

end Settings

end StreamDispatch
