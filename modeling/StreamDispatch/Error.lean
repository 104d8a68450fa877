import StreamDispatch.Document.Decode
import StreamDispatch.Record
import StreamDispatch.Topic

/-!
# Errors

Everything that can go wrong outside the handling of a single record, as causes: settings
that cannot be read, fields that break a rule, registrations that make no sense, topics of
another shape than expected, and a broker that refuses a request. Each group also has a
cause `reported`, for an error that an application made up itself.

The texts are all in this file: `Error.message` for the engine's own errors and
`SubmitError.message` for those of handing in a registration.

## Main definitions

* `Error`, `Error.message`.
* `SubmitError`, `SubmitError.message`.
-/

namespace StreamDispatch

/-- Why settings could not be read or written. -/
inductive ParseCause
  /-- The text is ill-formed, or of another shape. -/
  | document (format : Format) (fault : Fault)
  /-- The settings cannot be written in a format. -/
  | unwritable (format : Format)
  /-- A file name has no extension to tell the format. -/
  | noExtension
  /-- A file name has an extension that stands for no format. -/
  | unknownExtension (extension : String)
  | reported (message : String)
  deriving DecidableEq, Repr

/-- The name of a format in reports. -/
def Format.title : Format → String
  | .toml => "TOML"
  | .json => "JSON"

/-- The text of a cause. -/
def ParseCause.message : ParseCause → String
  | .document format fault => s!"{format.title} parse error" ++ fault.detail
  | .unwritable format => s!"{format.title} serialize error"
  | .noExtension => "cannot determine file format from extension"
  | .unknownExtension extension => s!"unsupported config format: .{extension}"
  | .reported message => message

/-- Why a field of the settings is refused. -/
inductive FieldCause
  /-- Fields break their rules. -/
  | violations (broken : List Violation)
  /-- A broker has a blank address. -/
  | blankBroker
  /-- A metadata field has a blank name. -/
  | blankMetadataField
  /-- Two entries expect different things of one topic. -/
  | conflictingTopic (topic other : String)
  | reported (message : String)
  deriving DecidableEq, Repr

/-- The text of a cause. -/
def FieldCause.message : FieldCause → String
  | .violations broken => violationsText broken
  | .blankBroker => "broker address cannot be empty"
  | .blankMetadataField => "metadata field name cannot be empty"
  | .conflictingTopic topic other =>
    s!"conflicting expectations for topic '{topic}' (also declared as '{other}')"
  | .reported message => message

/-- The kinds of named configurations. -/
inductive ConfigKind
  | topic
  | listener
  | consumer
  deriving DecidableEq, Repr

/-- The name of a kind of configuration. -/
def ConfigKind.name : ConfigKind → String
  | .topic => "topic"
  | .listener => "listener"
  | .consumer => "consumer"

/-- Why a registration makes no sense. -/
inductive ConfigurationCause
  | noTopics
  | blankTopic
  | duplicateTopic (topic : String)
  | keyDecoderMissing
  | valueDecoderMissing
  /-- A configuration is asked for by a blank name. -/
  | blankConfigName (kind : ConfigKind)
  /-- There is no configuration of that name. -/
  | unknownConfig (kind : ConfigKind) (name : String)
  /-- A configuration is asked for by name, and there are no settings. -/
  | settingsMissing (kind : ConfigKind) (name : String)
  | reported (message : String)
  deriving DecidableEq, Repr

/-- The name of the field that holds a configuration of some kind. -/
def ConfigKind.field (kind : ConfigKind) : String := kind.name ++ "_config"

/-- The text of a cause. -/
def ConfigurationCause.message : ConfigurationCause → String
  | .noTopics => "no topics configured"
  | .blankTopic => "topic name must not be empty"
  | .duplicateTopic topic => s!"duplicate topic '{topic}'"
  | .keyDecoderMissing => "key deserializer is required"
  | .valueDecoderMissing => "value deserializer is required"
  | .blankConfigName kind => s!"{kind.field} name must not be empty"
  | .unknownConfig kind name => s!"unknown {kind.name} config '{name}'"
  | .settingsMissing kind name =>
    s!"{kind.name} config '{name}' requested but no settings are loaded"
  | .reported message => message

/-- The requests that a broker may refuse. -/
inductive BrokerRequest
  | produce
  | createConsumer
  | describeTopic
  | poll
  | commit
  | storeOffsets
  deriving DecidableEq, Repr

/-- The name of a request. -/
def BrokerRequest.name : BrokerRequest → String
  | .produce => "produce"
  | .createConsumer => "create_consumer"
  | .describeTopic => "describe_topic"
  | .poll => "poll"
  | .commit => "commit"
  | .storeOffsets => "store_offsets"

/-- Why a broker refuses a request. -/
inductive BrokerFault
  /-- It is told to fail requests of this kind. -/
  | injected (request : BrokerRequest)
  /-- There is no such partition to write to. -/
  | unknownPartition (partition : TopicPartition)
  /-- A session polls that has not joined its group. -/
  | notSubscribed
  /-- A session commits that is not a member of its group. -/
  | notMember (client : String)
  /-- A session stores a position in a partition that is not assigned to it. -/
  | notAssigned (partition : TopicPartition) (client : String)
  | reported (operation message : String)
  deriving DecidableEq, Repr

namespace BrokerFault

/-- The name of the request that was refused. -/
def operation : BrokerFault → String
  | .injected request => request.name
  | .unknownPartition _ => BrokerRequest.name .produce
  | .notSubscribed => BrokerRequest.name .poll
  | .notMember _ => BrokerRequest.name .commit
  | .notAssigned _ _ => BrokerRequest.name .storeOffsets
  | .reported operation _ => operation

/-- What an injected fault of a request is called. -/
def injectedText : BrokerRequest → String
  | .createConsumer => "injected create failure"
  | .describeTopic => "injected metadata failure"
  | request => s!"injected {request.name} failure"

/-- The text of a fault. -/
def message : BrokerFault → String
  | .injected request => injectedText request
  | .unknownPartition tp => s!"unknown partition {tp.text}"
  | .notSubscribed => "consumer is not subscribed"
  | .notMember client => s!"'{client}' is not a group member"
  | .notAssigned tp client => s!"{tp.text} is not assigned to '{client}'"
  | .reported _ message => message

end BrokerFault

/-- Why a file could not be read. -/
inductive FileFault
  | missing
  | notUtf8
  | reported (message : String)
  deriving DecidableEq, Repr

/-- The text of a fault. -/
def FileFault.message : FileFault → String
  | .missing => "No such file or directory (os error 2)"
  | .notUtf8 => "stream did not contain valid UTF-8"
  | .reported message => message

/-- What can go wrong. -/
inductive Error
  /-- Settings could not be read or written. -/
  | unparsable (cause : ParseCause)
  /-- A field is refused. -/
  | invalidField (field : String) (cause : FieldCause)
  /-- A registration makes no sense. -/
  | misconfigured (cause : ConfigurationCause)
  /-- Live topics are not as expected. -/
  | topicMismatch (mismatches : List TopicMismatch)
  /-- The broker refused a request. -/
  | broker (fault : BrokerFault)
  /-- A file could not be read. -/
  | file (fault : FileFault)
  | other (message : String)
  deriving DecidableEq, Repr

namespace Error

/-- The text of an error. -/
def message : Error → String
  | .unparsable cause => s!"config parse error: {cause.message}"
  | .invalidField field cause => s!"config validation error at '{field}': {cause.message}"
  | .misconfigured cause => s!"configuration error: {cause.message}"
  | .topicMismatch mismatches =>
    "topic configuration mismatch: " ++ "; ".intercalate (mismatches.map TopicMismatch.text)
  | .broker fault => s!"broker error during {fault.operation}: {fault.message}"
  | .file fault => s!"io error: {fault.message}"
  | .other message => message

/-- Whether a broker refused a request, which ends a worker. -/
def isBroker : Error → Bool
  | .broker _ => true
  | _ => false

end Error

/-- Why a registration is not taken. -/
inductive SubmitError
  /-- One of the same name is still active. -/
  | duplicate (name : String)
  | error (error : Error)
  deriving DecidableEq, Repr

namespace SubmitError

/-- The text of an error. -/
def message : SubmitError → String
  | .duplicate name => s!"registration '{name}' is already submitted"
  | .error e => e.message

/-- Whether live topics are not as expected. -/
def isTopicMismatch : SubmitError → Bool
  | .error (.topicMismatch _) => true
  | _ => false

end SubmitError

/-- The error of a handler: its text, and the text of the error that it wraps. -/
structure HandlerError where
  message : String
  source : Option String
  deriving DecidableEq, Repr

/-- An error that wraps another has the text of the other. -/
def HandlerError.wrapping (source : String) : HandlerError := ⟨source, some source⟩

end StreamDispatch
