import StreamDispatch.Config.Settings
import StreamDispatch.ErrorPolicy
import StreamDispatch.Text.Blank

/-!
# Registrations

A registration says everything that workers have to know: which topics to read, how to
listen and to deal with the broker, how keys and values are decoded, what handles the
records, and what to do about failures. It is drafted step by step, and `Draft.build`
turns a draft into a registration or says what is wrong with it first.

What decodes and what handles is left open here: `D` is the type of whatever decodes keys
and values, and `H` that of whatever handles records.

## Main definitions

* `Draft`, `Draft.build`.
* `Registration`.
-/

namespace StreamDispatch

/-- What workers have to know. -/
structure Registration (D H : Type) where
  name : String
  /-- The topics to read, with what is expected of them. -/
  topics : List TopicExpectation
  /-- Whether the live topics are compared with the expectations before anything is read. -/
  checksTopics : Bool
  listener : ConfigRef ListenerConfig
  consumer : ConfigRef ConsumerConfig
  keyDecoder : D
  valueDecoder : D
  handler : H
  policy : ErrorPolicy

/-- The names of the topics to read. -/
def Registration.topicNames {D H : Type} (r : Registration D H) : List String :=
  r.topics.map (·.topicName)

/-- A registration that is being put together. -/
structure Draft (D H : Type) where
  listener : ConfigRef ListenerConfig
  topics : List TopicExpectation
  checksTopics : Bool
  consumer : ConfigRef ConsumerConfig
  keyDecoder : Option D
  valueDecoder : Option D
  handler : H
  policy : Option ErrorPolicy
  name : Option String

namespace Draft

variable {D H : Type}

/-- A draft in which only the handler and the topics are given. -/
def ofHandler (handler : H) (topics : List TopicExpectation) : Draft D H where
  listener := .given .default
  topics := topics
  checksTopics := false
  consumer := .given .default
  keyDecoder := none
  valueDecoder := none
  handler := handler
  policy := none
  name := none

/-- The draft with another error policy. -/
def onError (draft : Draft D H) (policy : ErrorPolicy) : Draft D H :=
  { draft with policy := some policy }

/-- The draft with another name. -/
def called (draft : Draft D H) (name : String) : Draft D H :=
  { draft with name := some name }

/-- Checks topics in turn; `seen` are the names of the earlier ones. -/
def checkTopicsFrom (seen : List String) : List TopicExpectation → Except Error Unit
  | [] => .ok ()
  | t :: rest =>
    if isBlank t.topicName then .error (.misconfigured .blankTopic)
    else if seen.contains t.topicName then
      .error (.misconfigured (.duplicateTopic t.topicName))
    else
      match t.violations with
      | [] => checkTopicsFrom (t.topicName :: seen) rest
      | broken => .error (.invalidField s!"topics.{t.topicName}" (.violations broken))

/-- There has to be a topic, and topics need names, distinct ones, and to obey their rules. -/
def checkTopics (topics : List TopicExpectation) : Except Error Unit :=
  if topics.isEmpty then .error (.misconfigured .noTopics) else checkTopicsFrom [] topics

/-- A configuration given directly obeys its rules, and one given by name has a name. -/
def checkConfig {α : Type} (kind : ConfigKind) (violations : α → List Violation) :
    ConfigRef α → Except Error Unit
  | .given config =>
    match violations config with
    | [] => .ok ()
    | broken => .error (.invalidField kind.field (.violations broken))
  | .named name =>
    if isBlank name then .error (.misconfigured (.blankConfigName kind)) else .ok ()

/-- The name of a registration: the given one, or the names of its topics if that is blank
or missing. -/
def chosenName (name : Option String) (topics : List TopicExpectation) : String :=
  match name with
  | some name => if isBlank name then joined else name
  | none => joined
where
  /-- The names of all topics. -/
  joined : String := ",".intercalate (topics.map (·.topicName))

/-- What is there, or the error that it is missing. -/
def needed {α : Type} (cause : ConfigurationCause) : Option α → Except Error α
  | some a => .ok a
  | none => .error (.misconfigured cause)

/-- The registration of a draft, or the first thing that is wrong with it. -/
def build (draft : Draft D H) : Except Error (Registration D H) := do
  checkTopics draft.topics
  let keyDecoder ← needed .keyDecoderMissing draft.keyDecoder
  let valueDecoder ← needed .valueDecoderMissing draft.valueDecoder
  checkConfig .listener ListenerConfig.violations draft.listener
  checkConfig .consumer ConsumerConfig.violations draft.consumer
  .ok {
    name := chosenName draft.name draft.topics
    topics := draft.topics
    checksTopics := draft.checksTopics
    listener := draft.listener
    consumer := draft.consumer
    keyDecoder := keyDecoder
    valueDecoder := valueDecoder
    handler := draft.handler
    policy := draft.policy.getD .stop }

end Draft

end StreamDispatch
