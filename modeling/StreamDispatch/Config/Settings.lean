import StreamDispatch.Config.Consumer
import StreamDispatch.Config.Listener
import StreamDispatch.Error
import StreamDispatch.Topic

/-!
# Settings

The settings hold what registrations refer to by name: listeners, consumers and topics.
They also say where the brokers are and which properties all consumers share. A consumer's
own properties win over the shared ones, and those over the list of brokers.

## Main definitions

* `Settings`, `Settings.topic`, `Settings.listener`, `Settings.consumer`.
* `Settings.applyConnection`: a consumer with the shared properties.
* `ConfigRef`, `ConfigRef.resolve`: a configuration given directly or by name.
-/

namespace StreamDispatch

/-- What registrations refer to by name. -/
structure Settings where
  brokers : List String
  /-- Properties that all consumers share. -/
  properties : Dict String String
  listeners : Dict String ListenerConfig
  consumers : Dict String ConsumerConfig
  topics : Dict String TopicExpectation
  deriving DecidableEq, Inhabited

namespace Settings

/-- Settings that hold nothing. -/
def empty : Settings := ⟨[], ∅, ∅, ∅, ∅⟩

/-- An entry of a dictionary, or the error that there is none. -/
def find {α : Type} (kind : ConfigKind) (entries : Dict String α) (name : String) :
    Except Error α :=
  match entries.get? name with
  | some a => .ok a
  | none => .error (.misconfigured (.unknownConfig kind name))

/-- The topic of a name. -/
def topic (s : Settings) (name : String) : Except Error TopicExpectation :=
  find .topic s.topics name

/-- The listener of a name. -/
def listener (s : Settings) (name : String) : Except Error ListenerConfig :=
  find .listener s.listeners name

/-- The property under which consumers find the brokers. -/
def brokersProperty : String := "bootstrap.servers"

/-- The properties of a consumer, completed by the shared ones and the list of brokers. -/
def completeProperties (s : Settings) (own : Dict String String) : Dict String String :=
  let shared := s.properties.entries.foldl (fun d e => d.insertIfAbsent e.1 e.2) own
  if s.brokers.isEmpty then shared
  else shared.insertIfAbsent brokersProperty (",".intercalate s.brokers)

/-- A consumer with the shared properties and the brokers. -/
def applyConnection (s : Settings) (c : ConsumerConfig) : ConsumerConfig :=
  { c with properties := s.completeProperties c.properties }

/-- The consumer of a name, with the shared properties and the brokers. -/
def consumer (s : Settings) (name : String) : Except Error ConsumerConfig :=
  (find .consumer s.consumers name).map s.applyConnection

end Settings

/-- A configuration, given directly or by name. -/
inductive ConfigRef (α : Type)
  | given (config : α)
  | named (name : String)
  deriving DecidableEq, Repr

namespace ConfigRef

variable {α : Type}

/-- The configuration, looked up if it is given by name. -/
def resolve (ref : ConfigRef α) (lookup : String → Except Error α) : Except Error α :=
  match ref with
  | .given config => .ok config
  | .named name => lookup name

/-- The name, if the configuration is given by name. -/
def name? : ConfigRef α → Option String
  | .given _ => none
  | .named name => some name

/-- The configuration, if it is given directly. -/
def config? : ConfigRef α → Option α
  | .given config => some config
  | .named _ => none

end ConfigRef

end StreamDispatch
