import StreamDispatch.Config.Settings
import StreamDispatch.Text.Blank

/-!
# Consistent settings

Settings that can be read still have to make sense: no broker has a blank address, every
entry obeys the rules of its fields, metadata fields have names, and two entries for one
topic expect the same of it. The first thing that is wrong is reported: brokers come
first, then listeners, consumers and topics, each in the order of their names.

An entry for a topic is compared with the latest earlier one for the same topic. That is
enough to find every conflict, since the earlier ones agree with each other.

## Main definitions

* `Settings.check`: the first thing that is wrong with settings.
-/

namespace StreamDispatch

/-- Reports the broken rules of an entry at a path. -/
def checkViolations (path : String) : List Violation → Except Error Unit
  | [] => .ok ()
  | broken => .error (.invalidField s!"{path}.{violatedFields broken}" (.violations broken))

namespace Settings

/-- The first broker with a blank address; `index` is the place of the first in the list. -/
def checkBrokers : (index : Nat) → List String → Except Error Unit
  | _, [] => .ok ()
  | index, address :: rest =>
    if isBlank address then .error (.invalidField s!"brokers[{index}]" .blankBroker)
    else checkBrokers (index + 1) rest

/-- What is wrong with a listener. -/
def checkListener (name : String) (c : ListenerConfig) : Except Error Unit := do
  checkViolations s!"listeners.{name}" c.violations
  if c.metadataFields.any isBlank then
    .error (.invalidField s!"listeners.{name}.metadata_fields" .blankMetadataField)
  else .ok ()

/-- What is wrong with a consumer. -/
def checkConsumer (name : String) (c : ConsumerConfig) : Except Error Unit :=
  checkViolations s!"consumers.{name}" c.violations

/-- Checks every entry in turn. -/
def checkEntries {α : Type} (check : String → α → Except Error Unit) :
    List (String × α) → Except Error Unit
  | [] => .ok ()
  | (name, a) :: rest => do
    check name a
    checkEntries check rest

/-- The first topic that breaks a rule or conflicts with an earlier one; `seen` has the
latest entry so far for each topic of the broker. -/
def checkTopics : List (String × TopicExpectation) →
    (seen : Dict String (String × TopicExpectation)) → Except Error Unit
  | [], _ => .ok ()
  | (name, t) :: rest, seen => do
    checkViolations s!"topics.{name}" t.violations
    match seen.get? t.topicName with
    | some (other, earlier) =>
      if earlier ≠ t then
        .error (.invalidField s!"topics.{name}" (.conflictingTopic t.topicName other))
      else checkTopics rest (seen.insert t.topicName (name, t))
    | none => checkTopics rest (seen.insert t.topicName (name, t))

/-- The first thing that is wrong with settings. -/
def check (s : Settings) : Except Error Unit := do
  checkBrokers 0 s.brokers
  checkEntries checkListener s.listeners.entries
  checkEntries checkConsumer s.consumers.entries
  checkTopics s.topics.entries ∅

end Settings

end StreamDispatch
