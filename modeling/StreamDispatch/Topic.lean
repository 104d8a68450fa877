import StreamDispatch.Dict
import StreamDispatch.Config.Rule

/-!
# Expected and live topics

A registration may say what shape its topics are expected to have: how many partitions,
how many replicas, and which configuration entries. Comparing an expectation with the
live topic gives the list of all differences; what the expectation leaves open is not
compared, nor are live entries that are not expected.

## Main definitions

* `TopicExpectation`, `TopicDescription`, `TopicMismatch`.
* `TopicExpectation.compare`: the differences, in a fixed order.
* `TopicExpectation.satisfiedBy`: what it means that there are none.
-/

namespace StreamDispatch

/-- The shape that a topic is expected to have. -/
structure TopicExpectation where
  topicName : String
  partitionCount : Option Nat
  replicationFactor : Option Nat
  configEntries : Dict String String
  deriving DecidableEq, Inhabited

/-- An expectation that only names a topic. -/
def TopicExpectation.named (topic : String) : TopicExpectation := ⟨topic, none, none, ∅⟩

/-- A count that is given must be at least 1. -/
def countViolation (field : String) : Option Nat → List Violation
  | some n => atLeastOne field n
  | none => []

/-- The rules that an expectation breaks. -/
def TopicExpectation.violations (t : TopicExpectation) : List Violation :=
  countViolation "partition_count" t.partitionCount
    ++ countViolation "replication_factor" t.replicationFactor
    ++ notEmpty "topic_name" t.topicName

theorem countViolation_eq_nil_iff {field : String} {count : Option Nat} :
    countViolation field count = [] ↔ ∀ n, count = some n → 1 ≤ n := by
  cases count <;> simp [countViolation, atLeastOne_eq_nil_iff]

/-- An expectation breaks no rule if it has a name, and no number in it is zero. -/
theorem TopicExpectation.violations_eq_nil_iff {t : TopicExpectation} :
    t.violations = [] ↔
      (∀ n, t.partitionCount = some n → 1 ≤ n) ∧ (∀ n, t.replicationFactor = some n → 1 ≤ n) ∧
        t.topicName ≠ "" := by
  simp only [violations, List.append_eq_nil_iff, countViolation_eq_nil_iff, notEmpty_eq_nil_iff,
    and_assoc]

/-- The shape that a live topic has. -/
structure TopicDescription where
  partitionCount : Nat
  replicationFactor : Nat
  configEntries : Dict String String
  deriving DecidableEq, Inhabited

/-- A difference between an expectation and a live topic. -/
inductive TopicMismatch
  | missingTopic (topic : String)
  | partitionCount (topic : String) (expected actual : Nat)
  | replicationFactor (topic : String) (expected actual : Nat)
  | configEntry (topic key expected : String) (actual : Option String)
  deriving DecidableEq, Repr

namespace TopicMismatch

/-- The topic that a difference is about. -/
def topic : TopicMismatch → String
  | .missingTopic topic => topic
  | .partitionCount topic _ _ => topic
  | .replicationFactor topic _ _ => topic
  | .configEntry topic _ _ _ => topic

/-- The text of a difference. -/
def text : TopicMismatch → String
  | .missingTopic topic => s!"topic '{topic}' does not exist"
  | .partitionCount topic expected actual =>
    s!"topic '{topic}' partition count: expected {expected}, actual {actual}"
  | .replicationFactor topic expected actual =>
    s!"topic '{topic}' replication factor: expected {expected}, actual {actual}"
  | .configEntry topic key expected actual =>
    s!"topic '{topic}' config '{key}': expected {expected}, actual "
      ++ actual.getD "<absent>"

end TopicMismatch

namespace TopicExpectation

/-- A difference between an expected and a live number, if there is one. -/
def compareCount (mismatch : Nat → Nat → TopicMismatch) (expected : Option Nat)
    (actual : Nat) : List TopicMismatch :=
  match expected with
  | some n => if n = actual then [] else [mismatch n actual]
  | none => []

/-- The differences between expected and live entries, in key order. -/
def compareEntries (topic : String) (expected actual : Dict String String) :
    List TopicMismatch :=
  expected.entries.filterMap fun e =>
    if actual.get? e.1 = some e.2 then none
    else some (.configEntry topic e.1 e.2 (actual.get? e.1))

/-- All differences between an expectation and a live topic, which may be missing. -/
def compare (t : TopicExpectation) : Option TopicDescription → List TopicMismatch
  | none => [.missingTopic t.topicName]
  | some actual =>
    compareCount (.partitionCount t.topicName) t.partitionCount actual.partitionCount
      ++ compareCount (.replicationFactor t.topicName) t.replicationFactor
        actual.replicationFactor
      ++ compareEntries t.topicName t.configEntries actual.configEntries

/-- Whether a live topic has the expected shape. -/
def satisfiedBy (t : TopicExpectation) (actual : Option TopicDescription) : Prop :=
  ∃ d, actual = some d
    ∧ (∀ n, t.partitionCount = some n → d.partitionCount = n)
    ∧ (∀ n, t.replicationFactor = some n → d.replicationFactor = n)
    ∧ ∀ key value, t.configEntries.get? key = some value → d.configEntries.get? key = some value

end TopicExpectation

end StreamDispatch
