import StreamDispatch.Config.Rule
import StreamDispatch.Dict

/-!
# Consumer configuration

How the workers of a registration deal with the broker: the group that they join, the
names under which they do so, when they commit their progress, and properties that are
handed through.

## Main definitions

* `CommitStrategy`, `ConsumerConfig`, `ConsumerConfig.violations`.
-/

namespace StreamDispatch

/-- When progress is committed. -/
inductive CommitStrategy
  /-- With the next poll, and when the group is left. -/
  | auto
  /-- After every batch. -/
  | afterBatch
  /-- After every record. -/
  | afterRecord
  deriving DecidableEq, Repr, Inhabited

namespace CommitStrategy

/-- Whether the session itself commits. -/
def isAuto : CommitStrategy → Bool
  | .auto => true
  | _ => false

/-- The name of a strategy. -/
def name : CommitStrategy → String
  | .auto => "auto"
  | .afterBatch => "sync_after_batch"
  | .afterRecord => "sync_after_record"

/-- All strategies, by name. -/
def choices : List (String × CommitStrategy) :=
  [(name .auto, .auto), (name .afterBatch, .afterBatch), (name .afterRecord, .afterRecord)]

end CommitStrategy

/-- How workers deal with the broker. -/
structure ConsumerConfig where
  /-- The group that they join. -/
  groupId : String
  /-- What their names begin with. -/
  clientIdPrefix : String
  commitStrategy : CommitStrategy
  /-- What is handed through to the broker. -/
  properties : Dict String String
  deriving DecidableEq, Inhabited

namespace ConsumerConfig

/-- The configuration of a consumer about which nothing is said. -/
def default : ConsumerConfig := ⟨"default", "consumer", .afterBatch, ∅⟩

/-- The name of the worker with a given number. -/
def clientId (c : ConsumerConfig) (instanceId : Nat) : String :=
  s!"{c.clientIdPrefix}-{instanceId}"

/-- The rules that a consumer breaks. -/
def violations (c : ConsumerConfig) : List Violation :=
  notEmpty "client_id_prefix" c.clientIdPrefix ++ notEmpty "group_id" c.groupId

/-- A consumer breaks no rule if it has a group, and names for its workers. -/
theorem violations_eq_nil_iff {c : ConsumerConfig} :
    c.violations = [] ↔ c.clientIdPrefix ≠ "" ∧ c.groupId ≠ "" := by
  simp only [violations, List.append_eq_nil_iff, notEmpty_eq_nil_iff]

/-- Whether reading starts at the end of a partition in which nothing is committed. -/
def startsAtEnd (c : ConsumerConfig) : Bool :=
  c.properties.get? "auto.offset.reset" = some "latest"

end ConsumerConfig

end StreamDispatch
