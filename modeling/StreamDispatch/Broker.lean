import StreamDispatch.Broker.Group
import StreamDispatch.Error
import StreamDispatch.Topic

/-!
# The broker

The broker keeps the records of all partitions, the groups with their progress, and a log
of all explicit commits. It can be told to fail requests of some kinds, and it numbers the
members that sessions will become.

Sessions that wait for records are woken by *signals*: each change that may concern them
raises the count of signals. What a session does with the broker is described in
`StreamDispatch.Broker.Session`; this file has what everybody else does with it.

## Main definitions

* `Broker`, `Broker.createTopic`, `Broker.produce`, `Broker.describe`.
* `Broker.committed`, `Broker.endOffset`, `Broker.memberCount`: what can be asked.
-/

namespace StreamDispatch

/-- A record in a partition. -/
structure StoredRecord where
  key : Option Bytes
  payload : Option Bytes
  timestamp : Int
  headers : List RecordHeader
  deriving DecidableEq, Inhabited

/-- The partitions of a topic with their records. -/
structure TopicLog where
  partitions : List (List StoredRecord)
  replicationFactor : Nat
  configEntries : Dict String String
  deriving DecidableEq, Inhabited

/-- Which kinds of requests fail. -/
structure BrokerFaults where
  poll : Bool
  commit : Bool
  describe : Bool
  create : Bool
  deriving DecidableEq, Repr, Inhabited

/-- No request fails. -/
def BrokerFaults.none : BrokerFaults := ⟨false, false, false, false⟩

/-- Whether a commit is waited for. -/
inductive CommitMode
  | sync
  | async
  deriving DecidableEq, Repr

/-- An explicit commit of one offset. -/
structure CommitEntry where
  group : String
  client : String
  offset : CommitOffset
  mode : CommitMode
  deriving DecidableEq, Repr

/-- The state of the broker. -/
structure Broker where
  topics : Dict String TopicLog
  groups : Dict String Group
  /-- All explicit commits, in order. -/
  commitLog : List CommitEntry
  faults : BrokerFaults
  /-- The number of the next member. -/
  nextMember : Nat
  /-- How often a topic was described. -/
  describeCalls : Nat
  /-- How often waiting sessions were woken. -/
  signals : Nat
  deriving DecidableEq, Inhabited

namespace Broker

/-- A broker without topics. -/
def empty : Broker := ⟨∅, ∅, [], .none, 0, 0, 0⟩

/-- Wakes the sessions that wait for records. -/
def signal (b : Broker) : Broker := { b with signals := b.signals + 1 }

/-- The number of partitions of a topic, if it exists. -/
def partitionsOf (b : Broker) (topic : String) : Option Nat :=
  (b.topics.get? topic).map fun t => t.partitions.length

/-- The records of a partition, if it exists. -/
def log? (b : Broker) (tp : TopicPartition) : Option (List StoredRecord) :=
  if 0 ≤ tp.partition then
    (b.topics.get? tp.topic).bind fun t => t.partitions[tp.partition.toNat]?
  else none

/-- The group of a name; a group that nobody has joined is empty. -/
def group (b : Broker) (name : String) : Group := b.groups.getD name .empty

/-- Writes a group. -/
def setGroup (b : Broker) (name : String) (g : Group) : Broker :=
  { b with groups := b.groups.insert name g }

/-- Creates a topic, unless it exists, and rebalances the groups that wait for it. -/
def createTopic (b : Broker) (topic : String) (description : TopicDescription) : Broker :=
  if b.topics.contains topic then b
  else
    let log : TopicLog :=
      ⟨List.replicate description.partitionCount [], description.replicationFactor,
        description.configEntries⟩
    let b := { b with topics := b.topics.insert topic log }
    -- Members may have subscribed to the topic before it was there.
    signal
      { b with
        groups := b.groups.map fun _ g => if g.reads topic then g.rebalance b.partitionsOf else g }

/-- Adds a record to the end of a partition; the answer is its offset. -/
def produce (b : Broker) (tp : TopicPartition) (record : StoredRecord) :
    Except BrokerFault (Int × Broker) :=
  match b.topics.get? tp.topic, b.log? tp with
  | some t, some log =>
    let t := { t with partitions := t.partitions.set tp.partition.toNat (log ++ [record]) }
    .ok (log.length, signal { b with topics := b.topics.insert tp.topic t })
  | _, _ => .error (.unknownPartition tp)

/-- The shape of a topic, if it exists; asking for it is counted even if that fails. -/
def describe (b : Broker) (topic : String) :
    Except BrokerFault (Option TopicDescription) × Broker :=
  let asked := { b with describeCalls := b.describeCalls + 1 }
  if b.faults.describe then (.error (.injected .describeTopic), asked)
  else
    (.ok <| (b.topics.get? topic).map fun t =>
      ⟨t.partitions.length, t.replicationFactor, t.configEntries⟩, asked)

/-- The committed offset of a partition in a group. -/
def committed (b : Broker) (groupName : String) (tp : TopicPartition) : Option Int :=
  (b.group groupName).committed.get? tp

/-- The offset that the next record of a partition will have. -/
def endOffset (b : Broker) (tp : TopicPartition) : Option Int :=
  (b.log? tp).map fun log => (log.length : Int)

/-- The number of members of a group. -/
def memberCount (b : Broker) (groupName : String) : Nat := (b.group groupName).members.size

/-! ### Checking topics -/

/-- What came out of comparing expectations with the live topics. -/
structure TopicCheck where
  /-- How many topics were compared. -/
  checked : Nat
  mismatches : List TopicMismatch
  deriving DecidableEq, Repr

/-- All live topics are as expected, or the error that lists the differences. -/
def TopicCheck.result (check : TopicCheck) : Except Error Unit :=
  if check.mismatches.isEmpty then .ok () else .error (.topicMismatch check.mismatches)

/-- Compares expectations with the live topics in turn, adding to what came out so far; the
first refusal of the broker ends it. -/
def compareTopicsFrom (check : TopicCheck) :
    List TopicExpectation → Broker → Except BrokerFault TopicCheck × Broker
  | [], b => (.ok check, b)
  | t :: rest, b =>
    match b.describe t.topicName with
    | (.error fault, b) => (.error fault, b)
    | (.ok actual, b) =>
      compareTopicsFrom ⟨check.checked + 1, check.mismatches ++ t.compare actual⟩ rest b

/-- Compares expectations with the live topics. -/
def compareTopics (b : Broker) (expected : List TopicExpectation) :
    Except BrokerFault TopicCheck × Broker :=
  compareTopicsFrom ⟨0, []⟩ expected b

end Broker

end StreamDispatch
