import StreamDispatch.Dict
import StreamDispatch.Record

/-!
# Consumer groups

The members of a group share the partitions of the topics they subscribe to. Whenever
members or topics change the group is *rebalanced*: for each subscribed topic, in order of
the names, its partitions are dealt out in turn to the members subscribed to it, in order
of their numbers. Each rebalance starts a new generation, by which a member sees that its
partitions may have changed.

The group also holds its progress, the committed offset of each partition.

## Main definitions

* `Group`, `Group.rebalance`, `assignmentOf`.
-/

namespace StreamDispatch

/-- A consumer group. -/
structure Group where
  /-- How often the group was rebalanced. -/
  generation : Nat
  /-- The topics that each member subscribes to. -/
  members : Dict Nat (List String)
  /-- The partitions of each member that has any. -/
  assignment : Dict Nat (List TopicPartition)
  /-- The offset of the next record in each partition with progress. -/
  committed : Dict TopicPartition Int
  deriving DecidableEq, Inhabited

namespace Group

/-- A group that nobody has joined. -/
def empty : Group := ⟨0, ∅, ∅, ∅⟩

/-- The topics that members subscribe to, in order of their names. -/
def subscribedTopics (members : Dict Nat (List String)) : List String :=
  -- The keys of a dictionary are in order, and each is there once.
  ((members.values.flatten).foldl (fun (d : Dict String Unit) t => d.insert t ()) ∅).keys

/-- The members that subscribe to a topic, in order of their numbers. -/
def subscribers (members : Dict Nat (List String)) (topic : String) : List Nat :=
  (members.filter fun _ topics => topics.contains topic).keys

/-- Who gets each partition of a topic: partitions are dealt out in turn. -/
def deal (topic : String) (count : Nat) (owners : List Nat) : List (Nat × TopicPartition) :=
  -- Without owners there is none at any place, and nobody gets anything.
  (List.range count).filterMap fun p =>
    (owners[p % owners.length]?).map fun owner => (owner, ⟨topic, p⟩)

/-- Who gets which partition of which topic; `partitionsOf` counts the partitions of the
topics that exist. -/
def shares (partitionsOf : String → Option Nat) (members : Dict Nat (List String)) :
    List (Nat × TopicPartition) :=
  (subscribedTopics members).flatMap fun topic =>
    match partitionsOf topic with
    | some count => deal topic count (subscribers members topic)
    | none => []

/-- Adds a partition to those of a member. -/
def addShare (assignment : Dict Nat (List TopicPartition)) (share : Nat × TopicPartition) :
    Dict Nat (List TopicPartition) :=
  assignment.insert share.1 (assignment.getD share.1 [] ++ [share.2])

/-- The partitions of each member. -/
def assignmentOf (partitionsOf : String → Option Nat) (members : Dict Nat (List String)) :
    Dict Nat (List TopicPartition) :=
  (shares partitionsOf members).foldl addShare ∅

/-- Deals out all partitions anew. -/
def rebalance (partitionsOf : String → Option Nat) (g : Group) : Group :=
  { g with
    generation := g.generation + 1
    assignment := assignmentOf partitionsOf g.members }

/-- Whether a member subscribes to a topic. -/
def reads (g : Group) (topic : String) : Bool :=
  g.members.values.any fun topics => topics.contains topic

/-- Writes the offsets of partitions. -/
def commit (g : Group) (offsets : List (TopicPartition × Int)) : Group :=
  { g with committed := g.committed.insertAll offsets }

end Group

end StreamDispatch
