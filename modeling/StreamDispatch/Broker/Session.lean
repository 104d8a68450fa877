import StreamDispatch.Broker
import StreamDispatch.Config.Consumer

/-!
# Sessions

A session is one reader at the broker. By subscribing it becomes a member of its group, and
with each fetch it first looks whether the group has been rebalanced since, takes over the
partitions that are now its own, and then reads on in each of them from where it is.

A session keeps its *position* in each of its partitions, which is where it reads on, and
the *stored* offsets of what was reported done. A session that commits by itself commits the
stored offsets, never the positions: with the next fetch and when it leaves.

A fetch goes round the partitions, each time beginning with another one, and takes what
fits into the batch, so that no partition is starved by the others.

## Main definitions

* `Session`, `Session.create`, `Session.subscribe`, `Session.fetch`, `Session.commit`,
  `Session.store`, `Session.leave`.
* `Session.collect`: the records of a fetch.
-/

namespace StreamDispatch

/-- One reader at the broker. -/
structure Session where
  /-- The number under which it is a member. -/
  member : Nat
  group : String
  client : String
  /-- Whether it commits by itself. -/
  autoCommit : Bool
  /-- Whether it begins at the end of partitions without progress. -/
  startsAtEnd : Bool
  /-- Whether it is a member of its group. -/
  subscribed : Bool
  /-- The generation of the group that it last saw. -/
  generation : Nat
  /-- Its partitions. -/
  assigned : List TopicPartition
  /-- Where it reads on in each partition. -/
  positions : Dict TopicPartition Int
  /-- The offsets after what was reported done, as far as they are not committed. -/
  stored : Dict TopicPartition Int
  /-- Which partition the next fetch begins with. -/
  nextStart : Nat
  deriving DecidableEq, Inhabited

namespace Session

/-- A new session for a consumer, which gets the next free number. -/
def create (b : Broker) (config : ConsumerConfig) (client : String) :
    Except BrokerFault (Session × Broker) :=
  if b.faults.create then .error (.injected .createConsumer)
  else
    .ok
      ({ member := b.nextMember
         group := config.groupId
         client := client
         autoCommit := config.commitStrategy.isAuto
         startsAtEnd := config.startsAtEnd
         subscribed := false
         generation := 0
         assigned := []
         positions := ∅
         stored := ∅
         nextStart := 0 },
       { b with nextMember := b.nextMember + 1 })

/-- Joins the group for some topics, or changes the topics. -/
def subscribe (s : Session) (topics : List String) (b : Broker) : Session × Broker :=
  let g := b.group s.group
  let g := { g with members := g.members.insert s.member topics }
  ({ s with subscribed := true },
    (b.setGroup s.group (g.rebalance b.partitionsOf)).signal)

/-! ### Fetching -/

/-- Where a session begins in a partition that it has just got. -/
def startOffset (s : Session) (b : Broker) (g : Group) (tp : TopicPartition) : Int :=
  match g.committed.get? tp with
  | some offset => offset
  | none => if s.startsAtEnd then (b.endOffset tp).getD 0 else 0

/-- Takes over the partitions of the group's current generation. Positions and stored offsets
in partitions that are kept stay as they are. -/
def sync (s : Session) (b : Broker) : Session :=
  match b.groups.get? s.group with
  | none => s
  | some g =>
    if g.generation = s.generation then s
    else
      let assigned := g.assignment.getD s.member []
      -- A partition that is kept goes on where it is, whatever is committed there.
      let kept := s.positions.filter fun tp _ => assigned.contains tp
      { s with
        generation := g.generation
        assigned := assigned
        positions := assigned.foldl
          (fun positions tp => positions.insertIfAbsent tp (s.startOffset b g tp)) kept
        stored := s.stored.filter fun tp _ => assigned.contains tp }

/-- Commits the stored offsets. -/
def commitStored (s : Session) (b : Broker) : Session × Broker :=
  match b.groups.get? s.group with
  | none => (s, b)
  | some g => ({ s with stored := ∅ }, b.setGroup s.group (g.commit s.stored.entries))

/-- Commits the stored offsets if the session commits by itself. -/
def publish (s : Session) (b : Broker) : Session × Broker :=
  if s.autoCommit then s.commitStored b else (s, b)

/-- The records of a partition from a position on, at most `room` of them. -/
def readFrom (tp : TopicPartition) (log : List StoredRecord) (position : Int) (room : Nat) :
    List RawRecord :=
  -- An offset below zero can be committed, but there is nothing to read from it on.
  if position < 0 then []
  else
    ((log.drop position.toNat).take room).mapIdx fun i r =>
      { topic := tp.topic
        partition := tp.partition
        offset := position + i
        key := r.key
        payload := r.payload
        timestamp := some r.timestamp
        headers := r.headers }

/-- Reads on in the given partitions, in order, until `room` records are found; the
positions move along. -/
def collect (b : Broker) (room : Nat) :
    List TopicPartition → Dict TopicPartition Int →
      List RawRecord × Dict TopicPartition Int
  | [], positions => ([], positions)
  | tp :: rest, positions =>
    match positions.get? tp, b.log? tp with
    | some position, some log =>
      let records := readFrom tp log position room
      let positions :=
        if records.isEmpty then positions
        else positions.insert tp (position + records.length)
      -- Once the batch is full, the other partitions yield nothing and stay where they are.
      let (more, positions) := collect b (room - records.length) rest positions
      (records ++ more, positions)
    | _, _ => collect b room rest positions

/-- The partitions in the order of the next fetch. -/
def rotation (s : Session) : List TopicPartition :=
  let start := s.nextStart % s.assigned.length
  s.assigned.drop start ++ s.assigned.take start

/-- One fetch: looks for a rebalance, commits what is stored if the session commits by
itself, and reads on. -/
def fetch (s : Session) (maxRecords : Nat) (b : Broker) :
    Except BrokerFault (List RawRecord × Session × Broker) :=
  if !s.subscribed then .error .notSubscribed
  else if b.faults.poll then .error (.injected .poll)
  else
    -- What is stored in partitions that are lost is dropped before the rest is committed.
    let (s, b) := (s.sync b).publish b
    let (records, positions) := collect b maxRecords s.rotation s.positions
    let nextStart :=
      if s.assigned.isEmpty then s.nextStart else (s.nextStart + 1) % s.assigned.length
    .ok (records, { s with positions := positions, nextStart := nextStart }, b)

/-! ### Progress -/

/-- Commits offsets for the group. -/
def commit (s : Session) (offsets : List CommitOffset) (mode : CommitMode) (b : Broker) :
    Except BrokerFault Broker :=
  if b.faults.commit then .error (.injected .commit)
  else
    match b.groups.get? s.group with
    | some g =>
      -- A member may commit in any partition, whether or not it is one of its own.
      if g.members.contains s.member then
        let g := g.commit (offsets.map fun o => (o.partition, o.offset))
        let entries := offsets.map fun o => ⟨s.group, s.client, o, mode⟩
        .ok { b.setGroup s.group g with commitLog := b.commitLog ++ entries }
      else .error (.notMember s.client)
    | none => .error (.notMember s.client)

/-- Stores offsets for the next commit, in order; the first one that is not in a partition
of the session is refused, and those before it stay stored. -/
def store (s : Session) : List CommitOffset → Except BrokerFault Unit × Session
  | [] => (.ok (), s)
  | o :: rest =>
    if s.assigned.contains o.partition then
      store { s with stored := s.stored.insert o.partition o.offset } rest
    else (.error (.notAssigned o.partition s.client), s)

/-! ### Leaving -/

/-- Leaves the group; a session that commits by itself first commits what is stored. -/
def leave (s : Session) (b : Broker) : Session × Broker :=
  if !s.subscribed then (s, b)
  else
    -- First the commit, then the rebalance: whoever takes over begins behind the commit.
    let (s, b) := s.publish b
    let b :=
      match b.groups.get? s.group with
      | some g =>
        b.setGroup s.group
          (Group.rebalance b.partitionsOf { g with members := g.members.erase s.member })
      | none => b
    ({ s with subscribed := false, assigned := [], positions := ∅, stored := ∅ }, b.signal)

end Session

end StreamDispatch
