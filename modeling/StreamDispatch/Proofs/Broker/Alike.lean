import StreamDispatch.Proofs.Broker.Renumbered
import StreamDispatch.Proofs.Session.Operations

/-!
# What a group sees of the broker

All groups share one broker: its topics, its log of commits, and the counter that numbers the
members. A group sees of it the records of the topics, which requests fail, its own progress
and dealing, and its own part of the log of commits. Two brokers may differ in all the rest and
be *alike* to the group (`StreamDispatch.Broker.Alike`). They may also differ in the times at
which records were written, and in the numbers of the members as long as the order is the same.

Whatever happens to two brokers that are alike leaves them alike: topics are created, records
are written, requests begin to fail. What happens to only one of them leaves them alike as long
as it is in another group (`StreamDispatch.Broker.Alike.of_sameBut`).

## Main definitions

* `StreamDispatch.StoredRecord.undated`, `StreamDispatch.RawRecord.undated`: records without
  their times.
* `StreamDispatch.Broker.Alike`: two brokers show a group the same.

## Main statements

* `StreamDispatch.Broker.Alike.createTopic`, `StreamDispatch.Broker.Alike.produce`,
  `StreamDispatch.Broker.Alike.describe`: whatever is asked of both of them is answered alike.
-/

namespace StreamDispatch

/-! ### Records without their times -/

/-- A record without its time. -/
def StoredRecord.undated (r : StoredRecord) : StoredRecord := { r with timestamp := 0 }

/-- A record without its time. -/
def RawRecord.undated (r : RawRecord) : RawRecord := { r with timestamp := none }

/-- A topic with all its records without their times. -/
def TopicLog.undated (t : TopicLog) : TopicLog :=
  { t with partitions := t.partitions.map (List.map StoredRecord.undated) }

namespace Broker

theorem partitionsOf_eq_undated (b : Broker) (topic : String) :
    b.partitionsOf topic =
      ((b.topics.get? topic).map TopicLog.undated).map fun t => t.partitions.length := by
  rw [partitionsOf, Option.map_map]
  refine congrArg (Option.map · _) (funext fun t => ?_)
  exact (List.length_map _).symm

theorem log?_undated (b : Broker) (tp : TopicPartition) :
    (b.log? tp).map (List.map StoredRecord.undated) =
      if 0 ≤ tp.partition then
        ((b.topics.get? tp.topic).map TopicLog.undated).bind fun t =>
          t.partitions[tp.partition.toNat]?
      else none := by
  rw [log?]
  split
  next =>
    cases b.topics.get? tp.topic with
    | none => rfl
    | some t => exact List.getElem?_map.symm
  next => rfl

/-! ### Brokers that are alike -/

/-- **Two brokers show a group the same**, where the members of the group have the numbers `ν`
at the second one. -/
structure Alike (name : String) (ν : ℕ ↪o ℕ) (b b' : Broker) : Prop where
  topics : ∀ topic,
    (b'.topics.get? topic).map TopicLog.undated = (b.topics.get? topic).map TopicLog.undated
  faults : b'.faults = b.faults
  group : b'.groups.get? name = (b.groups.get? name).map (Group.renumber ν)
  entries : b'.entriesOf name = b.entriesOf name

namespace Alike

variable {name : String} {ν : ℕ ↪o ℕ} {b b' : Broker}

theorem refl (name : String) (b : Broker) (h : b.groups.get? name = none) : Alike name ν b b :=
  ⟨fun _ => rfl, rfl, by rw [h]; rfl, rfl⟩

theorem partitionsOf (h : b.Alike name ν b') : b'.partitionsOf = b.partitionsOf := by
  funext topic
  rw [partitionsOf_eq_undated, partitionsOf_eq_undated, h.topics]

theorem log? (h : b.Alike name ν b') (tp : TopicPartition) :
    (b'.log? tp).map (List.map StoredRecord.undated) =
      (b.log? tp).map (List.map StoredRecord.undated) := by
  rw [log?_undated, log?_undated, h.topics]

/-- A partition is there at both brokers or at neither, and has the same records apart from
their times. -/
theorem log?_cases (h : b.Alike name ν b') (tp : TopicPartition) :
    b.log? tp = none ∧ b'.log? tp = none ∨
      ∃ log log', b.log? tp = some log ∧ b'.log? tp = some log' ∧
        log'.map StoredRecord.undated = log.map StoredRecord.undated := by
  have hlog := h.log? tp
  cases hb : b.log? tp with
  | none =>
    rw [hb] at hlog
    exact .inl ⟨rfl, Option.map_eq_none_iff.mp hlog⟩
  | some log =>
    rw [hb] at hlog
    obtain ⟨log', hb', hsame⟩ := Option.map_eq_some_iff.mp hlog
    exact .inr ⟨log, log', rfl, hb', hsame⟩

theorem endOffset (h : b.Alike name ν b') (tp : TopicPartition) :
    b'.endOffset tp = b.endOffset tp := by
  rw [Broker.endOffset, Broker.endOffset]
  rcases h.log?_cases tp with ⟨hb, hb'⟩ | ⟨log, log', hb, hb', hsame⟩
  · rw [hb, hb']
  · have hlength := congrArg List.length hsame
    rw [List.length_map, List.length_map] at hlength
    rw [hb, hb', Option.map_some, Option.map_some, hlength]

theorem group_eq (h : b.Alike name ν b') : b'.group name = (b.group name).renumber ν := by
  rw [Broker.group, Broker.group, Dict.getD, Dict.getD, h.group]
  cases b.groups.get? name <;> rfl

theorem committed (h : b.Alike name ν b') :
    (b'.group name).committed = (b.group name).committed := by
  rw [h.group_eq, Group.committed_renumber]

theorem memberCount (h : b.Alike name ν b') : b'.memberCount name = b.memberCount name := by
  rw [Broker.memberCount, Broker.memberCount, h.group_eq, Group.members_renumber,
    Dict.size_renumber]

/-! ### One of them changes -/

/-- **What happens to other groups** is not seen. -/
theorem of_sameBut {other : String} {b'' : Broker} (h : b.Alike name ν b')
    (hne : name ≠ other) (hsame : SameBut other b' b'') : b.Alike name ν b'' where
  topics topic := by rw [hsame.topics, h.topics]
  faults := hsame.faults.trans h.faults
  group := (hsame.groups name hne).trans h.group
  entries := (hsame.entries name hne).trans h.entries

/-- Only the numbers of the present members matter. -/
theorem of_renumber_eq {ν' : ℕ ↪o ℕ} (h : b.Alike name ν b')
    (heq : ∀ g, b.groups.get? name = some g → g.renumber ν' = g.renumber ν) :
    b.Alike name ν' b' where
  topics := h.topics
  faults := h.faults
  group := by
    rw [h.group]
    cases hg : b.groups.get? name with
    | none => rfl
    | some g => rw [Option.map_some, Option.map_some, heq g hg]
  entries := h.entries

/-! ### Both change -/

/-- The numbers that come next are not seen. -/
theorem counted (h : b.Alike name ν b') (next next' : Nat) :
    Alike name ν { b with nextMember := next } { b' with nextMember := next' } :=
  ⟨h.topics, h.faults, h.group, h.entries⟩

theorem setGroup (h : b.Alike name ν b') (g : Group) :
    (b.setGroup name g).Alike name ν (b'.setGroup name (g.renumber ν)) where
  topics := h.topics
  faults := h.faults
  group := by
    rw [Broker.setGroup, Broker.setGroup, Dict.get?_insert_self, Dict.get?_insert_self,
      Option.map_some]
  entries := h.entries

theorem signal (h : b.Alike name ν b') : b.signal.Alike name ν b'.signal :=
  ⟨h.topics, h.faults, h.group, h.entries⟩

/-- Commits are written down at both. -/
theorem logged (h : b.Alike name ν b') (entries : List CommitEntry) :
    Alike name ν { b with commitLog := b.commitLog ++ entries }
      { b' with commitLog := b'.commitLog ++ entries } where
  topics := h.topics
  faults := h.faults
  group := h.group
  entries := by
    have hentries := h.entries
    rw [entriesOf, entriesOf] at hentries
    rw [entriesOf, entriesOf, List.filter_append, List.filter_append, hentries]

theorem insertTopic (h : b.Alike name ν b') (topic : String) {t t' : TopicLog}
    (ht : t'.undated = t.undated) :
    Alike name ν { b with topics := b.topics.insert topic t }
      { b' with topics := b'.topics.insert topic t' } where
  topics other := by
    rw [Dict.get?_insert, Dict.get?_insert]
    split
    · rw [Option.map_some, Option.map_some, ht]
    · exact h.topics other
  faults := h.faults
  group := h.group
  entries := h.entries

/-- **A new topic** makes the group deal anew at both, or at neither. -/
theorem createTopic (h : b.Alike name ν b') (topic : String) (description : TopicDescription) :
    (b.createTopic topic description).Alike name ν (b'.createTopic topic description) := by
  have hcontains : b'.topics.contains topic = b.topics.contains topic := by
    have htopic := congrArg Option.isSome (h.topics topic)
    rwa [Option.isSome_map, Option.isSome_map] at htopic
  rw [Broker.createTopic, Broker.createTopic, hcontains]
  split
  · exact h
  · have hnew := h.insertTopic topic (t := ⟨List.replicate description.partitionCount [],
      description.replicationFactor, description.configEntries⟩) rfl
    refine signal ⟨hnew.topics, hnew.faults, ?_, hnew.entries⟩
    rw [Dict.get?_map, Dict.get?_map, h.group, hnew.partitionsOf]
    cases b.groups.get? name with
    | none => rfl
    | some g =>
      simp only [Option.map_some, Group.reads_renumber]
      split
      · rw [Group.rebalance_renumber]
      · rfl

/-- **A record is written** at both, at the same place, or refused by both. -/
theorem produce (h : b.Alike name ν b') (tp : TopicPartition) {record record' : StoredRecord}
    (hrecord : record'.undated = record.undated) :
    (∃ fault, b.produce tp record = .error fault ∧ b'.produce tp record' = .error fault) ∨
      ∃ offset c c', b.produce tp record = .ok (offset, c) ∧
        b'.produce tp record' = .ok (offset, c') ∧ c.Alike name ν c' := by
  have htopic := h.topics tp.topic
  rw [Broker.produce, Broker.produce]
  cases ht : b.topics.get? tp.topic with
  | none =>
    rw [ht, Option.map_none, Option.map_eq_none_iff] at htopic
    rw [htopic]
    exact .inl ⟨_, rfl, rfl⟩
  | some t =>
    rw [ht, Option.map_some] at htopic
    obtain ⟨t', ht', hsame⟩ := Option.map_eq_some_iff.mp htopic
    rcases h.log?_cases tp with ⟨hb, hb'⟩ | ⟨log, log', hb, hb', hlog⟩
    · rw [ht', hb, hb']
      exact .inl ⟨_, rfl, rfl⟩
    · have hlength := congrArg List.length hlog
      rw [List.length_map, List.length_map] at hlength
      rw [ht', hb, hb']
      dsimp only
      rw [hlength]
      refine .inr ⟨_, _, _, rfl, rfl, (h.insertTopic tp.topic ?_).signal⟩
      -- Apart from times the same record is added to the same log.
      simp only [TopicLog.undated, TopicLog.mk.injEq] at hsame ⊢
      rw [List.map_set, List.map_set, List.map_append, List.map_append, hsame.1, hlog,
        List.map_singleton, List.map_singleton, hrecord]
      exact ⟨rfl, hsame.2⟩

theorem describe (h : b.Alike name ν b') (topic : String) :
    (b'.describe topic).1 = (b.describe topic).1 ∧
      (b.describe topic).2.Alike name ν (b'.describe topic).2 := by
  have hshape : ∀ c : Broker,
      ((c.topics.get? topic).map fun t =>
        (⟨t.partitions.length, t.replicationFactor, t.configEntries⟩ : TopicDescription)) =
      ((c.topics.get? topic).map TopicLog.undated).map fun t =>
        ⟨t.partitions.length, t.replicationFactor, t.configEntries⟩ := fun c => by
    rw [Option.map_map]
    refine congrArg (Option.map · _) (funext fun t => ?_)
    rw [Function.comp_apply, TopicLog.undated, List.length_map]
  have hfault : b'.faults.describe = b.faults.describe := by rw [h.faults]
  rw [Broker.describe, Broker.describe, hfault]
  split
  · exact ⟨rfl, h.topics, h.faults, h.group, h.entries⟩
  · exact ⟨by rw [hshape b', h.topics, ← hshape b], h.topics, h.faults, h.group, h.entries⟩

theorem setFaults (h : b.Alike name ν b') (faults : BrokerFaults) :
    Alike name ν { b with faults := faults } { b' with faults := faults } :=
  ⟨h.topics, rfl, h.group, h.entries⟩

end Alike

end Broker

end StreamDispatch
