import Mathlib.Data.List.Basic
import StreamDispatch.Broker

/-!
# Groups at the broker

What the broker's operations do to its groups. Sessions change one group at a time, by
`StreamDispatch.Broker.setGroup`; topics and records change none of the progress, but a new
topic makes the groups that wait for it deal out their partitions anew.

The invariant is that every group's assignment is the one its members and the present topics
give (`StreamDispatch.Broker.Current`). It is restored by a rebalance, and a new topic that
nobody in the group subscribes to does not disturb it.

## Main statements

* `StreamDispatch.Group.mem_assignmentOf`: who holds a partition is who it was dealt to.
* `StreamDispatch.Broker.Current.createTopic`: a new topic keeps the assignments current.
* `StreamDispatch.Group.mem_assignmentOf_mono`: as long as the members stay the same, new
  topics take no partition away from anybody.
-/

namespace StreamDispatch

namespace Group

@[simp] theorem members_rebalance (partitionsOf : String → Option Nat) (g : Group) :
    (g.rebalance partitionsOf).members = g.members := rfl

@[simp] theorem assignment_rebalance (partitionsOf : String → Option Nat) (g : Group) :
    (g.rebalance partitionsOf).assignment = assignmentOf partitionsOf g.members := rfl

@[simp] theorem generation_rebalance (partitionsOf : String → Option Nat) (g : Group) :
    (g.rebalance partitionsOf).generation = g.generation + 1 := rfl

/-- Two states of a group that differ at most in progress. -/
structure SameDeal (g g' : Group) : Prop where
  generation : g'.generation = g.generation
  members : g'.members = g.members
  assignment : g'.assignment = g.assignment

theorem SameDeal.refl (g : Group) : g.SameDeal g := ⟨rfl, rfl, rfl⟩

theorem SameDeal.trans {a b c : Group} (h : a.SameDeal b) (h' : b.SameDeal c) : a.SameDeal c :=
  ⟨h'.generation.trans h.generation, h'.members.trans h.members,
    h'.assignment.trans h.assignment⟩

theorem sameDeal_commit (g : Group) (offsets : List (TopicPartition × Int)) :
    g.SameDeal (g.commit offsets) := ⟨rfl, rfl, rfl⟩

/-! ### Who holds a partition -/

theorem getD_foldl_addShare (shares : List (Nat × TopicPartition))
    (assignment : Dict Nat (List TopicPartition)) (m : Nat) :
    (shares.foldl addShare assignment).getD m [] =
      assignment.getD m [] ++ (shares.filter fun s => s.1 = m).map (·.2) := by
  induction shares generalizing assignment with
  | nil => simp
  | cons share rest ih =>
    obtain ⟨owner, tp⟩ := share
    rw [List.foldl_cons, ih]
    by_cases h : owner = m
    · subst h
      simp [addShare, Dict.getD]
    · simp [addShare, Dict.getD, h, Dict.get?_insert_of_ne _ (Ne.symm h)]

/-- **Who holds a partition is who it was dealt to.** -/
theorem mem_assignmentOf {partitionsOf : String → Option Nat} {members : Dict Nat (List String)}
    {m : Nat} {tp : TopicPartition} :
    tp ∈ (assignmentOf partitionsOf members).getD m [] ↔
      (m, tp) ∈ shares partitionsOf members := by
  rw [assignmentOf, getD_foldl_addShare]
  have hempty : (∅ : Dict Nat (List TopicPartition)).getD m [] = [] := rfl
  rw [hempty, List.nil_append, List.mem_map]
  constructor
  · rintro ⟨⟨owner, _⟩, hmem, rfl⟩
    obtain ⟨hshare, howner⟩ := List.mem_filter.mp hmem
    obtain rfl : owner = m := of_decide_eq_true howner
    exact hshare
  · intro h
    exact ⟨(m, tp), List.mem_filter.mpr ⟨h, decide_eq_true rfl⟩, rfl⟩

/-- **New topics take nothing away**: what was dealt to a member stays its own while the
members are the same and topics are only added. -/
theorem mem_assignmentOf_mono {before after : String → Option Nat}
    (h : ∀ topic count, before topic = some count → after topic = some count)
    {members : Dict Nat (List String)} {m : Nat} {tp : TopicPartition}
    (hm : tp ∈ (assignmentOf before members).getD m []) :
    tp ∈ (assignmentOf after members).getD m [] := by
  rw [mem_assignmentOf] at hm ⊢
  obtain ⟨topic, htopic, hdealt⟩ := List.mem_flatMap.mp hm
  refine List.mem_flatMap.mpr ⟨topic, htopic, ?_⟩
  cases hcount : before topic with
  | none =>
    -- Nothing is dealt out of a topic that does not exist.
    rw [hcount] at hdealt
    exact absurd hdealt List.not_mem_nil
  | some count =>
    rw [hcount] at hdealt
    rw [h topic count hcount]
    exact hdealt

/-! ### What an assignment depends on -/

theorem get?_foldl_insert_unit (topics : List String) (d : Dict String Unit) (t : String) :
    (topics.foldl (fun d t => d.insert t ()) d).get? t =
      if t ∈ topics then some () else d.get? t := by
  induction topics generalizing d with
  | nil => simp
  | cons head rest ih =>
    rw [List.foldl_cons, ih, Dict.get?_insert]
    by_cases h : t = head <;> simp [h]

theorem mem_subscribedTopics {members : Dict Nat (List String)} {topic : String} :
    topic ∈ subscribedTopics members ↔ ∃ topics ∈ members.values, topic ∈ topics := by
  rw [subscribedTopics, Dict.mem_keys_iff, ← List.mem_flatten, get?_foldl_insert_unit]
  have hempty : (∅ : Dict String Unit).get? topic = none := rfl
  by_cases h : topic ∈ members.values.flatten <;> simp [h, hempty]

theorem reads_eq_true_iff {g : Group} {topic : String} :
    g.reads topic = true ↔ topic ∈ subscribedTopics g.members := by
  rw [mem_subscribedTopics, reads, List.any_eq_true]
  simp

/-- Only the partitions of topics that somebody subscribes to matter. -/
theorem assignmentOf_congr {before after : String → Option Nat} {members : Dict Nat (List String)}
    (h : ∀ topic ∈ subscribedTopics members, before topic = after topic) :
    assignmentOf before members = assignmentOf after members := by
  have hshares : shares before members = shares after members := by
    refine List.flatMap_congr fun topic htopic => ?_
    rw [h topic htopic]
  rw [assignmentOf, hshares, assignmentOf]

end Group

namespace Broker

/-! ### Reading and writing groups -/

theorem group_eq {b : Broker} {name : String} {g : Group} (h : b.groups.get? name = some g) :
    b.group name = g := by
  rw [group, Dict.getD, h, Option.getD_some]

/-- A group with a member exists. -/
theorem exists_of_member {b : Broker} {name : String} {m : Nat} {topics : List String}
    (h : (b.group name).members.get? m = some topics) :
    ∃ g, b.groups.get? name = some g := by
  cases hg : b.groups.get? name with
  | some g => exact ⟨g, rfl⟩
  | none =>
    rw [group, Dict.getD, hg] at h
    cases h

theorem group_setGroup (b : Broker) (name other : String) (g : Group) :
    (b.setGroup name g).group other = if other = name then g else b.group other := by
  rw [group, setGroup, Dict.getD, Dict.get?_insert]
  by_cases h : other = name
  · simp [h]
  · simp [h, group, Dict.getD]

@[simp] theorem group_setGroup_self (b : Broker) (name : String) (g : Group) :
    (b.setGroup name g).group name = g := by
  rw [group_setGroup, if_pos rfl]

@[simp] theorem group_signal (b : Broker) (name : String) : b.signal.group name = b.group name :=
  rfl

theorem committed_eq (b : Broker) (name : String) (tp : TopicPartition) :
    b.committed name tp = (b.group name).committed.get? tp := rfl

/-! ### Topics and records -/

theorem groups_produce {b b' : Broker} {tp : TopicPartition} {record : StoredRecord}
    {offset : Int} (h : b.produce tp record = .ok (offset, b')) : b'.groups = b.groups := by
  rw [produce] at h
  split at h
  · cases h
    rfl
  · cases h

theorem nextMember_produce {b b' : Broker} {tp : TopicPartition} {record : StoredRecord}
    {offset : Int} (h : b.produce tp record = .ok (offset, b')) :
    b'.nextMember = b.nextMember := by
  rw [produce] at h
  split at h
  · cases h
    rfl
  · cases h

/-- A record more does not change how many partitions a topic has. -/
theorem partitionsOf_produce {b b' : Broker} {tp : TopicPartition} {record : StoredRecord}
    {offset : Int} (h : b.produce tp record = .ok (offset, b')) :
    b'.partitionsOf = b.partitionsOf := by
  rw [produce] at h
  split at h
  next t log ht _ =>
    cases h
    funext topic
    simp only [partitionsOf, signal, Dict.get?_insert]
    by_cases htopic : topic = tp.topic
    · subst htopic
      simp [ht]
    · simp [htopic]
  next => cases h

/-- What a new topic does to a group: it is dealt out anew if somebody waits for the topic. -/
theorem group_createTopic {b : Broker} {topic : String} (description : TopicDescription)
    (h : b.topics.contains topic = false) (name : String) :
    (b.createTopic topic description).group name =
      if (b.group name).reads topic then
        (b.group name).rebalance (b.createTopic topic description).partitionsOf
      else b.group name := by
  simp only [createTopic, h, Bool.false_eq_true, if_false, group_signal]
  rw [group, Dict.getD, Dict.get?_map]
  cases hg : b.groups.get? name with
  | none =>
    -- Nobody waits for anything in a group that does not exist.
    have hempty : b.group name = .empty := by rw [group, Dict.getD, hg, Option.getD_none]
    have hreads : Group.empty.reads topic = false := rfl
    rw [hempty, hreads]
    rfl
  | some g =>
    rw [group_eq hg]
    rfl

theorem createTopic_of_contains {b : Broker} {topic : String} (description : TopicDescription)
    (h : b.topics.contains topic = true) : b.createTopic topic description = b := by
  simp only [createTopic, h, if_true]

theorem nextMember_createTopic (b : Broker) (topic : String) (description : TopicDescription) :
    (b.createTopic topic description).nextMember = b.nextMember := by
  rw [createTopic]
  split <;> rfl

theorem nextMember_describe (b : Broker) (topic : String) :
    (b.describe topic).2.nextMember = b.nextMember := by
  rw [describe]
  split <;> rfl

theorem members_createTopic (b : Broker) (topic : String) (description : TopicDescription)
    (name : String) :
    ((b.createTopic topic description).group name).members = (b.group name).members := by
  cases h : b.topics.contains topic with
  | true => rw [createTopic_of_contains description h]
  | false =>
    rw [group_createTopic description h]
    split <;> rfl

theorem committed_createTopic (b : Broker) (topic : String) (description : TopicDescription)
    (name : String) (tp : TopicPartition) :
    (b.createTopic topic description).committed name tp = b.committed name tp := by
  cases h : b.topics.contains topic with
  | true => rw [createTopic_of_contains description h]
  | false =>
    rw [committed_eq, committed_eq, group_createTopic description h]
    split <;> rfl

theorem partitionsOf_createTopic_of_ne (b : Broker) {topic other : String}
    (description : TopicDescription) (h : other ≠ topic) :
    (b.createTopic topic description).partitionsOf other = b.partitionsOf other := by
  rw [createTopic]
  split
  · rfl
  · simp [partitionsOf, signal, Dict.get?_insert_of_ne _ h]

/-- A new topic takes the place of no other. -/
theorem partitionsOf_createTopic (b : Broker) (topic : String) (description : TopicDescription)
    {other : String} {count : Nat} (h : b.partitionsOf other = some count) :
    (b.createTopic topic description).partitionsOf other = some count := by
  by_cases hother : other = topic
  · subst hother
    have hcontains : b.topics.contains other = true := by
      rw [Dict.contains]
      rw [partitionsOf, Option.map_eq_some_iff] at h
      obtain ⟨t, ht, -⟩ := h
      rw [ht, Option.isSome_some]
    rw [createTopic_of_contains description hcontains, h]
  · rw [partitionsOf_createTopic_of_ne b description hother, h]

/-! ### Current assignments -/

/-- **Every group's assignment is current**: it is the one that its members and the present
topics give. -/
def Current (b : Broker) : Prop :=
  ∀ name, (b.group name).assignment = Group.assignmentOf b.partitionsOf (b.group name).members

theorem current_empty : empty.Current := fun _ => rfl

theorem Current.createTopic {b : Broker} (h : b.Current) (topic : String)
    (description : TopicDescription) : (b.createTopic topic description).Current := by
  cases hcontains : b.topics.contains topic with
  | true => rwa [createTopic_of_contains description hcontains]
  | false =>
    intro name
    rw [group_createTopic description hcontains]
    split
    next => rfl
    next hreads =>
      -- Nobody waits for the new topic, and the other topics are as they were.
      rw [h name]
      refine Group.assignmentOf_congr fun t ht => ?_
      have hne : t ≠ topic := by
        rintro rfl
        exact hreads (Group.reads_eq_true_iff.mpr ht)
      exact (partitionsOf_createTopic_of_ne b description hne).symm

theorem Current.congr {b b' : Broker} (h : b.Current) (hgroups : b'.groups = b.groups)
    (hparts : b'.partitionsOf = b.partitionsOf) : b'.Current := by
  intro name
  have hgroup : b'.group name = b.group name := by rw [group, group, hgroups]
  rw [hgroup, hparts]
  exact h name

end Broker

end StreamDispatch
