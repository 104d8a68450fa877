import Mathlib.Data.Int.CardIntervalMod
import Mathlib.Data.List.Nodup
import StreamDispatch.Proofs.Broker.Groups

/-!
# Who gets which partition

The partitions of a topic are dealt out in turn to its subscribers. That each partition has
exactly one owner is plain for one topic, and an assignment deals topic after topic, so the
point of this file is to look at one topic at a time: what is dealt out of a topic can be
found again among all shares by the name of the topic
(`StreamDispatch.Group.filter_shares`), whoever else subscribes to whatever else.

How many partitions of a topic an owner gets is how many numbers below the count leave its
place as remainder, and two remainders occur equally often, up to one.

## Main definitions

* `StreamDispatch.Group.Subscribes`: a member subscribes to a topic.
* `StreamDispatch.Group.share`: the partitions of a member.

## Main statements

* `StreamDispatch.Group.mem_shares`: who a partition is dealt to.
* `StreamDispatch.Group.shares_nodup`: nothing is dealt twice.
* `StreamDispatch.Group.owner_unique`, `StreamDispatch.Group.share_balanced`: one owner for
  each partition, and as many partitions of a topic for one subscriber as for another, up to
  one.
* `StreamDispatch.Broker.Current.of_mem_share`,
  `StreamDispatch.Broker.Current.existsUnique_owner`: in a current assignment, the partitions
  that somebody waits for are assigned, and no others.
-/

namespace StreamDispatch

namespace Group

/-- A member subscribes to a topic. -/
def Subscribes (g : Group) (m : Nat) (topic : String) : Prop :=
  ∃ topics, g.members.get? m = some topics ∧ topic ∈ topics

/-- The partitions of a member. -/
def share (g : Group) (m : Nat) : List TopicPartition := g.assignment.getD m []

variable {partitionsOf : String → Option Nat} {members : Dict Nat (List String)}
  {m : Nat} {topic : String} {tp : TopicPartition}

/-! ### The subscribers of a topic -/

theorem mem_subscribers :
    m ∈ subscribers members topic ↔ ∃ topics, members.get? m = some topics ∧ topic ∈ topics := by
  rw [subscribers, Dict.keys, List.mem_map]
  constructor
  · rintro ⟨⟨_, topics⟩, hmem, rfl⟩
    obtain ⟨hentry, htopic⟩ := List.mem_filter.mp hmem
    exact ⟨topics, members.mem_entries_iff.mp hentry, List.contains_iff_mem.mp htopic⟩
  · rintro ⟨topics, hm, htopic⟩
    exact ⟨(m, topics), List.mem_filter.mpr ⟨members.mem_entries_iff.mpr hm,
      List.contains_iff_mem.mpr htopic⟩, rfl⟩

theorem nodup_subscribers (members : Dict Nat (List String)) (topic : String) :
    (subscribers members topic).Nodup := Dict.nodup_keys _

/-- A topic with a subscriber is among the topics that are dealt out. -/
theorem mem_subscribedTopics_of_mem_subscribers (h : m ∈ subscribers members topic) :
    topic ∈ subscribedTopics members := by
  obtain ⟨topics, hm, htopic⟩ := mem_subscribers.mp h
  refine mem_subscribedTopics.mpr ⟨topics, ?_, htopic⟩
  exact List.mem_map.mpr ⟨(m, topics), members.mem_entries_iff.mpr hm, rfl⟩

/-! ### Dealing out one topic -/

theorem mem_deal {count : Nat} {owners : List Nat} :
    (m, tp) ∈ deal topic count owners ↔
      ∃ p < count, owners[p % owners.length]? = some m ∧ tp = ⟨topic, p⟩ := by
  rw [deal, List.mem_filterMap]
  constructor
  · rintro ⟨p, hp, hdealt⟩
    obtain ⟨owner, howner, heq⟩ := Option.map_eq_some_iff.mp hdealt
    cases heq
    exact ⟨p, List.mem_range.mp hp, howner, rfl⟩
  · rintro ⟨p, hp, howner, rfl⟩
    exact ⟨p, List.mem_range.mpr hp, by rw [howner]; rfl⟩

theorem deal_nodup (topic : String) (count : Nat) (owners : List Nat) :
    (deal topic count owners).Nodup := by
  refine List.nodup_range.filterMap fun p q s hp hq => ?_
  obtain ⟨_, _, rfl⟩ := Option.map_eq_some_iff.mp hp
  obtain ⟨_, _, heq⟩ := Option.map_eq_some_iff.mp hq
  simpa using (congrArg (fun s : Nat × TopicPartition => s.2.partition) heq).symm

/-- The owner at place `i` gets the partitions whose number leaves `i` as remainder. -/
theorem countP_deal (topic : String) (count : Nat) {owners : List Nat} (hnodup : owners.Nodup)
    {i : Nat} (hi : i < owners.length) :
    (deal topic count owners).countP (fun s => s.1 = owners[i]) =
      count / owners.length + if i < count % owners.length then 1 else 0 := by
  have hplace : ∀ p : Nat, owners[p % owners.length]? = some owners[i] ↔
      p ≡ i [MOD owners.length] := by
    intro p
    have hp : p % owners.length < owners.length := Nat.mod_lt _ (Nat.zero_lt_of_lt hi)
    rw [List.getElem?_eq_getElem hp, Option.some.injEq, hnodup.getElem_inj_iff, Nat.ModEq,
      Nat.mod_eq_of_lt hi]
  have hcount := Nat.count_modEq_card count (Nat.zero_lt_of_lt hi) i
  rw [Nat.mod_eq_of_lt hi] at hcount
  rw [← hcount, Nat.count, deal, List.countP_filterMap]
  refine List.countP_congr fun p _ => ?_
  simp only [Option.map_map, decide_eq_true_eq, ← hplace p]
  cases owners[p % owners.length]? <;> simp

/-! ### Dealing out all topics -/

/-- **Who a partition is dealt to**: the subscriber of its topic whose turn it is. -/
theorem mem_shares :
    (m, tp) ∈ shares partitionsOf members ↔
      ∃ count p : Nat, partitionsOf tp.topic = some count ∧ p < count ∧ tp.partition = p ∧
        (subscribers members tp.topic)[p % (subscribers members tp.topic).length]? = some m := by
  rw [shares, List.mem_flatMap]
  constructor
  · rintro ⟨topic, -, hdealt⟩
    cases hcount : partitionsOf topic with
    | none =>
      rw [hcount] at hdealt
      exact absurd hdealt List.not_mem_nil
    | some count =>
      rw [hcount] at hdealt
      obtain ⟨p, hp, howner, rfl⟩ := mem_deal.mp hdealt
      exact ⟨count, p, hcount, hp, rfl, howner⟩
  · obtain ⟨topic, number⟩ := tp
    rintro ⟨count, p, hcount, hp, rfl, howner⟩
    refine ⟨topic, mem_subscribedTopics_of_mem_subscribers (List.mem_of_getElem? howner), ?_⟩
    rw [hcount]
    exact mem_deal.mpr ⟨p, hp, howner, rfl⟩

/-- **Nothing is dealt twice.** -/
theorem shares_nodup (partitionsOf : String → Option Nat) (members : Dict Nat (List String)) :
    (shares partitionsOf members).Nodup := by
  refine List.nodup_flatMap.mpr ⟨fun topic _ => ?_, ?_⟩
  · split
    · exact deal_nodup _ _ _
    · exact .nil
  · -- Partitions of two topics are never the same.
    refine (Dict.nodup_keys _).imp fun {topic other} hne s hs hs' => hne ?_
    beta_reduce at hs hs'
    split at hs
    · split at hs'
      · obtain ⟨p, -, -, hp⟩ := mem_deal.mp hs
        obtain ⟨q, -, -, hq⟩ := mem_deal.mp hs'
        exact congrArg TopicPartition.topic (hp.symm.trans hq)
      · exact absurd hs' List.not_mem_nil
    · exact absurd hs List.not_mem_nil

/-- What is dealt out of a topic is found again among all shares by its name. -/
theorem filter_shares {count : Nat} (hcount : partitionsOf topic = some count) :
    ((shares partitionsOf members).filter fun s => s.2.topic = topic).Perm
      (deal topic count (subscribers members topic)) := by
  refine (List.perm_ext_iff_of_nodup ((shares_nodup _ _).filter _) (deal_nodup _ _ _)).mpr ?_
  rintro ⟨m, tp⟩
  rw [List.mem_filter, mem_shares, mem_deal, decide_eq_true_eq]
  constructor
  · rintro ⟨⟨n, p, hn, hp, hpartition, howner⟩, rfl⟩
    obtain rfl : n = count := Option.some.inj (hn.symm.trans hcount)
    exact ⟨p, hp, howner, by rw [← hpartition]⟩
  · rintro ⟨p, hp, howner, rfl⟩
    exact ⟨⟨count, p, hcount, hp, rfl, howner⟩, rfl⟩

/-- The owner at place `i` among the subscribers of a topic gets the partitions of the topic
whose number leaves `i` as remainder. -/
theorem countP_shares {count : Nat} (hcount : partitionsOf topic = some count) {i : Nat}
    (hi : i < (subscribers members topic).length) :
    (shares partitionsOf members).countP
        (fun s => s.1 = (subscribers members topic)[i] ∧ s.2.topic = topic) =
      count / (subscribers members topic).length +
        if i < count % (subscribers members topic).length then 1 else 0 := by
  rw [← countP_deal topic count (nodup_subscribers members topic) hi,
    ← (filter_shares hcount).countP_eq, List.countP_filter]
  refine List.countP_congr fun s _ => ?_
  simp

/-! ### The partitions of a member -/

section Share

variable {g : Group} (h : g.assignment = assignmentOf partitionsOf g.members)

include h

theorem share_eq (m : Nat) :
    g.share m = ((shares partitionsOf g.members).filter fun s => s.1 = m).map (·.2) := by
  rw [share, h, assignmentOf, getD_foldl_addShare]
  rfl

theorem mem_share : tp ∈ g.share m ↔ (m, tp) ∈ shares partitionsOf g.members := by
  rw [share, h, mem_assignmentOf]

/-- A member holds each of its partitions once. -/
theorem share_nodup (m : Nat) : (g.share m).Nodup := by
  rw [share_eq h]
  refine ((shares_nodup _ _).filter _).map_on fun s hs s' hs' htp => ?_
  have howner : s.1 = m := of_decide_eq_true (List.mem_filter.mp hs).2
  have howner' : s'.1 = m := of_decide_eq_true (List.mem_filter.mp hs').2
  exact Prod.ext (howner.trans howner'.symm) htp

/-- **Each partition has one owner at most.** -/
theorem owner_unique {m' : Nat} (hm : tp ∈ g.share m) (hm' : tp ∈ g.share m') : m = m' := by
  rw [mem_share h, mem_shares] at hm hm'
  obtain ⟨count, p, hcount, -, hp, howner⟩ := hm
  obtain ⟨count', p', hcount', -, hp', howner'⟩ := hm'
  obtain rfl : p = p' := by omega
  exact Option.some.inj (howner.symm.trans howner')

/-- **How many partitions of a topic a subscriber gets**: by its place among the subscribers,
the whole part of the quotient, or one more. -/
theorem countP_share {count : Nat} (hcount : partitionsOf topic = some count)
    (hm : g.Subscribes m topic) :
    ∃ i : Nat, (g.share m).countP (fun tp => tp.topic = topic) =
      count / (subscribers g.members topic).length +
        if i < count % (subscribers g.members topic).length then 1 else 0 := by
  obtain ⟨i, hi, rfl⟩ := List.mem_iff_getElem.mp (mem_subscribers.mpr hm)
  refine ⟨i, ?_⟩
  rw [← countP_shares hcount hi, share_eq h, List.countP_map, List.countP_filter]
  refine List.countP_congr fun s _ => ?_
  simp [and_comm]

/-- **No subscriber gets more than one partition of a topic more than another.** -/
theorem share_balanced {m' : Nat} (hm : g.Subscribes m topic) (hm' : g.Subscribes m' topic) :
    (g.share m).countP (fun tp => tp.topic = topic) ≤
      (g.share m').countP (fun tp => tp.topic = topic) + 1 := by
  cases hcount : partitionsOf topic with
  | none =>
    -- Nobody gets anything out of a topic that does not exist.
    have hnone : (g.share m).countP (fun tp => tp.topic = topic) = 0 := by
      refine List.countP_eq_zero.mpr fun tp htp htopic => ?_
      obtain ⟨count, p, hsome, -⟩ := mem_shares.mp ((mem_share h).mp htp)
      rw [of_decide_eq_true htopic, hcount] at hsome
      cases hsome
    rw [hnone]
    exact Nat.zero_le _
  | some count =>
    obtain ⟨i, hi⟩ := countP_share h hcount hm
    obtain ⟨j, hj⟩ := countP_share h hcount hm'
    rw [hi, hj]
    split <;> split <;> omega

end Share

end Group

namespace Broker

variable {b : Broker}

/-! ### Current assignments -/

/-- A partition exists if its topic does and has as many partitions. -/
theorem isSome_log? {tp : TopicPartition} :
    (b.log? tp).isSome = true ↔
      ∃ count p : Nat, b.partitionsOf tp.topic = some count ∧ p < count ∧ tp.partition = p := by
  rw [log?, partitionsOf]
  constructor
  · intro h
    split at h
    next hnonneg =>
      cases ht : b.topics.get? tp.topic with
      | none =>
        rw [ht] at h
        cases h
      | some t =>
        rw [ht, Option.bind_some, isSome_getElem?] at h
        exact ⟨_, tp.partition.toNat, rfl, h, by omega⟩
    next => cases h
  · rintro ⟨count, p, hcount, hp, hpartition⟩
    obtain ⟨t, ht, rfl⟩ := Option.map_eq_some_iff.mp hcount
    rw [if_pos (by omega), ht, Option.bind_some, hpartition, isSome_getElem?]
    exact hp

namespace Current

variable (h : b.Current) {name : String} {m : Nat} {tp : TopicPartition}

include h

/-- **Only existing partitions are assigned, and only to subscribers.** -/
theorem of_mem_share (hm : tp ∈ (b.group name).share m) :
    (b.log? tp).isSome = true ∧ (b.group name).Subscribes m tp.topic := by
  obtain ⟨count, p, hcount, hp, hpartition, howner⟩ :=
    Group.mem_shares.mp ((Group.mem_share (h name)).mp hm)
  exact ⟨isSome_log?.mpr ⟨count, p, hcount, hp, hpartition⟩,
    Group.mem_subscribers.mp (List.mem_of_getElem? howner)⟩

/-- **Each partition that somebody waits for has exactly one owner.** -/
theorem existsUnique_owner (hexists : (b.log? tp).isSome = true)
    (hm : (b.group name).Subscribes m tp.topic) : ∃! owner, tp ∈ (b.group name).share owner := by
  obtain ⟨count, p, hcount, hp, hpartition⟩ := isSome_log?.mp hexists
  have hsome : 0 < (Group.subscribers (b.group name).members tp.topic).length :=
    List.length_pos_of_mem (Group.mem_subscribers.mpr hm)
  -- It is dealt to the subscriber whose turn it is, and to nobody else.
  have hturn := Group.mem_shares.mpr
    ⟨count, p, hcount, hp, hpartition, List.getElem?_eq_getElem (Nat.mod_lt p hsome)⟩
  have howns := (Group.mem_share (h name)).mpr hturn
  exact ⟨_, howns, fun owner howner => Group.owner_unique (h name) howner howns⟩

end Current

end Broker

end StreamDispatch
