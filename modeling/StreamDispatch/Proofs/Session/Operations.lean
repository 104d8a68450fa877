import StreamDispatch.Proofs.Broker.Groups
import StreamDispatch.Proofs.Offsets

/-!
# What the operations of a session do

One lemma for each operation and each thing that later files ask about: the group of the
session, its own positions and stored offsets, and what is left alone. No later file opens
an operation of a session again.

## The shape of the statements

* A session touches the broker only in its own group
  (`StreamDispatch.Broker.SameBut`).
* A session is *tidy* (`StreamDispatch.Session.Tidy`) when it has positions exactly in its
  partitions and stored offsets only there. Taking over a new assignment then is a formula
  for each partition: what is kept keeps its position, and what is gained begins at the
  start offset (`StreamDispatch.Session.positions_sync`).
* Publishing the stored offsets leaves each committed offset as it was or makes it the
  stored one (`StreamDispatch.Session.committed_publish`).
-/

namespace StreamDispatch

/-! ### Only one group is touched -/

/-- The explicit commits for a group. -/
def Broker.entriesOf (b : Broker) (name : String) : List CommitEntry :=
  b.commitLog.filter fun entry => entry.group = name

/-- Commits that are written down for the group come after those that are there. -/
theorem Broker.entriesOf_logged {b b' : Broker} {name client : String} {mode : CommitMode}
    {offsets : List CommitOffset}
    (h : b'.commitLog = b.commitLog ++ offsets.map fun o => ⟨name, client, o, mode⟩) :
    b'.entriesOf name = b.entriesOf name ++ offsets.map fun o => ⟨name, client, o, mode⟩ := by
  rw [entriesOf, h, List.filter_append, entriesOf]
  congr 1
  refine List.filter_eq_self.mpr fun entry hentry => ?_
  obtain ⟨o, -, rfl⟩ := List.mem_map.mp hentry
  exact decide_eq_true rfl

/-- At most the group of a name and its explicit commits differ, apart from signals. -/
structure Broker.SameBut (name : String) (b b' : Broker) : Prop where
  groups : ∀ other, other ≠ name → b'.groups.get? other = b.groups.get? other
  entries : ∀ other, other ≠ name → b'.entriesOf other = b.entriesOf other
  topics : b'.topics = b.topics
  faults : b'.faults = b.faults
  nextMember : b'.nextMember = b.nextMember

namespace Broker.SameBut

theorem refl (name : String) (b : Broker) : SameBut name b b :=
  ⟨fun _ _ => rfl, fun _ _ => rfl, rfl, rfl, rfl⟩

theorem trans {name : String} {a b c : Broker} (h : SameBut name a b) (h' : SameBut name b c) :
    SameBut name a c where
  groups other hne := (h'.groups other hne).trans (h.groups other hne)
  entries other hne := (h'.entries other hne).trans (h.entries other hne)
  topics := h'.topics.trans h.topics
  faults := h'.faults.trans h.faults
  nextMember := h'.nextMember.trans h.nextMember

theorem setGroup (b : Broker) (name : String) (g : Group) : SameBut name b (b.setGroup name g) :=
  ⟨fun _ hne => Dict.get?_insert_of_ne _ hne g, fun _ _ => rfl, rfl, rfl, rfl⟩

theorem signal (name : String) (b : Broker) : SameBut name b b.signal :=
  ⟨fun _ _ => rfl, fun _ _ => rfl, rfl, rfl, rfl⟩

/-- Commits are written down for the group. -/
theorem logged (b : Broker) {name : String} {entries : List CommitEntry}
    (h : ∀ entry ∈ entries, entry.group = name) :
    SameBut name b { b with commitLog := b.commitLog ++ entries } where
  groups _ _ := rfl
  entries other hne := by
    have hnone : entries.filter (fun entry => entry.group = other) = [] :=
      List.filter_eq_nil_iff.mpr fun entry hentry hother =>
        hne ((of_decide_eq_true hother).symm.trans (h entry hentry))
    rw [entriesOf, List.filter_append, hnone, List.append_nil, entriesOf]
  topics := rfl
  faults := rfl
  nextMember := rfl

theorem group {name : String} {b b' : Broker} (h : SameBut name b b') (other : String)
    (hne : other ≠ name) : b'.group other = b.group other := by
  rw [Broker.group, Broker.group, Dict.getD, Dict.getD, h.groups other hne]

theorem partitions {name : String} {b b' : Broker} (h : SameBut name b b') :
    b'.partitionsOf = b.partitionsOf := by
  funext topic
  rw [partitionsOf, partitionsOf, h.topics]

theorem log? {name : String} {b b' : Broker} (h : SameBut name b b') (tp : TopicPartition) :
    b'.log? tp = b.log? tp := by
  rw [Broker.log?, Broker.log?, h.topics]

theorem committed {name : String} {b b' : Broker} (h : SameBut name b b') {other : String}
    (hne : other ≠ name) (tp : TopicPartition) : b'.committed other tp = b.committed other tp := by
  rw [committed_eq, committed_eq, h.group other hne]

end Broker.SameBut

theorem Broker.Current.of_sameBut {b b' : Broker} {name : String} (h : b.Current)
    (hsame : Broker.SameBut name b b')
    (hname : (b'.group name).assignment =
      Group.assignmentOf b.partitionsOf (b'.group name).members) : b'.Current := by
  intro other
  rw [hsame.partitions]
  by_cases hother : other = name
  · rw [hother]
    exact hname
  · rw [hsame.group other hother]
    exact h other

namespace Session

/-! ### Taking over an assignment -/

/-- A session has a position exactly in its partitions, and stored offsets only there. -/
structure Tidy (s : Session) : Prop where
  positions : ∀ tp, tp ∈ s.assigned ↔ ∃ p, s.positions.get? tp = some p
  stored : ∀ tp c, s.stored.get? tp = some c → tp ∈ s.assigned

/-- Two states of one session: it is what it was created as. -/
structure Same (s s' : Session) : Prop where
  member : s'.member = s.member
  group : s'.group = s.group
  client : s'.client = s.client
  autoCommit : s'.autoCommit = s.autoCommit
  startsAtEnd : s'.startsAtEnd = s.startsAtEnd

theorem Same.refl (s : Session) : s.Same s := ⟨rfl, rfl, rfl, rfl, rfl⟩

theorem Same.trans {a b c : Session} (h : a.Same b) (h' : b.Same c) : a.Same c :=
  ⟨h'.member.trans h.member, h'.group.trans h.group, h'.client.trans h.client,
    h'.autoCommit.trans h.autoCommit, h'.startsAtEnd.trans h.startsAtEnd⟩

/-- A session either keeps all that it has, or takes over what is assigned to it. -/
theorem sync_cases (s : Session) (b : Broker) :
    s.sync b = s ∨
      ∃ g, b.groups.get? s.group = some g ∧
        (s.sync b).assigned = g.assignment.getD s.member [] ∧
        (s.sync b).positions =
          (g.assignment.getD s.member []).foldl
            (fun positions tp => positions.insertIfAbsent tp (s.startOffset b g tp))
            (s.positions.filter fun tp _ => (g.assignment.getD s.member []).contains tp) ∧
        (s.sync b).stored =
          s.stored.filter fun tp _ => (g.assignment.getD s.member []).contains tp := by
  rw [sync]
  split
  next => exact .inl rfl
  next g hg =>
    split
    next => exact .inl rfl
    next => exact .inr ⟨g, hg, rfl, rfl, rfl⟩

theorem same_sync (s : Session) (b : Broker) : s.Same (s.sync b) := by
  rw [sync]
  split
  · exact .refl s
  · split
    · exact .refl s
    · exact ⟨rfl, rfl, rfl, rfl, rfl⟩

@[simp] theorem subscribed_sync (s : Session) (b : Broker) :
    (s.sync b).subscribed = s.subscribed := by
  rw [sync]
  split
  · rfl
  · split <;> rfl

theorem assigned_sync (s : Session) (b : Broker) :
    (s.sync b).assigned = s.assigned ∨
      (s.sync b).assigned = (b.group s.group).assignment.getD s.member [] := by
  rcases sync_cases s b with h | ⟨g, hg, hassigned, -, -⟩
  · exact .inl (by rw [h])
  · rw [Broker.group_eq hg]
    exact .inr hassigned

/-- After taking over, a session has seen the group's present generation. Partitions are
taken over only if it had not seen it before. -/
theorem seen_sync {s : Session} {b : Broker} {g : Group} (hg : b.groups.get? s.group = some g) :
    (s.sync b).generation = g.generation ∧
      (s.sync b).assigned =
        if g.generation = s.generation then s.assigned else g.assignment.getD s.member [] := by
  simp only [sync, hg]
  by_cases hseen : g.generation = s.generation
  · rw [if_pos hseen, if_pos hseen]
    exact ⟨hseen.symm, rfl⟩
  · rw [if_neg hseen, if_neg hseen]
    exact ⟨rfl, rfl⟩

/-- A session that has seen the present generation has nothing to take over. -/
theorem sync_of_seen {s : Session} {b : Broker}
    (h : (b.group s.group).generation = s.generation) : s.sync b = s := by
  rw [sync]
  split
  next => rfl
  next g hg =>
    rw [Broker.group_eq hg] at h
    exact if_pos h

/-- **The positions after taking over**: kept partitions keep theirs, and gained ones begin
at the start offset. -/
theorem positions_sync {s : Session} (h : s.Tidy) (b : Broker) (tp : TopicPartition) :
    (s.sync b).positions.get? tp =
      if tp ∈ (s.sync b).assigned then
        some ((s.positions.get? tp).getD (s.startOffset b (b.group s.group) tp))
      else none := by
  rcases sync_cases s b with hs | ⟨g, hg, hassigned, hpositions, -⟩
  · rw [hs]
    by_cases htp : tp ∈ s.assigned
    · obtain ⟨p, hp⟩ := (h.positions tp).mp htp
      rw [if_pos htp, hp, Option.getD_some]
    · rw [if_neg htp]
      refine Option.eq_none_iff_forall_ne_some.mpr fun p hp => ?_
      exact htp ((h.positions tp).mpr ⟨p, hp⟩)
  · -- What is left after the loss of partitions is filled up where there is nothing yet.
    rw [hpositions, hassigned, Broker.group_eq hg, Dict.get?_foldl_insertIfAbsent,
      Dict.get?_filter_keys]
    by_cases htp : tp ∈ g.assignment.getD s.member [] <;> simp [htp]

/-- Stored offsets are kept in the partitions that are kept. -/
theorem stored_sync {s : Session} (h : s.Tidy) (b : Broker) (tp : TopicPartition) :
    (s.sync b).stored.get? tp =
      if tp ∈ (s.sync b).assigned then s.stored.get? tp else none := by
  rcases sync_cases s b with hs | ⟨g, hg, hassigned, -, hstored⟩
  · rw [hs]
    by_cases htp : tp ∈ s.assigned
    · rw [if_pos htp]
    · rw [if_neg htp]
      exact Option.eq_none_iff_forall_ne_some.mpr fun c hc => htp (h.stored tp c hc)
  · rw [hstored, hassigned, Dict.get?_filter_keys]
    by_cases htp : tp ∈ g.assignment.getD s.member [] <;> simp [htp]

theorem Tidy.sync {s : Session} (h : s.Tidy) (b : Broker) : (s.sync b).Tidy where
  positions tp := by
    rw [positions_sync h]
    by_cases htp : tp ∈ (s.sync b).assigned <;> simp [htp]
  stored tp c hc := by
    rw [stored_sync h] at hc
    by_contra htp
    rw [if_neg htp] at hc
    exact absurd hc (by simp)

/-! ### Publishing the stored offsets -/

/-- Publishing may empty what is stored, and leaves a session alone otherwise. -/
theorem publish_cases (s : Session) (b : Broker) :
    (s.publish b).1 = s ∨ (s.publish b).1 = { s with stored := ∅ } := by
  rw [publish, commitStored]
  split
  · split
    · exact .inl rfl
    · exact .inr rfl
  · exact .inl rfl

theorem same_publish (s : Session) (b : Broker) : s.Same (s.publish b).1 := by
  rcases publish_cases s b with h | h <;> rw [h] <;> exact ⟨rfl, rfl, rfl, rfl, rfl⟩

@[simp] theorem subscribed_publish (s : Session) (b : Broker) :
    (s.publish b).1.subscribed = s.subscribed := by
  rcases publish_cases s b with h | h <;> rw [h]

@[simp] theorem generation_publish (s : Session) (b : Broker) :
    (s.publish b).1.generation = s.generation := by
  rcases publish_cases s b with h | h <;> rw [h]

@[simp] theorem assigned_publish (s : Session) (b : Broker) :
    (s.publish b).1.assigned = s.assigned := by
  rcases publish_cases s b with h | h <;> rw [h]

@[simp] theorem positions_publish (s : Session) (b : Broker) :
    (s.publish b).1.positions = s.positions := by
  rcases publish_cases s b with h | h <;> rw [h]

/-- Publishing adds no stored offset. -/
theorem stored_of_publish {s : Session} {b : Broker} {tp : TopicPartition} {c : Int}
    (h : (s.publish b).1.stored.get? tp = some c) : s.stored.get? tp = some c := by
  rcases publish_cases s b with hs | hs
  · rwa [hs] at h
  · rw [hs] at h
    cases h

/-- Publishing changes a group only in its progress. -/
theorem sameDeal_publish (s : Session) (b : Broker) :
    (b.group s.group).SameDeal ((s.publish b).2.group s.group) := by
  rw [publish, commitStored]
  split
  · split
    next => exact .refl _
    next g hg =>
      rw [Broker.group_setGroup_self, Broker.group_eq hg]
      exact g.sameDeal_commit _
  · exact .refl _

theorem sameBut_publish (s : Session) (b : Broker) :
    Broker.SameBut s.group b (s.publish b).2 := by
  rw [publish, commitStored]
  split
  · split
    · exact .refl _ _
    · exact .setGroup _ _ _
  · exact .refl _ _

/-- **What publishing commits**: an offset stays as it was, or becomes the stored one. -/
theorem committed_publish (s : Session) (b : Broker) (tp : TopicPartition) :
    (s.publish b).2.committed s.group tp = b.committed s.group tp ∨
      ∃ c, s.stored.get? tp = some c ∧ (s.publish b).2.committed s.group tp = some c := by
  rw [publish, commitStored]
  split
  · split
    next => exact .inl rfl
    next g hg =>
      rw [Broker.committed_eq, Broker.committed_eq, Broker.group_setGroup_self,
        Broker.group_eq hg, Group.commit, Dict.get?_insertAll]
      cases hstored : s.stored.get? tp with
      | none => exact .inl rfl
      | some c => exact .inr ⟨c, rfl, rfl⟩
  · exact .inl rfl

/-- In a group that exists, a session that commits by itself publishes all that it has
stored. -/
theorem publish_all {s : Session} {b : Broker} (hauto : s.autoCommit = true) {g : Group}
    (hg : b.groups.get? s.group = some g) (tp : TopicPartition) :
    (s.publish b).1.stored.get? tp = none ∧
      (s.publish b).2.committed s.group tp =
        (s.stored.get? tp).or (b.committed s.group tp) := by
  rw [publish, if_pos hauto, commitStored, hg]
  refine ⟨rfl, ?_⟩
  rw [Broker.committed_eq, Broker.committed_eq, Broker.group_setGroup_self, Broker.group_eq hg,
    Group.commit, Dict.get?_insertAll]

theorem Tidy.publish {s : Session} (h : s.Tidy) (b : Broker) : (s.publish b).1.Tidy where
  positions tp := by
    rw [assigned_publish, positions_publish]
    exact h.positions tp
  stored tp c hc := by
    rw [assigned_publish]
    exact h.stored tp c (stored_of_publish hc)

/-! ### Fetching -/

/-- A session that does not begin at the end begins where the group's progress is, or at the
beginning. -/
theorem startOffset_eq {s : Session} (h : s.startsAtEnd = false) (b : Broker)
    (tp : TopicPartition) :
    s.startOffset b (b.group s.group) tp = (b.committed s.group tp).getD 0 := by
  rw [startOffset, ← Broker.committed_eq, h]
  cases b.committed s.group tp <;> rfl

/-- **What a fetch does**: it takes over the assignment, publishes, and moves the positions
over the records that it returns. -/
theorem fetch_ok {s s' : Session} {b b' : Broker} {room : Nat} {records : List RawRecord}
    (h : s.fetch room b = .ok (records, s', b')) :
    ∃ positions nextStart,
      s' = { ((s.sync b).publish b).1 with positions := positions, nextStart := nextStart } ∧
        b' = ((s.sync b).publish b).2 ∧ ReadsOn (s.sync b).positions records positions := by
  rw [fetch] at h
  split at h
  · cases h
  · split at h
    · cases h
    · simp only [Except.ok.injEq, Prod.mk.injEq] at h
      obtain ⟨rfl, rfl, rfl⟩ := h
      refine ⟨_, _, rfl, rfl, ?_⟩
      rw [← positions_publish (s.sync b) b]
      exact collect_readsOn _ _ _ _

/-- A session that has joined may fetch, unless requests fail. -/
theorem fetch_accepted {s : Session} {b : Broker} (hjoined : s.subscribed = true)
    (hfaults : b.faults.poll = false) (room : Nat) :
    ∃ records s' b', s.fetch room b = .ok (records, s', b') := by
  rw [fetch, hjoined, hfaults]
  exact ⟨_, _, _, rfl⟩

theorem same_fetch {s s' : Session} {b b' : Broker} {room : Nat} {records : List RawRecord}
    (h : s.fetch room b = .ok (records, s', b')) : s.Same s' := by
  obtain ⟨positions, nextStart, rfl, -, -⟩ := fetch_ok h
  have hsame := (same_sync s b).trans (same_publish (s.sync b) b)
  exact ⟨hsame.member, hsame.group, hsame.client, hsame.autoCommit, hsame.startsAtEnd⟩

theorem sameBut_fetch {s s' : Session} {b b' : Broker} {room : Nat} {records : List RawRecord}
    (h : s.fetch room b = .ok (records, s', b')) : Broker.SameBut s.group b b' := by
  obtain ⟨positions, nextStart, -, rfl, -⟩ := fetch_ok h
  rw [← (same_sync s b).group]
  exact sameBut_publish (s.sync b) b

/-- A fetch changes a group only in its progress. -/
theorem sameDeal_fetch {s s' : Session} {b b' : Broker} {room : Nat} {records : List RawRecord}
    (h : s.fetch room b = .ok (records, s', b')) :
    (b.group s.group).SameDeal (b'.group s.group) := by
  obtain ⟨positions, nextStart, -, rfl, -⟩ := fetch_ok h
  rw [← (same_sync s b).group]
  exact sameDeal_publish (s.sync b) b

theorem subscribed_fetch {s s' : Session} {b b' : Broker} {room : Nat} {records : List RawRecord}
    (h : s.fetch room b = .ok (records, s', b')) : s'.subscribed = s.subscribed := by
  obtain ⟨positions, nextStart, rfl, -, -⟩ := fetch_ok h
  show ((s.sync b).publish b).1.subscribed = _
  rw [subscribed_publish, subscribed_sync]

theorem Tidy.fetch {s s' : Session} {b b' : Broker} {room : Nat} {records : List RawRecord}
    (h : s.Tidy) (hfetch : s.fetch room b = .ok (records, s', b')) : s'.Tidy := by
  obtain ⟨positions, nextStart, rfl, -, hreads⟩ := fetch_ok hfetch
  have htidy := (h.sync b).publish b
  refine ⟨fun tp => ?_, htidy.stored⟩
  rw [show tp ∈ _ ↔ _ from htidy.positions tp, positions_publish]
  constructor
  · rintro ⟨p, hp⟩
    obtain ⟨n, hafter, -⟩ := hreads.run tp p hp
    exact ⟨_, hafter⟩
  · rintro ⟨p, hp⟩
    by_contra hnone
    have hbefore : (s.sync b).positions.get? tp = none :=
      Option.eq_none_iff_forall_ne_some.mpr fun q hq => hnone ⟨q, hq⟩
    rw [show positions.get? tp = none from (hreads.none tp hbefore).1] at hp
    cases hp

/-- The records of a fetch are from the partitions that the session has taken over. -/
theorem Tidy.mem_assigned_of_fetch {s s' : Session} {b b' : Broker} {room : Nat}
    {records : List RawRecord} (h : s.Tidy) (hfetch : s.fetch room b = .ok (records, s', b'))
    {r : RawRecord} (hr : r ∈ records) : r.topicPartition ∈ s'.assigned := by
  obtain ⟨positions, nextStart, rfl, -, hreads⟩ := fetch_ok hfetch
  show r.topicPartition ∈ ((s.sync b).publish b).1.assigned
  rw [assigned_publish]
  by_contra hne
  -- Without a position in the partition there would be no records of it.
  have hnone : (s.sync b).positions.get? r.topicPartition = none := by
    rw [positions_sync h, if_neg hne]
  have hoffset : r.offset ∈ offsetsIn r.topicPartition records :=
    List.mem_map.mpr ⟨r, List.mem_filter.mpr ⟨hr, decide_eq_true rfl⟩, rfl⟩
  rw [(hreads.none _ hnone).2] at hoffset
  exact absurd hoffset List.not_mem_nil

/-- After a fetch a session has seen the group's present generation. -/
theorem seen_fetch {s s' : Session} {b b' : Broker} {room : Nat} {records : List RawRecord}
    (h : s.fetch room b = .ok (records, s', b')) {g : Group}
    (hg : b.groups.get? s.group = some g) : (b'.group s.group).generation = s'.generation := by
  rw [(sameDeal_fetch h).generation, Broker.group_eq hg, ← (seen_sync hg).1]
  obtain ⟨positions, nextStart, rfl, -, -⟩ := fetch_ok h
  exact (generation_publish (s.sync b) b).symm

/-- **After a fetch nothing is stored** in a session that commits by itself, and in others
nothing that was not stored before. -/
theorem stored_fetch {s s' : Session} {b b' : Broker} {room : Nat} {records : List RawRecord}
    (h : s.Tidy) (hfetch : s.fetch room b = .ok (records, s', b')) {g : Group}
    (hg : b.groups.get? s.group = some g) {tp : TopicPartition} {c : Int}
    (hc : s'.stored.get? tp = some c) : s.autoCommit = false ∧ s.stored.get? tp = some c := by
  obtain ⟨positions, nextStart, rfl, -, -⟩ := fetch_ok hfetch
  have hbefore : (s.sync b).stored.get? tp = some c := stored_of_publish hc
  constructor
  · refine eq_false_of_ne_true fun hauto => ?_
    have hnone := (publish_all ((same_sync s b).autoCommit.trans hauto)
      (by rw [(same_sync s b).group]; exact hg) tp).1
    cases hnone.symm.trans hc
  · rw [stored_sync h] at hbefore
    split at hbefore
    · exact hbefore
    · cases hbefore

/-! ### Committing and storing -/

theorem commit_ok {s : Session} {offsets : List CommitOffset} {mode : CommitMode} {b b' : Broker}
    (h : s.commit offsets mode b = .ok b') :
    ∃ g, b.groups.get? s.group = some g ∧ g.members.contains s.member = true ∧
      b' = { b.setGroup s.group (g.commit (offsets.map fun o => (o.partition, o.offset))) with
        commitLog := b.commitLog ++ offsets.map fun o => ⟨s.group, s.client, o, mode⟩ } := by
  rw [commit] at h
  split at h
  · cases h
  · split at h
    next g hg =>
      split at h
      next hmember =>
        cases h
        exact ⟨g, hg, hmember, rfl⟩
      next => cases h
    next => cases h

/-- **A member's commits are accepted** unless requests fail, and written down in order. -/
theorem commit_accepted {s : Session} {b : Broker} (hfaults : b.faults.commit = false)
    (hmember : ((b.group s.group).members.get? s.member).isSome = true)
    (offsets : List CommitOffset) (mode : CommitMode) :
    ∃ b', s.commit offsets mode b = .ok b' ∧ b'.faults = b.faults ∧
      b'.commitLog = b.commitLog ++ offsets.map fun o => ⟨s.group, s.client, o, mode⟩ := by
  obtain ⟨topics, htopics⟩ := Option.isSome_iff_exists.mp hmember
  obtain ⟨g, hg⟩ := Broker.exists_of_member htopics
  rw [Broker.group_eq hg] at hmember
  rw [commit, hfaults, hg]
  simp only [Bool.false_eq_true, if_false, Dict.contains, hmember, if_true]
  exact ⟨_, rfl, rfl, rfl⟩

theorem sameBut_commit {s : Session} {offsets : List CommitOffset} {mode : CommitMode}
    {b b' : Broker} (h : s.commit offsets mode b = .ok b') : Broker.SameBut s.group b b' := by
  obtain ⟨g, -, -, rfl⟩ := commit_ok h
  refine (Broker.SameBut.setGroup b s.group _).trans (.logged _ fun entry hentry => ?_)
  obtain ⟨o, -, rfl⟩ := List.mem_map.mp hentry
  rfl

/-- A commit changes a group only in its progress. -/
theorem sameDeal_commit {s : Session} {offsets : List CommitOffset} {mode : CommitMode}
    {b b' : Broker} (h : s.commit offsets mode b = .ok b') :
    (b.group s.group).SameDeal (b'.group s.group) := by
  obtain ⟨g, hg, -, rfl⟩ := commit_ok h
  rw [Broker.group_eq hg]
  exact (Broker.group_setGroup_self b s.group _).symm ▸ g.sameDeal_commit _

/-- **What a commit comes to**: its offsets are written into the group's progress, one after the
other. -/
theorem committed_commit_eq {s : Session} {offsets : List CommitOffset} {mode : CommitMode}
    {b b' : Broker} (h : s.commit offsets mode b = .ok b') (q : TopicPartition) :
    b'.committed s.group q = ((b.group s.group).committed.insertAll
      (offsets.map fun o => (o.partition, o.offset))).get? q := by
  obtain ⟨g, hg, -, rfl⟩ := commit_ok h
  change ((b.setGroup s.group _).group s.group).committed.get? q = _
  rw [Broker.group_setGroup_self, Broker.group_eq hg]
  rfl

/-- The offset after one record, committed. -/
theorem committed_commit_one {s : Session} {tp : TopicPartition} {o : Int} {mode : CommitMode}
    {b b' : Broker} (h : s.commit [.after tp o] mode b = .ok b') (q : TopicPartition) :
    b'.committed s.group q = if q = tp then some (o + 1) else b.committed s.group q := by
  rw [committed_commit_eq h, Broker.committed_eq]
  exact Dict.get?_insert (b.group s.group).committed tp q (o + 1)

/-- The offsets after the last resolved records of a batch, committed. -/
theorem committed_commit_batch {s : Session} {last : Dict TopicPartition Int} {mode : CommitMode}
    {b b' : Broker}
    (h : s.commit (last.entries.map fun e => .after e.1 e.2) mode b = .ok b')
    (q : TopicPartition) :
    b'.committed s.group q = ((last.get? q).map (· + 1)).or (b.committed s.group q) := by
  rw [committed_commit_eq h, Broker.committed_eq, List.map_map,
    ← Dict.get?_map last (fun _ o => o + 1) q, ← Dict.get?_insertAll]
  rfl

theorem store_one (s : Session) (o : CommitOffset) :
    s.store [o] =
      if s.assigned.contains o.partition then
        (.ok (), { s with stored := s.stored.insert o.partition o.offset })
      else (.error (.notAssigned o.partition s.client), s) := rfl

theorem store_ok {s s' : Session} {o : CommitOffset} (h : s.store [o] = (.ok (), s')) :
    o.partition ∈ s.assigned ∧
      s' = { s with stored := s.stored.insert o.partition o.offset } := by
  rw [store_one] at h
  split at h
  next hassigned =>
    cases h
    exact ⟨List.contains_iff_mem.mp hassigned, rfl⟩
  next => cases h

theorem positions_store {s s' : Session} {o : CommitOffset} (h : s.store [o] = (.ok (), s')) :
    s'.positions = s.positions := by
  obtain ⟨-, rfl⟩ := store_ok h
  rfl

theorem stored_store {s s' : Session} {o : CommitOffset} (h : s.store [o] = (.ok (), s'))
    (tp : TopicPartition) :
    s'.stored.get? tp = if tp = o.partition then some o.offset else s.stored.get? tp := by
  obtain ⟨-, rfl⟩ := store_ok h
  exact Dict.get?_insert s.stored o.partition tp o.offset

/-- An offset is refused only outside of the session's partitions. -/
theorem store_error {s s' : Session} {o : CommitOffset} {fault : BrokerFault}
    (h : s.store [o] = (.error fault, s')) : o.partition ∉ s.assigned ∧ s' = s := by
  rw [store_one] at h
  split at h
  next => cases h
  next hassigned =>
    cases h
    exact ⟨fun hmem => hassigned (List.contains_iff_mem.mpr hmem), rfl⟩

/-- Storing a list of offsets, as far as they are not refused, changes nothing but what is
stored in the session's partitions. -/
theorem store_eq (s : Session) (offsets : List CommitOffset) :
    ∃ stored, (s.store offsets).2 = { s with stored := stored } ∧
      ∀ tp c, stored.get? tp = some c → s.stored.get? tp = some c ∨ tp ∈ s.assigned := by
  induction offsets generalizing s with
  | nil => exact ⟨s.stored, rfl, fun _ _ h => .inl h⟩
  | cons o rest ih =>
    rw [store]
    split
    next hassigned =>
      obtain ⟨stored, heq, hstored⟩ := ih { s with stored := s.stored.insert o.partition o.offset }
      refine ⟨stored, heq, fun tp c hc => ?_⟩
      rcases hstored tp c hc with hbefore | hmem
      · rw [show Dict.get? _ tp = _ from Dict.get?_insert s.stored o.partition tp o.offset]
          at hbefore
        split at hbefore
        next htp => exact .inr (htp ▸ List.contains_iff_mem.mp hassigned)
        next => exact .inl hbefore
      · exact .inr hmem
    next => exact ⟨s.stored, rfl, fun _ _ h => .inl h⟩

theorem Tidy.store {s : Session} (h : s.Tidy) (offsets : List CommitOffset) :
    (s.store offsets).2.Tidy := by
  obtain ⟨stored, heq, hstored⟩ := store_eq s offsets
  rw [heq]
  refine ⟨h.positions, fun tp c hc => ?_⟩
  rcases hstored tp c hc with hbefore | hmem
  · exact h.stored tp c hbefore
  · exact hmem

/-! ### Joining and leaving -/

/-- A new session has the next number, and is not in its group yet. -/
theorem create_ok {b b' : Broker} {config : ConsumerConfig} {client : String} {s : Session}
    (h : create b config client = .ok (s, b')) :
    s = { member := b.nextMember
          group := config.groupId
          client := client
          autoCommit := config.commitStrategy.isAuto
          startsAtEnd := config.startsAtEnd
          subscribed := false
          generation := 0
          assigned := []
          positions := ∅
          stored := ∅
          nextStart := 0 } ∧
      b' = { b with nextMember := b.nextMember + 1 } := by
  rw [create] at h
  split at h
  · cases h
  · cases h
    exact ⟨rfl, rfl⟩

theorem same_leave (s : Session) (b : Broker) : s.Same (s.leave b).1 := by
  rw [leave]
  split
  · exact .refl s
  · exact ⟨(same_publish s b).member, (same_publish s b).group, (same_publish s b).client,
      (same_publish s b).autoCommit, (same_publish s b).startsAtEnd⟩

/-- A session that has left has nothing any more; one that never joined has what it had. -/
theorem leave_cases (s : Session) (b : Broker) :
    s.subscribed = false ∧ s.leave b = (s, b) ∨
      s.subscribed = true ∧ (s.leave b).1.subscribed = false ∧ (s.leave b).1.assigned = [] ∧
        (s.leave b).1.positions = ∅ ∧ (s.leave b).1.stored = ∅ := by
  cases h : s.subscribed with
  | false => exact .inl ⟨rfl, by rw [leave, h]; rfl⟩
  | true =>
    rw [leave, h]
    exact .inr ⟨rfl, rfl, rfl, rfl, rfl⟩

theorem Tidy.leave {s : Session} (h : s.Tidy) (b : Broker) : (s.leave b).1.Tidy := by
  rcases leave_cases s b with ⟨-, heq⟩ | ⟨-, -, hassigned, hpositions, hstored⟩
  · rw [heq]
    exact h
  · refine ⟨fun tp => ?_, fun tp c hc => ?_⟩
    · rw [hassigned, hpositions]
      exact ⟨nofun, nofun⟩
    · rw [hstored] at hc
      cases hc

theorem sameBut_leave (s : Session) (b : Broker) : Broker.SameBut s.group b (s.leave b).2 := by
  rw [leave]
  split
  · exact .refl _ _
  · -- Publishing, the rebalance and the signal, one after the other.
    refine .trans ?_ (.signal _ _)
    refine (sameBut_publish s b).trans ?_
    rw [← (same_publish s b).group]
    split
    · exact .setGroup _ _ _
    · exact .refl _ _

/-- **What leaving commits** is what publishing commits. -/
theorem committed_leave (s : Session) (b : Broker) (tp : TopicPartition) :
    (s.leave b).2.committed s.group tp =
      if s.subscribed then (s.publish b).2.committed s.group tp
      else b.committed s.group tp := by
  rw [leave]
  cases h : s.subscribed with
  | false => rfl
  | true =>
    simp only [Bool.not_true, Bool.false_eq_true, if_false, if_true]
    rw [(same_publish s b).group]
    split
    next g hg =>
      rw [Broker.committed_eq, Broker.committed_eq, Broker.group_signal,
        Broker.group_setGroup_self, Broker.group_eq hg]
      rfl
    next => rfl

/-- **After leaving**, the group is without the session, and dealt out anew. -/
theorem group_leave {s : Session} {b : Broker} (h : s.subscribed = true) {g : Group}
    (hg : b.groups.get? s.group = some g) :
    (s.leave b).2.group s.group =
      Group.rebalance b.partitionsOf
        { (s.publish b).2.group s.group with members := g.members.erase s.member } := by
  -- Publishing may write the group, and leaves its members as they are.
  obtain ⟨g', hg', hmembers⟩ : ∃ g', (s.publish b).2.groups.get? s.group = some g' ∧
      g'.members = g.members := by
    rw [publish, commitStored, hg]
    split
    · exact ⟨_, Dict.get?_insert_self _ _ _, rfl⟩
    · exact ⟨g, hg, rfl⟩
  rw [leave, h]
  simp only [Bool.not_true, Bool.false_eq_true, if_false]
  rw [(same_publish s b).group, (same_publish s b).member, hg', Broker.group_eq hg']
  simp only [Broker.group_signal, Broker.group_setGroup_self, hmembers,
    (sameBut_publish s b).partitions]

/-- Leaving changes the members of the group by the session at most, and if it does, the
group is dealt out anew. -/
theorem leave_group (s : Session) (b : Broker) :
    ((s.leave b).2.group s.group).members = (b.group s.group).members ∧
        ((s.leave b).2.group s.group).assignment = (b.group s.group).assignment ∨
      ((s.leave b).2.group s.group).members = (b.group s.group).members.erase s.member ∧
        ((s.leave b).2.group s.group).assignment =
          Group.assignmentOf b.partitionsOf ((b.group s.group).members.erase s.member) := by
  cases hsub : s.subscribed with
  | false =>
    rw [leave, hsub]
    exact .inl ⟨rfl, rfl⟩
  | true =>
    cases hg : b.groups.get? s.group with
    | some g =>
      rw [group_leave hsub hg, Broker.group_eq hg]
      exact .inr ⟨rfl, rfl⟩
    | none =>
      -- A group that does not exist has no members either way.
      have hpublish : s.publish b = (s, b) := by
        rw [publish, commitStored, hg]
        exact ite_self _
      rw [leave, hsub, hpublish]
      simp only [Bool.not_true, Bool.false_eq_true, if_false, hg]
      exact .inl ⟨rfl, rfl⟩

theorem same_subscribe (s : Session) (topics : List String) (b : Broker) :
    s.Same (s.subscribe topics b).1 := ⟨rfl, rfl, rfl, rfl, rfl⟩

theorem sameBut_subscribe (s : Session) (topics : List String) (b : Broker) :
    Broker.SameBut s.group b (s.subscribe topics b).2 :=
  (Broker.SameBut.setGroup b s.group _).trans (.signal _ _)

/-- After joining, the group has the session as a member, and is dealt out anew. -/
theorem group_subscribe (s : Session) (topics : List String) (b : Broker) :
    (s.subscribe topics b).2.group s.group =
      Group.rebalance b.partitionsOf
        { b.group s.group with
          members := (b.group s.group).members.insert s.member topics } := by
  rw [subscribe, Broker.group_signal, Broker.group_setGroup_self]

theorem committed_subscribe (s : Session) (topics : List String) (b : Broker)
    (tp : TopicPartition) :
    (s.subscribe topics b).2.committed s.group tp = b.committed s.group tp := by
  rw [Broker.committed_eq, group_subscribe]
  rfl

end Session

end StreamDispatch
