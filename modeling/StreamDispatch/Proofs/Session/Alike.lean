import StreamDispatch.Proofs.Broker.Alike

/-!
# A session at two brokers

What a session does depends on the broker only as far as its group can see it. At two brokers
that are alike to the group it does the same: it gets the same partitions, reads the same
records apart from their times, is refused for the same reasons, and leaves the brokers alike.
The session may have another number at the second broker, as all members of its group may.

## Main definitions

* `StreamDispatch.Session.renumber`: a session under another number.

## Main statements

* `StreamDispatch.Session.fetch_alike`, `StreamDispatch.Session.commit_alike`,
  `StreamDispatch.Session.subscribe_alike`, `StreamDispatch.Session.leave_alike`: one for each
  operation.
-/

namespace StreamDispatch

namespace Session

/-- A session under another number. -/
def renumber (ν : ℕ ↪o ℕ) (s : Session) : Session := { s with member := ν s.member }

variable {ν : ℕ ↪o ℕ} {s : Session} {b b' : Broker}

@[simp] theorem group_renumber (ν : ℕ ↪o ℕ) (s : Session) : (s.renumber ν).group = s.group := rfl

/-! ### Reading -/

theorem readFrom_alike (tp : TopicPartition) {log log' : List StoredRecord}
    (h : log'.map StoredRecord.undated = log.map StoredRecord.undated) (position : Int)
    (room : Nat) :
    (readFrom tp log' position room).map RawRecord.undated =
      (readFrom tp log position room).map RawRecord.undated := by
  rw [readFrom, readFrom]
  split
  next => rfl
  next =>
    refine List.ext_getElem? fun i => ?_
    have hplace : (((log'.drop position.toNat).take room)[i]?).map StoredRecord.undated =
        (((log.drop position.toNat).take room)[i]?).map StoredRecord.undated := by
      rw [← List.getElem?_map, List.map_take, List.map_drop, h, ← List.map_drop, ← List.map_take,
        List.getElem?_map]
    rw [List.getElem?_map, List.getElem?_map, List.getElem?_mapIdx, List.getElem?_mapIdx]
    cases hr : ((log.drop position.toNat).take room)[i]? with
    | none =>
      rw [hr, Option.map_none, Option.map_eq_none_iff] at hplace
      rw [hplace]
    | some r =>
      rw [hr, Option.map_some] at hplace
      obtain ⟨r', hr', hsame⟩ := Option.map_eq_some_iff.mp hplace
      simp only [StoredRecord.undated, StoredRecord.mk.injEq] at hsame
      obtain ⟨hkey, hpayload, -, hheaders⟩ := hsame
      rw [hr']
      simp only [Option.map_some, RawRecord.undated, hkey, hpayload, hheaders]

/-- **What is collected** is the same apart from times, and the positions move along alike. -/
theorem collect_alike {name : String} (h : b.Alike name ν b') (room : Nat)
    (tps : List TopicPartition) (positions : Dict TopicPartition Int) :
    (collect b' room tps positions).1.map RawRecord.undated =
        (collect b room tps positions).1.map RawRecord.undated ∧
      (collect b' room tps positions).2 = (collect b room tps positions).2 := by
  induction tps generalizing room positions with
  | nil => exact ⟨rfl, rfl⟩
  | cons tp rest ih =>
    rw [collect, collect]
    cases positions.get? tp with
    | none => exact ih room positions
    | some position =>
      rcases h.log?_cases tp with ⟨hb, hb'⟩ | ⟨log, log', hb, hb', hlog⟩
      · rw [hb, hb']
        exact ih room positions
      · have hread := readFrom_alike tp hlog position room
        have hlength : (readFrom tp log' position room).length =
            (readFrom tp log position room).length := by
          have := congrArg List.length hread
          rwa [List.length_map, List.length_map] at this
        have hempty : (readFrom tp log' position room).isEmpty =
            (readFrom tp log position room).isEmpty := by
          have := congrArg List.isEmpty hread
          rwa [List.isEmpty_map, List.isEmpty_map] at this
        rw [hb, hb']
        simp only [hlength, hempty, List.map_append, hread]
        obtain ⟨hmore, hpositions⟩ := ih (room - (readFrom tp log position room).length) _
        exact ⟨congrArg _ hmore, hpositions⟩

/-! ### Taking over an assignment -/

theorem startOffset_alike {name : String} (h : b.Alike name ν b') (g : Group)
    (tp : TopicPartition) :
    (s.renumber ν).startOffset b' (g.renumber ν) tp = s.startOffset b g tp := by
  rw [startOffset, startOffset, h.endOffset]
  rfl

/-- A session takes over the same partitions. -/
theorem sync_alike (h : b.Alike s.group ν b') : (s.renumber ν).sync b' = (s.sync b).renumber ν := by
  rw [sync, sync, group_renumber, h.group]
  cases b.groups.get? s.group with
  | none => rfl
  | some g =>
    have hshare : (g.renumber ν).assignment.getD (s.renumber ν).member [] =
        g.assignment.getD s.member [] := Dict.getD_renumber ν g.assignment s.member []
    simp only [Option.map_some, Group.generation_renumber, startOffset_alike h, hshare]
    rw [apply_ite (renumber ν)]
    rfl

/-- A session publishes the same offsets. -/
theorem publish_alike (h : b.Alike s.group ν b') :
    ((s.renumber ν).publish b').1 = (s.publish b).1.renumber ν ∧
      (s.publish b).2.Alike s.group ν ((s.renumber ν).publish b').2 := by
  have hauto : (s.renumber ν).autoCommit = s.autoCommit := rfl
  rw [publish, publish, hauto]
  split
  · rw [commitStored, commitStored, group_renumber, h.group]
    cases b.groups.get? s.group with
    | none => exact ⟨rfl, h⟩
    | some g => exact ⟨rfl, h.setGroup (g.commit s.stored.entries)⟩
  · exact ⟨rfl, h⟩

/-! ### Operations -/

/-- A session is refused by both brokers, or gets numbers that correspond. -/
theorem create_alike {name : String} (h : b.Alike name ν b')
    (hnext : ν b.nextMember = b'.nextMember) (config : ConsumerConfig) (client : String) :
    (∃ fault, create b config client = .error fault ∧ create b' config client = .error fault) ∨
      ∃ s, create b config client = .ok (s, { b with nextMember := b.nextMember + 1 }) ∧
        create b' config client =
          .ok (s.renumber ν, { b' with nextMember := b'.nextMember + 1 }) := by
  have hfault : b'.faults.create = b.faults.create := by rw [h.faults]
  rw [create, create, hfault, ← hnext]
  split
  · exact .inl ⟨_, rfl, rfl⟩
  · exact .inr ⟨_, rfl, rfl⟩

theorem subscribe_alike (h : b.Alike s.group ν b') (topics : List String) :
    ((s.renumber ν).subscribe topics b').1 = (s.subscribe topics b).1.renumber ν ∧
      (s.subscribe topics b).2.Alike s.group ν ((s.renumber ν).subscribe topics b').2 := by
  refine ⟨rfl, ?_⟩
  have hjoined : Group.rebalance b'.partitionsOf
      { b'.group s.group with
        members := (b'.group s.group).members.insert (ν s.member) topics } =
      (Group.rebalance b.partitionsOf
        { b.group s.group with
          members := (b.group s.group).members.insert s.member topics }).renumber ν := by
    rw [h.partitionsOf, h.group_eq, Group.rebalance_insert_renumber]
  show ((b.setGroup s.group _).signal).Alike s.group ν
    (b'.setGroup s.group (Group.rebalance b'.partitionsOf
      { b'.group s.group with
        members := (b'.group s.group).members.insert (ν s.member) topics })).signal
  rw [hjoined]
  exact (h.setGroup _).signal

/-- **A fetch** is refused at both brokers for one reason, or returns the same records apart
from their times. -/
theorem fetch_alike (h : b.Alike s.group ν b') (room : Nat) :
    (∃ fault, s.fetch room b = .error fault ∧ (s.renumber ν).fetch room b' = .error fault) ∨
      ∃ records records' t c c', s.fetch room b = .ok (records, t, c) ∧
        (s.renumber ν).fetch room b' = .ok (records', t.renumber ν, c') ∧
        records'.map RawRecord.undated = records.map RawRecord.undated ∧
        c.Alike s.group ν c' := by
  have hsubscribed : (s.renumber ν).subscribed = s.subscribed := rfl
  have hfault : b'.faults.poll = b.faults.poll := by rw [h.faults]
  rw [fetch, fetch, hsubscribed, hfault]
  split
  · exact .inl ⟨_, rfl, rfl⟩
  · split
    · exact .inl ⟨_, rfl, rfl⟩
    · have hgroup := (same_sync s b).group
      obtain ⟨hsession, hbroker⟩ := publish_alike (s := s.sync b) (hgroup.symm ▸ h)
      rw [hgroup] at hbroker
      obtain ⟨hrecords, hpositions⟩ := collect_alike hbroker room
        ((s.sync b).publish b).1.rotation ((s.sync b).publish b).1.positions
      rw [sync_alike h]
      dsimp only
      rw [hsession]
      refine .inr ⟨_, _, _, _, _, rfl, ?_, hrecords, hbroker⟩
      rw [← hpositions]
      rfl

theorem commit_alike (h : b.Alike s.group ν b') (offsets : List CommitOffset) (mode : CommitMode) :
    (∃ fault, s.commit offsets mode b = .error fault ∧
        (s.renumber ν).commit offsets mode b' = .error fault) ∨
      ∃ c c', s.commit offsets mode b = .ok c ∧ (s.renumber ν).commit offsets mode b' = .ok c' ∧
        c.Alike s.group ν c' := by
  have hfault : b'.faults.commit = b.faults.commit := by rw [h.faults]
  rw [commit, commit, hfault]
  split
  · exact .inl ⟨_, rfl, rfl⟩
  · rw [group_renumber, h.group]
    cases b.groups.get? s.group with
    | none => exact .inl ⟨_, rfl, rfl⟩
    | some g =>
      have hmember : (g.renumber ν).members.contains (s.renumber ν).member =
          g.members.contains s.member := Dict.contains_renumber ν g.members s.member
      simp only [Option.map_some, hmember]
      split
      · exact .inr ⟨_, _, rfl, rfl, (h.setGroup _).logged _⟩
      · exact .inl ⟨_, rfl, rfl⟩

/-- Storing has nothing to do with the broker. -/
theorem store_alike (ν : ℕ ↪o ℕ) (s : Session) (offsets : List CommitOffset) :
    (s.renumber ν).store offsets = ((s.store offsets).1, (s.store offsets).2.renumber ν) := by
  induction offsets generalizing s with
  | nil => rfl
  | cons o rest ih =>
    have hassigned : (s.renumber ν).assigned = s.assigned := rfl
    rw [store, store, hassigned]
    split
    · exact ih { s with stored := s.stored.insert o.partition o.offset }
    · rfl

theorem leave_alike (h : b.Alike s.group ν b') :
    ((s.renumber ν).leave b').1 = (s.leave b).1.renumber ν ∧
      (s.leave b).2.Alike s.group ν ((s.renumber ν).leave b').2 := by
  have hsubscribed : (s.renumber ν).subscribed = s.subscribed := rfl
  rw [leave, leave, hsubscribed]
  split
  · exact ⟨rfl, h⟩
  · obtain ⟨hsession, hbroker⟩ := publish_alike h
    have hsame := same_publish s b
    dsimp only
    rw [hsession]
    refine ⟨rfl, ?_⟩
    rw [group_renumber, hsame.group, hbroker.group]
    cases hg : (s.publish b).2.groups.get? s.group with
    | none => exact hbroker.signal
    | some g =>
      simp only [Option.map_some, hbroker.partitionsOf]
      have hleft := Group.rebalance_erase_renumber ν (s.publish b).2.partitionsOf g
        (s.publish b).1.member
      exact hleft ▸ (hbroker.setGroup _).signal

end Session

end StreamDispatch
