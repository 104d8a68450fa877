import Mathlib.Algebra.GroupWithZero.Nat
import StreamDispatch.Proofs.Session.Operations

/-!
# How much a fetch takes

A fetch goes round the partitions of a session and takes from each what is there and still fits
into the batch. So the batch is as large as it can be: it is full, or nothing is left in any
partition. And since no partition comes twice in a round, the records of a partition lie next
to each other in the batch.

What is left in a partition is counted from the session's position on
(`StreamDispatch.undelivered`). Below offset zero there are no records, and a session whose
position is there reads nothing at all, so both facts are about positions from zero on
(`StreamDispatch.Session.FromZero`).

## Main definitions

* `StreamDispatch.undelivered`, `StreamDispatch.Session.backlog`: how many records are still to
  be delivered, of a partition and of all.
* `StreamDispatch.InRuns`: the records of each partition lie next to each other.

## Main statements

* `StreamDispatch.Session.length_collect`: a batch is full, or nothing is left.
* `StreamDispatch.Session.inRuns_collect`: no partition comes back in a batch.
* `StreamDispatch.Session.fetch_accounts`: the same of a fetch, with what the positions move by.
* `StreamDispatch.Session.nothing_left_of_fetch`: who is handed nothing has read everything.
* `StreamDispatch.Session.first_of_fetch`: what the first partition in turn gets.
-/

namespace StreamDispatch

/-- How many records of a partition are still to be delivered to a reader at some positions: all
those in the log from the position on. -/
def undelivered (b : Broker) (positions : Dict TopicPartition Int) (tp : TopicPartition) : Nat :=
  match positions.get? tp, b.log? tp with
  | some position, some log => log.length - position.toNat
  | _, _ => 0

/-- All records that are still to be delivered to a session. -/
def Session.backlog (s : Session) (b : Broker) : Nat :=
  (s.assigned.map (undelivered b s.positions)).sum

/-- A session is nowhere below offset zero. -/
def Session.FromZero (s : Session) : Prop :=
  ∀ tp ∈ s.assigned, ∀ p ∈ s.positions.get? tp, 0 ≤ p

instance (s : Session) : Decidable s.FromZero :=
  inferInstanceAs (Decidable (∀ tp ∈ s.assigned, ∀ p ∈ s.positions.get? tp, 0 ≤ p))

/-- The records of each partition lie next to each other. -/
def InRuns (records : List RawRecord) : Prop :=
  ∀ tp, ∃ before run after, records = before ++ run ++ after ∧
    (∀ r ∈ run, r.topicPartition = tp) ∧ ∀ r ∈ before ++ after, r.topicPartition ≠ tp

theorem undelivered_eq {b : Broker} {positions : Dict TopicPartition Int} {tp : TopicPartition}
    {position : Int} {log : List StoredRecord} (hposition : positions.get? tp = some position)
    (hlog : b.log? tp = some log) :
    undelivered b positions tp = log.length - position.toNat := by
  rw [undelivered, hposition, hlog]

/-- Where something is left, there is a log that reaches beyond the position. -/
theorem log_of_undelivered {b : Broker} {positions : Dict TopicPartition Int}
    {tp : TopicPartition} {position : Int} (hposition : positions.get? tp = some position)
    (hnonneg : 0 ≤ position) (h : undelivered b positions tp ≠ 0) :
    ∃ log, b.log? tp = some log ∧ position < log.length := by
  rw [undelivered, hposition] at h
  split at h
  next p log hp hlog =>
    obtain rfl := Option.some.inj hp
    exact ⟨log, hlog, by omega⟩
  next => exact absurd rfl h

theorem undelivered_congr {b : Broker} {positions positions' : Dict TopicPartition Int}
    {tp : TopicPartition} (h : positions'.get? tp = positions.get? tp) :
    undelivered b positions' tp = undelivered b positions tp := by
  rw [undelivered, h, undelivered]

theorem length_offsetsIn (tp : TopicPartition) (records : List RawRecord) :
    (offsetsIn tp records).length = records.countP fun r => r.topicPartition = tp := by
  rw [offsetsIn, List.length_map, List.countP_eq_length_filter]

namespace Session

variable {b b' : Broker} {room : Nat} {tp : TopicPartition} {tps : List TopicPartition}
  {positions : Dict TopicPartition Int} {position : Int} {log : List StoredRecord}

/-! ### One partition -/

/-- What is read in one partition is all that is there and fits. -/
theorem length_readFrom (tp : TopicPartition) (log : List StoredRecord) (room : Nat)
    (h : 0 ≤ position) :
    (readFrom tp log position room).length = min room (log.length - position.toNat) := by
  rw [readFrom, if_neg (Int.not_lt.mpr h), List.length_mapIdx, List.length_take, List.length_drop]

/-! ### A round of partitions -/

/-- A round passes over its first partition, in which there is nothing, or begins with what is
read there. The other partitions are where they were then. -/
theorem collect_cons_cases (b : Broker) (room : Nat) (tp : TopicPartition)
    (rest : List TopicPartition) (positions : Dict TopicPartition Int) :
    (undelivered b positions tp = 0 ∧
      collect b room (tp :: rest) positions = collect b room rest positions) ∨
    ∃ position log positions', positions.get? tp = some position ∧ b.log? tp = some log ∧
      (∀ other, other ≠ tp → positions'.get? other = positions.get? other) ∧
      (collect b room (tp :: rest) positions).1 =
        readFrom tp log position room ++
          (collect b (room - (readFrom tp log position room).length) rest positions').1 := by
  rw [collect]
  split
  next position log hposition hlog =>
    refine .inr ⟨position, log, _, hposition, hlog, fun other hother => ?_, rfl⟩
    split
    · rfl
    · exact Dict.get?_insert_of_ne positions hother _
  next hnone =>
    refine .inl ⟨?_, rfl⟩
    rw [undelivered]
    split
    next position log hposition hlog => exact absurd hlog (hnone position log hposition)
    next => rfl

/-- What is collected is from the partitions of the round. -/
theorem mem_of_collect {r : RawRecord} (h : r ∈ (collect b room tps positions).1) :
    r.topicPartition ∈ tps := by
  induction tps generalizing room positions with
  | nil => exact absurd h List.not_mem_nil
  | cons tp rest ih =>
    obtain ⟨-, hpassed⟩ | ⟨position, log, positions', -, -, -, hread⟩ :=
      collect_cons_cases b room tp rest positions
    · rw [hpassed] at h
      exact List.mem_cons_of_mem tp (ih h)
    · rw [hread] at h
      rcases List.mem_append.mp h with hfirst | hmore
      · exact topicPartition_of_mem_readFrom hfirst ▸ List.mem_cons_self
      · exact List.mem_cons_of_mem tp (ih hmore)

/-- **A batch is full, or nothing is left** in the partitions of the round. -/
theorem length_collect (b : Broker) (room : Nat) (hnodup : tps.Nodup)
    (hnonneg : ∀ tp ∈ tps, ∀ p, positions.get? tp = some p → 0 ≤ p) :
    (collect b room tps positions).1.length =
      min room (tps.map (undelivered b positions)).sum := by
  induction tps generalizing room positions with
  | nil => exact (Nat.min_zero room).symm
  | cons tp rest ih =>
    obtain ⟨htp, hrest⟩ := List.nodup_cons.mp hnodup
    have hlater : ∀ other ∈ rest, ∀ p, positions.get? other = some p → 0 ≤ p :=
      fun other hother => hnonneg other (List.mem_cons_of_mem tp hother)
    rw [List.map_cons, List.sum_cons]
    obtain ⟨hnothing, hpassed⟩ | ⟨position, log, positions', hposition, hlog, hothers, hread⟩ :=
      collect_cons_cases b room tp rest positions
    · rw [hpassed, ih room hrest hlater, hnothing, Nat.zero_add]
    · have hstill : ∀ other ∈ rest, positions'.get? other = positions.get? other :=
        fun other hother => hothers other fun heq => htp (heq ▸ hother)
      have hsame : rest.map (undelivered b positions') = rest.map (undelivered b positions) :=
        List.map_congr_left fun other hother => undelivered_congr (hstill other hother)
      have hmore := ih (room - (readFrom tp log position room).length) hrest
        fun other hother p hp => hlater other hother p ((hstill other hother).symm.trans hp)
      have hfirst := length_readFrom tp log room
        (hnonneg tp List.mem_cons_self position hposition)
      rw [hread, List.length_append, hmore, hsame, undelivered_eq hposition hlog]
      omega

/-- **No partition comes back in a batch.** -/
theorem inRuns_collect (b : Broker) (room : Nat) (positions : Dict TopicPartition Int)
    (hnodup : tps.Nodup) :
    InRuns (collect b room tps positions).1 := by
  induction tps generalizing room positions with
  | nil => exact fun tp => ⟨[], [], [], rfl, by simp, by simp⟩
  | cons first rest ih =>
    obtain ⟨hfirst, hrest⟩ := List.nodup_cons.mp hnodup
    obtain ⟨-, hpassed⟩ | ⟨position, log, positions', -, -, -, hread⟩ :=
      collect_cons_cases b room first rest positions
    · rw [hpassed]
      exact ih room positions hrest
    · rw [hread]
      intro tp
      by_cases htp : tp = first
      · subst htp
        refine ⟨[], _, _, rfl, fun r hr => topicPartition_of_mem_readFrom hr, fun r hr heq => ?_⟩
        exact hfirst (heq ▸ mem_of_collect hr)
      · obtain ⟨before, run, after, hmore, hrun, hothers⟩ :=
          ih (room - (readFrom first log position room).length) positions' hrest tp
        refine ⟨readFrom first log position room ++ before, run, after, ?_, hrun, fun r hr => ?_⟩
        · rw [hmore, List.append_assoc, List.append_assoc, List.append_assoc]
        · rw [List.append_assoc] at hr
          rcases List.mem_append.mp hr with hread | hmore
          · exact topicPartition_of_mem_readFrom hread ▸ Ne.symm htp
          · exact hothers r hmore

/-! ### A fetch -/

/-- The round of a fetch goes through all partitions of the session. -/
theorem perm_rotation (s : Session) : s.rotation.Perm s.assigned := by
  rw [rotation]
  exact List.perm_append_comm.trans (List.take_append_drop _ _ ▸ .refl _)

variable {s s' : Session} {records : List RawRecord}

theorem nextStart_sync (s : Session) (b : Broker) : (s.sync b).nextStart = s.nextStart := by
  rw [sync]
  split
  · rfl
  · split <;> rfl

/-- What a fetch collects, in a round of the partitions that it has taken over, and how its
place in the round moves. -/
theorem fetch_collects (h : s.fetch room b = .ok (records, s', b')) :
    (∃ b₁ : Broker, b₁.log? = b.log? ∧
      collect b₁ room (s.sync b).rotation (s.sync b).positions = (records, s'.positions)) ∧
    s'.assigned = (s.sync b).assigned ∧
    s'.nextStart =
      if (s.sync b).assigned.isEmpty then s.nextStart
      else (s.nextStart + 1) % (s.sync b).assigned.length := by
  have hplace : ((s.sync b).publish b).1.nextStart = s.nextStart := by
    rcases publish_cases (s.sync b) b with heq | heq <;> rw [heq, ← nextStart_sync s b]
  have hrotation : ((s.sync b).publish b).1.rotation = (s.sync b).rotation := by
    rcases publish_cases (s.sync b) b with heq | heq
    · rw [heq]
    · rw [heq]
      rfl
  rw [fetch] at h
  split at h
  · cases h
  · split at h
    · cases h
    · simp only [Except.ok.injEq, Prod.mk.injEq] at h
      obtain ⟨rfl, rfl, rfl⟩ := h
      refine ⟨⟨((s.sync b).publish b).2, ?_, ?_⟩, ?_, ?_⟩
      · exact funext fun tp => (sameBut_publish (s.sync b) b).log? tp
      · rw [← hrotation, ← positions_publish (s.sync b) b]
      · exact assigned_publish (s.sync b) b
      · simp only [assigned_publish, hplace]

/-- **What a fetch takes**, of a session whose partitions are different ones, with positions
from zero on: as much as fits, partition by partition, and the positions move over it. -/
theorem fetch_accounts (h : s.fetch room b = .ok (records, s', b'))
    (hnodup : (s.sync b).assigned.Nodup) (hnonneg : (s.sync b).FromZero) :
    records.length = min room ((s.sync b).backlog b) ∧
      InRuns records ∧
      ∀ tp p, (s.sync b).positions.get? tp = some p →
        s'.positions.get? tp = some (p + records.countP fun r => r.topicPartition = tp) := by
  obtain ⟨⟨b₁, hlogs, hcollect⟩, -, -⟩ := fetch_collects h
  have hperm := perm_rotation (s.sync b)
  have hround := length_collect b₁ room (hperm.nodup_iff.mpr hnodup)
    fun tp htp => hnonneg tp (hperm.mem_iff.mp htp)
  have hruns := inRuns_collect b₁ room (s.sync b).positions (hperm.nodup_iff.mpr hnodup)
  have hsame : undelivered b₁ (s.sync b).positions = undelivered b (s.sync b).positions := by
    funext tp
    rw [undelivered, undelivered, hlogs]
  rw [hcollect, hsame, (hperm.map _).sum_nat] at hround
  rw [hcollect] at hruns
  refine ⟨hround, hruns, fun tp p hp => ?_⟩
  obtain ⟨positions, nextStart, rfl, -, hreads⟩ := fetch_ok h
  obtain ⟨n, hafter, hoffsets⟩ := hreads.run tp p hp
  rw [← length_offsetsIn, hoffsets, length_offsetsFrom]
  exact hafter

/-- **Who is handed nothing has read everything**, if there was room for a record. -/
theorem nothing_left_of_fetch (h : s.fetch room b = .ok ([], s', b')) (hroom : 1 ≤ room)
    (hnodup : (s.sync b).assigned.Nodup) (hnonneg : (s.sync b).FromZero)
    (htp : tp ∈ (s.sync b).assigned) : undelivered b (s.sync b).positions tp = 0 := by
  obtain ⟨hlength, -, -⟩ := fetch_accounts h hnodup hnonneg
  rw [List.length_nil] at hlength
  have hsum : (s.sync b).backlog b = 0 := by omega
  exact List.sum_eq_zero_iff_forall_eq_nat.mp hsum _ (List.mem_map_of_mem htp)

/-- **The partition in turn gets a record** if there is one, and room for it: the one at the
position. -/
theorem first_of_fetch (h : s.fetch room b = .ok (records, s', b')) (hroom : 1 ≤ room)
    (hturn : (s.sync b).assigned[s.nextStart % (s.sync b).assigned.length]? = some tp)
    (hposition : (s.sync b).positions.get? tp = some position) (hnonneg : 0 ≤ position)
    (hlog : b.log? tp = some log) (hmore : position < log.length) :
    ∃ r ∈ records, r.topicPartition = tp ∧ r.offset = position := by
  obtain ⟨⟨b₁, hlogs, hcollect⟩, -, -⟩ := fetch_collects h
  obtain ⟨rest, hround⟩ : ∃ rest, (s.sync b).rotation = tp :: rest := by
    obtain ⟨hlt, hget⟩ := List.getElem?_eq_some_iff.mp hturn
    rw [rotation, nextStart_sync, List.drop_eq_getElem_cons hlt, hget]
    exact ⟨_, rfl⟩
  rw [← hlogs] at hlog
  rw [hround] at hcollect
  obtain ⟨hnothing, -⟩ | ⟨p, log', positions', hp, hlog', -, hread⟩ :=
    collect_cons_cases b₁ room tp rest (s.sync b).positions
  · rw [undelivered_eq hposition hlog] at hnothing
    omega
  · obtain rfl := Option.some.inj (hposition.symm.trans hp)
    obtain rfl := Option.some.inj (hlog.symm.trans hlog')
    rw [hcollect] at hread
    have hread : records = readFrom tp log position room ++ _ := hread
    -- The first record that is read in the partition is the one at the position.
    have hlength := length_readFrom tp log room hnonneg
    obtain ⟨n, hn⟩ : ∃ n, (readFrom tp log position room).length = n + 1 :=
      Nat.exists_eq_add_one.mpr (by omega)
    have hfirst : position ∈ offsetsIn tp (readFrom tp log position room) := by
      rw [offsetsIn_readFrom, hn, offsetsFrom_succ]
      exact List.mem_cons_self
    obtain ⟨r, hr, hoffset⟩ := List.mem_map.mp hfirst
    obtain ⟨hr, htp⟩ := List.mem_filter.mp hr
    exact ⟨r, hread ▸ List.mem_append_left _ hr, of_decide_eq_true htp, hoffset⟩

end Session

end StreamDispatch
