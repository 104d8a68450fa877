import StreamDispatch.Broker.Session

/-!
# Runs of offsets

A batch mixes the records of several partitions, but what progress is about is one partition
at a time: which offsets of it are there, and that they follow one another without a gap.
This file reads a list of records off as the offsets of one partition
(`StreamDispatch.offsetsIn`) and says what a gap-free run is (`StreamDispatch.offsetsFrom`).

## Main statements

* `StreamDispatch.offsetsIn_readFrom`: what is read from a position on is a run that begins
  there.
* `StreamDispatch.Session.collect_readsOn`: the records of a fetch are, in each partition, a
  run from the position before to the position after.
-/

namespace StreamDispatch

/-- The run of `count` offsets that begins with `first`. -/
def offsetsFrom (first : Int) (count : Nat) : List Int :=
  (List.range count).map fun i : Nat => first + i

@[simp] theorem offsetsFrom_zero (first : Int) : offsetsFrom first 0 = [] := rfl

@[simp] theorem length_offsetsFrom (first : Int) (count : Nat) :
    (offsetsFrom first count).length = count := by
  simp [offsetsFrom]

/-- Two runs, of which the second begins where the first ends, are one. -/
theorem offsetsFrom_add (first : Int) (m n : Nat) :
    offsetsFrom first (m + n) = offsetsFrom first m ++ offsetsFrom (first + m) n := by
  simp only [offsetsFrom, List.range_add, List.map_append, List.map_map]
  congr 1
  refine List.map_congr_left fun i _ => ?_
  simp only [Function.comp_apply]
  omega

theorem offsetsFrom_succ (first : Int) (n : Nat) :
    offsetsFrom first (n + 1) = first :: offsetsFrom (first + 1) n := by
  rw [Nat.add_comm, offsetsFrom_add]
  simp [offsetsFrom]

theorem offsetsFrom_concat (first : Int) (n : Nat) :
    offsetsFrom first n ++ [first + n] = offsetsFrom first (n + 1) := by
  rw [offsetsFrom_add]
  simp [offsetsFrom]

/-- The offsets of the records of one partition, in the order of the records. -/
def offsetsIn (tp : TopicPartition) (records : List RawRecord) : List Int :=
  (records.filter fun r => r.topicPartition = tp).map (·.offset)

@[simp] theorem offsetsIn_nil (tp : TopicPartition) : offsetsIn tp [] = [] := rfl

@[simp] theorem offsetsIn_append (tp : TopicPartition) (a b : List RawRecord) :
    offsetsIn tp (a ++ b) = offsetsIn tp a ++ offsetsIn tp b := by
  simp [offsetsIn]

theorem offsetsIn_cons (tp : TopicPartition) (r : RawRecord) (rest : List RawRecord) :
    offsetsIn tp (r :: rest) =
      if r.topicPartition = tp then r.offset :: offsetsIn tp rest else offsetsIn tp rest := by
  by_cases h : r.topicPartition = tp <;> simp [offsetsIn, h]

namespace Session

/-! ### One partition -/

theorem topicPartition_of_mem_readFrom {tp : TopicPartition} {log : List StoredRecord}
    {position : Int} {room : Nat} {r : RawRecord} (h : r ∈ readFrom tp log position room) :
    r.topicPartition = tp := by
  rw [readFrom] at h
  split at h
  · exact absurd h List.not_mem_nil
  · obtain ⟨i, hi, rfl⟩ := List.mem_mapIdx.mp h
    rfl

theorem offsets_readFrom (tp : TopicPartition) (log : List StoredRecord) (position : Int)
    (room : Nat) :
    (readFrom tp log position room).map (·.offset) =
      offsetsFrom position (readFrom tp log position room).length := by
  rw [readFrom]
  split
  · rfl
  · refine List.ext_getElem (by simp) fun i _ _ => ?_
    simp [offsetsFrom]

/-- **What is read from a position on is a run that begins there.** -/
theorem offsetsIn_readFrom (tp : TopicPartition) (log : List StoredRecord) (position : Int)
    (room : Nat) :
    offsetsIn tp (readFrom tp log position room) =
      offsetsFrom position (readFrom tp log position room).length := by
  rw [offsetsIn, List.filter_eq_self.mpr fun r hr =>
    decide_eq_true (topicPartition_of_mem_readFrom hr)]
  exact offsets_readFrom tp log position room

theorem offsetsIn_readFrom_of_ne {tp other : TopicPartition} (h : tp ≠ other)
    (log : List StoredRecord) (position : Int) (room : Nat) :
    offsetsIn other (readFrom tp log position room) = [] := by
  rw [offsetsIn, List.map_eq_nil_iff, List.filter_eq_nil_iff]
  intro r hr
  rw [topicPartition_of_mem_readFrom hr]
  simpa using h

/-! ### All partitions of a fetch -/

/-- The positions move from `before` to `after` over `records`: in each partition with a
position the records are a run from the one to the other, and there are no records elsewhere. -/
structure ReadsOn (before : Dict TopicPartition Int) (records : List RawRecord)
    (after : Dict TopicPartition Int) : Prop where
  run : ∀ tp p, before.get? tp = some p →
    ∃ n : Nat, after.get? tp = some (p + n) ∧ offsetsIn tp records = offsetsFrom p n
  none : ∀ tp, before.get? tp = none → after.get? tp = none ∧ offsetsIn tp records = []

theorem ReadsOn.refl (positions : Dict TopicPartition Int) : ReadsOn positions [] positions where
  run _ p h := ⟨0, by simpa using h, rfl⟩
  none _ h := ⟨h, rfl⟩

theorem ReadsOn.trans {a b c : Dict TopicPartition Int} {rs rs' : List RawRecord}
    (h : ReadsOn a rs b) (h' : ReadsOn b rs' c) : ReadsOn a (rs ++ rs') c where
  run tp p hp := by
    obtain ⟨m, hm, hrs⟩ := h.run tp p hp
    obtain ⟨n, hn, hrs'⟩ := h'.run tp _ hm
    refine ⟨m + n, ?_, ?_⟩
    · rw [hn]
      congr 1
      omega
    · rw [offsetsIn_append, hrs, hrs', offsetsFrom_add]
  none tp hp := by
    obtain ⟨hb, hrs⟩ := h.none tp hp
    obtain ⟨hc, hrs'⟩ := h'.none tp hb
    exact ⟨hc, by rw [offsetsIn_append, hrs, hrs', List.append_nil]⟩

/-- Reading one partition moves its position over what was read. -/
theorem readsOn_readFrom {tp : TopicPartition} {positions : Dict TopicPartition Int}
    {position : Int} (h : positions.get? tp = some position) (log : List StoredRecord)
    (room : Nat) :
    ReadsOn positions (readFrom tp log position room)
      (if (readFrom tp log position room).isEmpty then positions
        else positions.insert tp (position + (readFrom tp log position room).length)) := by
  -- Nothing is written when nothing is found, which comes to the same.
  by_cases hempty : (readFrom tp log position room).isEmpty
  · rw [if_pos hempty, List.isEmpty_iff.mp hempty]
    exact .refl positions
  · rw [if_neg hempty]
    constructor
    · intro other p hp
      by_cases htp : other = tp
      · subst htp
        obtain rfl : position = p := Option.some.inj (h.symm.trans hp)
        exact ⟨_, Dict.get?_insert_self _ _ _, offsetsIn_readFrom other log position room⟩
      · refine ⟨0, ?_, offsetsIn_readFrom_of_ne (Ne.symm htp) log position room⟩
        rw [Dict.get?_insert_of_ne _ htp, hp]
        simp
    · intro other hnone
      have htp : other ≠ tp := by
        rintro rfl
        rw [h] at hnone
        exact absurd hnone (by simp)
      rw [Dict.get?_insert_of_ne _ htp]
      exact ⟨hnone, offsetsIn_readFrom_of_ne (Ne.symm htp) log position room⟩

/-- **The records of a fetch**, in each partition a run from the position before to the
position after. -/
theorem collect_readsOn (b : Broker) (room : Nat) (tps : List TopicPartition)
    (positions : Dict TopicPartition Int) :
    ReadsOn positions (collect b room tps positions).1 (collect b room tps positions).2 := by
  induction tps generalizing room positions with
  | nil => exact .refl positions
  | cons tp rest ih =>
    rw [collect]
    split
    next position log hposition hlog =>
      exact (readsOn_readFrom hposition log room).trans (ih _ _)
    next => exact ih room positions

end Session

end StreamDispatch
