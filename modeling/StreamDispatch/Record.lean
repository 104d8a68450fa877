import StreamDispatch.Text.AsciiFold
import StreamDispatch.Text.Utf8

/-!
# Records

A topic is divided into partitions, and each partition is a sequence of records, numbered by
their *offset*. A record carries an optional key, an optional payload and any number of
headers, all of them octets; what they mean is for a decoder to say
(`StreamDispatch.Record.Decoder`).

Progress in a partition is told by the offset of the *next* record, so a record that is
done with is committed as the offset after it.

## Main statements

* `TopicPartition` is linearly ordered, by topic and then by partition.
* `RawRecord.headerValues`: the values of a header, whatever the case of its name.
-/

namespace StreamDispatch

/-- A partition of a topic. -/
structure TopicPartition where
  topic : String
  partition : Int
  deriving DecidableEq, Repr, Inhabited

namespace TopicPartition

/-- A partition as a text: the topic and the number of the partition. -/
def text (tp : TopicPartition) : String := s!"{tp.topic}-{tp.partition}"

/-- Partitions are ordered by topic and then by number. -/
instance : Ord TopicPartition :=
  ⟨fun a b => (compare a.topic b.topic).then (compare a.partition b.partition)⟩

theorem compare_def (a b : TopicPartition) :
    compare a b = (compare a.topic b.topic).then (compare a.partition b.partition) := rfl

instance : Std.LawfulEqOrd TopicPartition where
  compare_self := by
    intro a
    simp [compare_def]
  eq_of_compare := by
    intro a b h
    rw [compare_def, Ordering.then_eq_eq] at h
    cases a
    cases b
    simp only [mk.injEq]
    exact ⟨Std.LawfulEqCmp.eq_of_compare h.1, Std.LawfulEqCmp.eq_of_compare h.2⟩

instance : Std.TransOrd TopicPartition where
  eq_swap := by
    intro a b
    rw [compare_def, compare_def, Ordering.swap_then,
      ← Std.OrientedCmp.eq_swap, ← Std.OrientedCmp.eq_swap]
  isLE_trans := by
    intro a b c hab hbc
    have key : ∀ x y : TopicPartition, (compare x y).isLE = true ↔
        compare x.topic y.topic = .lt ∨
          (compare x.topic y.topic = .eq ∧ (compare x.partition y.partition).isLE = true) := by
      intro x y
      rw [compare_def]
      cases compare x.topic y.topic <;> simp
    rw [key] at hab hbc ⊢
    rcases hab with hab | ⟨hab, hab'⟩ <;> rcases hbc with hbc | ⟨hbc, hbc'⟩
    · exact .inl (Std.TransCmp.lt_trans hab hbc)
    · rw [← Std.LawfulEqCmp.eq_of_compare hbc]
      exact .inl hab
    · rw [Std.LawfulEqCmp.eq_of_compare hab]
      exact .inl hbc
    · refine .inr ⟨?_, Std.TransCmp.isLE_trans hab' hbc'⟩
      rw [Std.LawfulEqCmp.eq_of_compare hab]
      exact hbc

end TopicPartition

/-- A position in a partition: the offset of the next record. -/
structure CommitOffset where
  partition : TopicPartition
  offset : Int
  deriving DecidableEq, Repr, Inhabited

/-- The position after the record at offset `processed`. -/
def CommitOffset.after (tp : TopicPartition) (processed : Int) : CommitOffset :=
  ⟨tp, processed + 1⟩

/-- A header of a record. -/
structure RecordHeader where
  name : String
  value : Option Bytes
  deriving DecidableEq, Repr, Inhabited

/-- A record as a broker delivers it. -/
structure RawRecord where
  topic : String
  partition : Int
  offset : Int
  key : Option Bytes
  payload : Option Bytes
  /-- When it was written, in milliseconds. -/
  timestamp : Option Int
  headers : List RecordHeader
  deriving DecidableEq, Repr, Inhabited

namespace RawRecord

/-- The partition of a record. -/
def topicPartition (r : RawRecord) : TopicPartition := ⟨r.topic, r.partition⟩

/-- The place of a record, as a text. -/
def place (r : RawRecord) : String := s!"{r.topicPartition.text}@{r.offset}"

/-- The values of the headers named `name`, in order; headers without a value are left out
and the case of ASCII letters does not count. -/
def headerValues (r : RawRecord) (name : String) : List Bytes :=
  (r.headers.filter fun h => sameName h.name name).filterMap (·.value)

end RawRecord

/-- A record whose key and value are decoded. -/
structure ConsumerRecord (κ ν : Type) where
  topic : String
  partition : Int
  offset : Int
  key : κ
  value : ν
  timestamp : Option Int
  headers : List RecordHeader

/-- A record with decoded key and value in the place of the octets. -/
def ConsumerRecord.ofRaw {κ ν : Type} (r : RawRecord) (key : κ) (value : ν) :
    ConsumerRecord κ ν :=
  ⟨r.topic, r.partition, r.offset, key, value, r.timestamp, r.headers⟩

end StreamDispatch
