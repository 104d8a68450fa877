import StreamDispatch.Proofs.Stand.Answers
import StreamDispatch.Proofs.Stand.Logs

/-!
# Writing as a whole or not at all

Three requests write something down: a record is produced, offsets are committed for a group,
and offsets are stored in a session for the commit that it makes by itself. Whoever asks for
one of them wants it done as a whole, or refused and nothing done. So there are two questions
for each: what a refusal leaves behind, and what becomes of every entry when there is none.

The answer to the second is the same for both kinds of offsets: at each partition the last
entry for it counts (`StreamDispatch.lastOffset?`), and a partition without an entry is as it
was. The answer to the first depends on *when* a request looks at what it was given.

| request | looks | a refusal leaves behind |
|---|---|---|
| produce | whether there is the partition, then adds the record | nothing |
| commit | whether the session is a member, then goes through the list | nothing |
| store | at each entry when its turn comes | the entries before the first one outside of the session's partitions |

Storing is thus the exception (`StreamDispatch.Stand.writes_whole` says exactly what it leaves,
and when that makes no difference). It is not harmless: what is left stored will be committed,
although the request was refused (`StreamDispatch.Stand.stored_in_part`).

## Main definitions

* `StreamDispatch.lastOffset?`: what a list of offsets comes to at a partition.
* `StreamDispatch.Session.withStored`: a session after a list of offsets was stored.
* `StreamDispatch.Stand.Produced`, `StreamDispatch.Stand.Committed`: what is there afterwards.

## Main statements

* `StreamDispatch.Session.store_accepted`, `StreamDispatch.Session.store_stops`: the two ways in
  which storing comes out.
-/

namespace StreamDispatch

/-- The offset that a list of offsets comes to at a partition: that of the last entry for it. -/
def lastOffset? (offsets : List CommitOffset) (tp : TopicPartition) : Option Int :=
  (offsets.filter fun o => o.partition = tp).getLast?.map (·.offset)

/-- Of two lists the later one comes first, where it has an entry. -/
theorem lastOffset?_append (offsets more : List CommitOffset) (tp : TopicPartition) :
    lastOffset? (offsets ++ more) tp = (lastOffset? more tp).or (lastOffset? offsets tp) := by
  rw [lastOffset?, List.filter_append, List.getLast?_append, Option.map_or]
  rfl

/-- **Writing a list of offsets** leaves at each partition the offset that the list comes to. -/
theorem get?_insertAll_offsets (d : Dict TopicPartition Int) (offsets : List CommitOffset)
    (tp : TopicPartition) :
    (d.insertAll (offsets.map fun o => (o.partition, o.offset))).get? tp =
      (lastOffset? offsets tp).or (d.get? tp) := by
  rw [Dict.get?_insertAll_list, List.filter_map, List.getLast?_map, Option.map_map]
  rfl

/-! ### Storing, entry by entry -/

namespace Session

variable {s : Session}

/-- A session with offsets stored, one after the other. -/
def withStored (s : Session) (offsets : List CommitOffset) : Session :=
  { s with stored := s.stored.insertAll (offsets.map fun o => (o.partition, o.offset)) }

theorem stored_withStored (s : Session) (offsets : List CommitOffset) (tp : TopicPartition) :
    (s.withStored offsets).stored.get? tp = (lastOffset? offsets tp).or (s.stored.get? tp) :=
  get?_insertAll_offsets s.stored offsets tp

/-- Offsets that are stored already make no difference, and no others do so. -/
theorem withStored_eq_self_iff {offsets : List CommitOffset} :
    s.withStored offsets = s ↔
      ∀ tp c, lastOffset? offsets tp = some c → s.stored.get? tp = some c := by
  constructor
  · intro h tp c hc
    have hstored := s.stored_withStored offsets tp
    rwa [h, hc] at hstored
  · intro h
    have hstored : (s.withStored offsets).stored = s.stored := by
      refine Dict.ext_get? fun tp => ?_
      rw [stored_withStored]
      cases hc : lastOffset? offsets tp with
      | none => rfl
      | some c => exact (h tp c hc).symm
    exact congrArg (fun stored => { s with stored := stored }) hstored

/-- **Storing goes through its list** as long as the entries are in the session's partitions. -/
theorem store_append {offsets : List CommitOffset}
    (h : ∀ o ∈ offsets, o.partition ∈ s.assigned) (rest : List CommitOffset) :
    s.store (offsets ++ rest) = (s.withStored offsets).store rest := by
  induction offsets generalizing s with
  | nil => rfl
  | cons o offsets ih =>
    obtain ⟨ho, hoffsets⟩ := List.forall_mem_cons.mp h
    have hstep : s.store (o :: (offsets ++ rest)) = (s.withStored [o]).store (offsets ++ rest) :=
      if_pos (List.contains_iff_mem.mpr ho)
    have hrest := ih (s := s.withStored [o]) hoffsets
    rw [List.cons_append, hstep, hrest]
    rfl

/-- Offsets in the session's partitions are all stored. -/
theorem store_accepted {offsets : List CommitOffset}
    (h : ∀ o ∈ offsets, o.partition ∈ s.assigned) :
    s.store offsets = (.ok (), s.withStored offsets) := by
  have hall := store_append h []
  rwa [List.append_nil] at hall

/-- **The first entry outside of the session's partitions ends it**, and what was stored before
stays stored. -/
theorem store_stops {before : List CommitOffset} {o : CommitOffset}
    (hbefore : ∀ o ∈ before, o.partition ∈ s.assigned) (ho : o.partition ∉ s.assigned)
    (after : List CommitOffset) :
    s.store (before ++ o :: after) =
      (.error (.notAssigned o.partition s.client), s.withStored before) := by
  rw [store_append hbefore]
  exact if_neg fun h => ho (List.contains_iff_mem.mp h)

/-- Either all offsets are in the session's partitions, or one of them is the first that is
not. -/
theorem all_assigned_or (s : Session) (offsets : List CommitOffset) :
    (∀ o ∈ offsets, o.partition ∈ s.assigned) ∨
      ∃ before o after, offsets = before ++ o :: after ∧
        (∀ o ∈ before, o.partition ∈ s.assigned) ∧ o.partition ∉ s.assigned := by
  cases hfind : offsets.find? fun o => decide (o.partition ∉ s.assigned) with
  | none =>
    refine .inl fun o ho => ?_
    simpa using List.find?_eq_none.mp hfind o ho
  | some o =>
    obtain ⟨ho, before, after, rfl, hbefore⟩ := List.find?_eq_some_iff_append.mp hfind
    exact .inr ⟨before, o, after, rfl, fun p hp => by simpa using hbefore p hp, by simpa using ho⟩

/-! ### Committing -/

/-- After a commit each partition is where the list has it last. -/
theorem committed_commit {offsets : List CommitOffset} {mode : CommitMode} {b b' : Broker}
    (h : s.commit offsets mode b = .ok b') (tp : TopicPartition) :
    b'.committed s.group tp = (lastOffset? offsets tp).or (b.committed s.group tp) := by
  rw [committed_commit_eq h, Broker.committed_eq]
  exact get?_insertAll_offsets (b.group s.group).committed offsets tp

theorem commitLog_commit {offsets : List CommitOffset} {mode : CommitMode} {b b' : Broker}
    (h : s.commit offsets mode b = .ok b') :
    b'.commitLog = b.commitLog ++ offsets.map fun o => ⟨s.group, s.client, o, mode⟩ := by
  obtain ⟨_, -, -, rfl⟩ := commit_ok h
  rfl

end Session

theorem Broker.commitLog_produce {b b' : Broker} {tp : TopicPartition} {record : StoredRecord}
    {offset : Int} (h : b.produce tp record = .ok (offset, b')) :
    b'.commitLog = b.commitLog := by
  rw [produce] at h
  split at h
  next =>
    cases h
    rfl
  next => cases h

namespace Stand

variable {st : Stand} {label : String} {s : Session}

/-! ### What is there afterwards -/

/-- **A record was produced**: it stands at the end of its partition, and the answer is its
place there. Nothing else is written. -/
structure Produced (st : Stand) (tp : TopicPartition) (record : StoredRecord) (offset : Int)
    (st' : Stand) : Prop where
  log : ∃ log, st.broker.log? tp = some log ∧ offset = log.length ∧
    st'.broker.log? tp = some (log ++ [record])
  logs : ∀ other, other ≠ tp → st'.broker.log? other = st.broker.log? other
  groups : st'.broker.groups = st.broker.groups
  commitLog : st'.broker.commitLog = st.broker.commitLog
  sessions : st'.sessions = st.sessions

/-- **Offsets were committed**: each partition is where the list has it last, and every entry is
written down, in order. Only the group's progress is different. -/
structure Committed (st : Stand) (s : Session) (offsets : List CommitOffset) (mode : CommitMode)
    (st' : Stand) : Prop where
  committed : ∀ tp, st'.broker.committed s.group tp =
    (lastOffset? offsets tp).or (st.broker.committed s.group tp)
  commitLog : st'.broker.commitLog =
    st.broker.commitLog ++ offsets.map fun o => ⟨s.group, s.client, o, mode⟩
  deal : (st.broker.group s.group).SameDeal (st'.broker.group s.group)
  others : Broker.SameBut s.group st.broker st'.broker
  sessions : st'.sessions = st.sessions

theorem answer_ask (hs : st.sessions.get? label = some s) (request : SessionRequest) :
    st.answer (.ask label request) = request.answer s st.broker := by
  rw [answer, hs]

/-- A session that is put back as it was changes nothing. -/
theorem put_eq_self_iff (hs : st.sessions.get? label = some s) {s' : Session} :
    st.put label s' = st ↔ s' = s := by
  constructor
  · intro h
    have hsession := session_put st label label s'
    rw [h, hs, if_pos rfl] at hsession
    exact (Option.some.inj hsession).symm
  · rintro rfl
    rw [put, Dict.insert_eq_self _ hs]

theorem apply_produce_of_refused {tp : TopicPartition} {record : StoredRecord}
    {fault : BrokerFault} (h : st.answer (.produce tp record) = .refused fault) :
    st.apply (.produce tp record) = st := by
  rw [answer] at h
  rw [apply]
  cases hproduce : st.broker.produce tp record with
  | error fault' => rfl
  | ok written =>
    rw [hproduce] at h
    cases h

theorem produced_of_written {tp : TopicPartition} {record : StoredRecord} {offset : Int}
    (h : st.answer (.produce tp record) = .written offset) :
    st.Produced tp record offset (st.apply (.produce tp record)) := by
  rw [answer] at h
  rw [apply]
  cases hproduce : st.broker.produce tp record with
  | error fault =>
    rw [hproduce] at h
    cases h
  | ok written =>
    obtain ⟨offset', b'⟩ := written
    rw [hproduce] at h
    obtain rfl : offset' = offset := by injection h
    obtain ⟨log, hlog, hoffset, hafter⟩ := Broker.log?_produce hproduce
    exact
      { log := ⟨log, hlog, hoffset, by rw [hafter, if_pos rfl]⟩
        logs := fun other hother => by rw [hafter, if_neg hother]
        groups := Broker.groups_produce hproduce
        commitLog := Broker.commitLog_produce hproduce
        sessions := rfl }

theorem apply_commit_of_refused (hs : st.sessions.get? label = some s)
    {offsets : List CommitOffset} {mode : CommitMode} {fault : BrokerFault}
    (h : st.answer (.ask label (.commit offsets mode)) = .refused fault) :
    st.apply (.ask label (.commit offsets mode)) = st := by
  rw [answer_ask hs, SessionRequest.answer] at h
  rw [apply_ask hs, SessionRequest.apply]
  cases hcommit : s.commit offsets mode st.broker with
  | ok b' =>
    rw [hcommit] at h
    cases h
  | error fault' => exact (put_eq_self_iff hs).mpr rfl

theorem committed_of_done (hs : st.sessions.get? label = some s)
    {offsets : List CommitOffset} {mode : CommitMode}
    (h : st.answer (.ask label (.commit offsets mode)) = .done) :
    st.Committed s offsets mode (st.apply (.ask label (.commit offsets mode))) := by
  rw [answer_ask hs, SessionRequest.answer] at h
  rw [apply_ask hs, SessionRequest.apply]
  cases hcommit : s.commit offsets mode st.broker with
  | error fault =>
    rw [hcommit] at h
    cases h
  | ok b' =>
    exact
      { committed := Session.committed_commit hcommit
        commitLog := Session.commitLog_commit hcommit
        deal := Session.sameDeal_commit hcommit
        others := Session.sameBut_commit hcommit
        sessions := Dict.insert_eq_self _ hs }

/-- Storing comes out in one of two ways: everything is stored, or what stands before the first
entry outside of the session's partitions. -/
theorem store_cases (hs : st.sessions.get? label = some s) (offsets : List CommitOffset) :
    (st.answer (.ask label (.store offsets)) = .done ∧
        st.apply (.ask label (.store offsets)) = st.put label (s.withStored offsets)) ∨
      ∃ before o after, offsets = before ++ o :: after ∧
        (∀ o ∈ before, o.partition ∈ s.assigned) ∧ o.partition ∉ s.assigned ∧
        st.answer (.ask label (.store offsets)) =
          .refused (.notAssigned o.partition s.client) ∧
        st.apply (.ask label (.store offsets)) = st.put label (s.withStored before) := by
  rw [answer_ask hs, SessionRequest.answer, apply_ask hs, SessionRequest.apply]
  rcases s.all_assigned_or offsets with hall | ⟨before, o, after, rfl, hbefore, ho⟩
  · rw [Session.store_accepted hall]
    exact .inl ⟨rfl, rfl⟩
  · rw [Session.store_stops hbefore ho after]
    exact .inr ⟨before, o, after, rfl, hbefore, ho, rfl, rfl⟩

/-! ### All three -/

/-- **A write is done as a whole or not at all, unless offsets are stored.** Let anything be
asked of a broker in any state. If a record is refused, or a commit, then nothing is changed; if
it is accepted, then the record stands at the end of its partition, and every partition is where
the list of offsets has it last. A list of offsets to store that is accepted is stored in the
same way. If it is refused, then exactly what stands before the first entry outside of the
session's partitions is stored; so a refusal changes nothing exactly if all of that was stored
already, for instance because nothing stands before that entry. -/
theorem writes_whole (st : Stand) :
    (∀ tp record,
      (∀ fault, st.answer (.produce tp record) = .refused fault →
        st.apply (.produce tp record) = st) ∧
      ∀ offset, st.answer (.produce tp record) = .written offset →
        st.Produced tp record offset (st.apply (.produce tp record))) ∧
    ∀ label s offsets, st.sessions.get? label = some s →
      (∀ mode,
        (∀ fault, st.answer (.ask label (.commit offsets mode)) = .refused fault →
          st.apply (.ask label (.commit offsets mode)) = st) ∧
        (st.answer (.ask label (.commit offsets mode)) = .done →
          st.Committed s offsets mode (st.apply (.ask label (.commit offsets mode))))) ∧
      (st.answer (.ask label (.store offsets)) = .done →
        st.apply (.ask label (.store offsets)) = st.put label (s.withStored offsets) ∧
          ∀ tp, (s.withStored offsets).stored.get? tp =
            (lastOffset? offsets tp).or (s.stored.get? tp)) ∧
      ∀ fault, st.answer (.ask label (.store offsets)) = .refused fault →
        ∃ before o after, offsets = before ++ o :: after ∧
          (∀ o ∈ before, o.partition ∈ s.assigned) ∧ o.partition ∉ s.assigned ∧
          fault = .notAssigned o.partition s.client ∧
          st.apply (.ask label (.store offsets)) = st.put label (s.withStored before) ∧
          (st.apply (.ask label (.store offsets)) = st ↔
            ∀ tp c, lastOffset? before tp = some c → s.stored.get? tp = some c) := by
  refine ⟨fun tp record => ⟨fun fault => apply_produce_of_refused,
    fun offset => produced_of_written⟩, fun label s offsets hs => ⟨fun mode =>
      ⟨fun fault => apply_commit_of_refused hs, committed_of_done hs⟩, fun hdone => ?_,
      fun fault hrefused => ?_⟩⟩
  · rcases store_cases hs offsets with ⟨-, hafter⟩ | ⟨_, _, _, -, -, -, hrefused, -⟩
    · exact ⟨hafter, s.stored_withStored offsets⟩
    · rw [hrefused] at hdone
      cases hdone
  · rcases store_cases hs offsets with
      ⟨hdone, -⟩ | ⟨before, o, after, hoffsets, hbefore, ho, hanswer, hafter⟩
    · rw [hdone] at hrefused
      cases hrefused
    · rw [hanswer] at hrefused
      refine ⟨before, o, after, hoffsets, hbefore, ho, ?_, hafter, ?_⟩
      · injection hrefused with hfault
        exact hfault.symm
      · rw [hafter, put_eq_self_iff hs, Session.withStored_eq_self_iff]

/-- A session that commits by itself has the only partition of a topic, and a record from it. -/
def soleReader : List Request :=
  [.createTopic "orders" ⟨1, 1, ∅⟩,
    .openSession "first" "first" ⟨"shop", "first", .auto, ∅⟩,
    .ask "first" (.subscribe ["orders"]),
    .produce ⟨"orders", 0⟩ ⟨none, none, 0, []⟩,
    .ask "first" (.fetch 1)]

/-- The session reports its record done, together with one from a partition that it does not
have. -/
def mixedOffsets : List CommitOffset := [.after ⟨"orders", 0⟩ 0, .after ⟨"refunds", 0⟩ 0]

/-- Another record is produced, both offsets are committed, and storing them is refused but for
the first one. -/
theorem writes_whole_soleReader :
    (of soleReader).Produced ⟨"orders", 0⟩ ⟨none, none, 1, []⟩ 1
        ((of soleReader).apply (.produce ⟨"orders", 0⟩ ⟨none, none, 1, []⟩)) ∧
      ∃ s, (of soleReader).sessions.get? "first" = some s ∧
        (of soleReader).Committed s mixedOffsets .sync
          ((of soleReader).apply (.ask "first" (.commit mixedOffsets .sync))) ∧
        ∃ before o after, mixedOffsets = before ++ o :: after ∧ o.partition ∉ s.assigned ∧
          (of soleReader).apply (.ask "first" (.store mixedOffsets)) =
            (of soleReader).put "first" (s.withStored before) := by
  obtain ⟨hproduce, hsession⟩ := writes_whole (of soleReader)
  obtain ⟨s, hs⟩ := Option.isSome_iff_exists.mp
    (show ((of soleReader).sessions.get? "first").isSome = true by decide)
  obtain ⟨hcommit, -, hstore⟩ := hsession "first" s mixedOffsets hs
  refine ⟨(hproduce _ _).2 1 (by decide), s, hs, (hcommit .sync).2 (by decide +kernel), ?_⟩
  obtain ⟨before, o, after, hoffsets, -, ho, -, hafter, -⟩ :=
    hstore (.notAssigned ⟨"refunds", 0⟩ "first") (by decide)
  exact ⟨before, o, after, hoffsets, ho, hafter⟩

/-- **A refused list of offsets can be stored in part**: the session is not what it was before,
and when it leaves, the stored part is committed. -/
theorem stored_in_part :
    (of soleReader).answer (.ask "first" (.store mixedOffsets)) =
        .refused (.notAssigned ⟨"refunds", 0⟩ "first") ∧
      (of soleReader).apply (.ask "first" (.store mixedOffsets)) ≠ of soleReader ∧
      (of (soleReader ++ [.ask "first" .close])).broker.committed "shop" ⟨"orders", 0⟩ = none ∧
      (of (soleReader ++ [.ask "first" (.store mixedOffsets), .ask "first" .close])).broker.committed
        "shop" ⟨"orders", 0⟩ = some 1 := by
  refine ⟨by decide, fun h => ?_, by decide +kernel, by decide +kernel⟩
  have hstored := congrArg
    (fun st => (st.sessions.get? "first").bind fun s => s.stored.get? ⟨"orders", 0⟩) h
  revert hstored
  decide

end Stand

end StreamDispatch
