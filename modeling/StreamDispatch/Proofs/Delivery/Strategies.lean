import Mathlib.Data.List.TakeWhile
import StreamDispatch.Proofs.Worker.Course

/-!
# The strategies agree

The three strategies of a worker differ in when progress is committed, and in nothing else.
Whatever becomes of the records of a batch, once the batch is over and what is stored is
committed, the group is behind the last record of each partition that was resolved before the
worker stopped, and where it was in all other partitions. The strategy does not occur in this
(`StreamDispatch.Turn.reached`), which is the whole proof that they agree.

They do differ in the commits that are made on the way: one for each record, one for the
batch with one offset for each partition, or none at all.

That batches begin and go on as it is assumed here is proved for all histories in
`StreamDispatch.History.hasBatch_of_poll` and `StreamDispatch.History.works_of_events`.

## Main definitions

* `StreamDispatch.resolvedPrefix`: the records of a batch that are resolved if its records come
  out in a certain way.
* `StreamDispatch.Turn.LeavesBehind`: what is committed in the end, and how.

## Main statements

* `StreamDispatch.Turn.strategies_agree`: whatever the strategy, the same is resolved and
  committed.
-/

namespace StreamDispatch

/-! ### What is resolved -/

variable {done before : List (RawRecord × Verdict)}

/-- The records of a batch that are resolved if its records come out in a certain way: those
before the first one that makes the worker stop. -/
def resolvedPrefix (batch : List RawRecord) (outcomes : List Verdict) : List RawRecord :=
  ((batch.zip outcomes).takeWhile fun d => d.2.isResolved).map (·.1)

/-- What has become of the first records of a batch. -/
theorem prefix_zip {batch : List RawRecord} {outcomes : List Verdict}
    (hbatch : done.map (·.1) <+: batch) (houtcomes : done.map (·.2) <+: outcomes) :
    done <+: batch.zip outcomes := by
  obtain ⟨rest, rfl⟩ := hbatch
  obtain ⟨more, rfl⟩ := houtcomes
  rw [List.zip_append (by rw [List.length_map, List.length_map]), ← List.unzip_fst,
    ← List.unzip_snd, List.zip_unzip]
  exact List.prefix_append done _

namespace Turn

variable {t t' : Turn} {batch records : List RawRecord}

/-! ### What is committed in the end -/

/-- **Once what is stored is committed**, the group is behind the resolved records. -/
theorem Flushed.committed_publish (h : t.Flushed records t') (ht : t.HasBatch batch)
    (tp : TopicPartition) :
    (t'.worker.session.publish t'.broker).2.committed t.worker.session.group tp =
      t.reached records tp := by
  have hauto : t'.worker.session.autoCommit = t.worker.plan.strategy.isAuto := by
    rw [h.session]
    exact ht.auto
  have hcommitted := h.committed tp
  cases hplan : t.worker.plan.strategy with
  | auto =>
    obtain ⟨topics, htopics⟩ := Option.isSome_iff_exists.mp (h.isMember ht.member)
    obtain ⟨g, hg⟩ := Broker.exists_of_member htopics
    rw [hplan] at hauto
    have hpublish := (Session.publish_all hauto hg tp).2
    rw [if_pos hplan] at hcommitted
    rw [h.group, hcommitted, h.stored, if_pos hplan] at hpublish
    exact hpublish
  | _ =>
    -- Nothing is stored, and all is committed already.
    rw [hplan] at hauto
    have hpublish : t'.worker.session.publish t'.broker = (t'.worker.session, t'.broker) := by
      rw [Session.publish, hauto]
      rfl
    rw [hpublish, hcommitted, hplan]
    rfl

/-- The next fetch of the session finds no other generation. -/
theorem Flushed.sync_eq (h : t.Flushed records t') (ht : t.HasBatch batch) :
    t'.worker.session.sync t'.broker = t'.worker.session := by
  refine Session.sync_of_seen ?_
  rw [h.group, h.deal.generation, ht.seen, h.session]

/-- **What the resolved records of a batch leave behind.** The group is behind them, at once
or, if the session commits by itself, after the next fetch of the session or after it has left.
The strategies differ in the commits on the way: one for each record, one for the batch, or
none. -/
structure LeavesBehind (t : Turn) (records : List RawRecord) (t' : Turn) : Prop where
  atOnce : t.worker.plan.strategy ≠ .auto → ∀ tp,
    t'.broker.committed t.worker.session.group tp = t.reached records tp
  fetch : t'.broker.faults.poll = false → ∀ room, ∃ more s b,
    t'.worker.session.fetch room t'.broker = .ok (more, s, b) ∧
      ∀ tp, b.committed t.worker.session.group tp = t.reached records tp
  leave : ∀ tp,
    (t'.worker.session.leave t'.broker).2.committed t.worker.session.group tp =
      t.reached records tp
  /-- One commit of a single offset for each record, in order. -/
  afterRecord : t.worker.plan.strategy = .afterRecord →
    t'.broker.entriesOf t.worker.session.group =
        t.broker.entriesOf t.worker.session.group ++
          records.map (fun r => t.entry (offsetAfter r)) ∧
      t'.commits = t.commits ++ records.map fun _ => .commit t.registration 1 true
  /-- One commit, or none without a record, with one offset for each partition. -/
  afterBatch : t.worker.plan.strategy = .afterBatch →
    ∃ offsets : List CommitOffset, (offsets.map (·.partition)).Nodup ∧
      (∀ tp c, ⟨tp, c⟩ ∈ offsets ↔ (lastIn tp records).map (· + 1) = some c) ∧
      t'.broker.entriesOf t.worker.session.group =
        t.broker.entriesOf t.worker.session.group ++ offsets.map t.entry ∧
      t'.commits = t.commits ++
        if records = [] then [] else [.commit t.registration offsets.length true]
  /-- No commit is made, only offsets are stored. -/
  auto : t.worker.plan.strategy = .auto →
    t'.broker.entriesOf t.worker.session.group = t.broker.entriesOf t.worker.session.group ∧
      t'.commits = t.commits

theorem mem_offsetsAfter {last : Dict TopicPartition Int} {tp : TopicPartition} {c : Int} :
    ⟨tp, c⟩ ∈ offsetsAfter last ↔ (last.get? tp).map (· + 1) = some c := by
  rw [offsetsAfter, List.mem_map, Option.map_eq_some_iff]
  constructor
  · rintro ⟨⟨q, o⟩, hmem, heq⟩
    cases heq
    exact ⟨o, last.mem_entries_iff.mp hmem, rfl⟩
  · rintro ⟨o, ho, rfl⟩
    exact ⟨(tp, o), last.mem_entries_iff.mpr ho, rfl⟩

theorem nodup_offsetsAfter (last : Dict TopicPartition Int) :
    ((offsetsAfter last).map (·.partition)).Nodup := by
  rw [offsetsAfter, List.map_map]
  exact last.nodup_keys

theorem Flushed.leavesBehind (h : t.Flushed records t') (ht : t.HasBatch batch) :
    t.LeavesBehind records t' := by
  have hjoined : t'.worker.session.subscribed = true := by
    rw [h.session]
    exact ht.joined
  refine ⟨fun hplan tp => ?_, fun hfaults room => ?_, fun tp => ?_, h.afterRecord,
    fun hplan => ?_, h.auto⟩
  · rw [h.committed, if_neg hplan]
  · obtain ⟨more, s, b, hfetch⟩ := Session.fetch_accepted hjoined hfaults room
    refine ⟨more, s, b, hfetch, fun tp => ?_⟩
    obtain ⟨positions, nextStart, -, rfl, -⟩ := Session.fetch_ok hfetch
    rw [h.sync_eq ht]
    exact h.committed_publish ht tp
  · have hleave := t'.worker.session.committed_leave t'.broker tp
    rw [hjoined, if_pos rfl, h.group] at hleave
    rw [hleave, h.committed_publish ht]
  · obtain ⟨last, hlast, hentries, hcommits⟩ := h.afterBatch hplan
    refine ⟨offsetsAfter last, nodup_offsetsAfter last, fun tp c => ?_, hentries, ?_⟩
    · rw [mem_offsetsAfter, hlast]
    · rw [hcommits, offsetsAfter, List.length_map, Dict.size]

/-! ### The course of a batch -/

/-- Records are dispatched in order, and none after one that was not resolved. -/
theorem Stands.order (h : t.Stands batch done t') :
    done.map (·.1) <+: batch ∧ ∀ d ∈ done.dropLast, d.2.isResolved = true := by
  cases h with
  | working _ hresolved hbatch _ =>
    exact ⟨hbatch ▸ List.prefix_append _ _,
      fun d hd => hresolved d (List.dropLast_subset done hd)⟩
  | finished _ hresolved hbatch _ =>
    exact ⟨hbatch ▸ List.prefix_refl _, fun d hd => hresolved d (List.dropLast_subset done hd)⟩
  | @stopped before r verdict rest p _ hdone _ hresolved hbatch _ =>
    subst hdone
    refine ⟨?_, ?_⟩
    · rw [hbatch, List.map_append, List.map_singleton]
      exact (List.prefix_append_right_inj _).mpr (List.prefix_append [r] rest)
    · rw [List.dropLast_concat]
      exact hresolved

/-- A record is at hand only while all before it are resolved. -/
theorem Stands.atHand (h : t.Stands batch done t') {job : Job} {stage : Stage}
    (hactivity : t'.worker.activity = .working job stage) :
    (∀ d ∈ done, d.2.isResolved = true) ∧ batch = done.map (·.1) ++ job.record :: job.rest := by
  cases h with
  | working activity hresolved hbatch _ =>
    cases hactivity.symm.trans activity
    exact ⟨hresolved, hbatch⟩
  | finished activity => cases hactivity.symm.trans activity
  | stopped activity => cases hactivity.symm.trans activity

/-- **How a batch ends**: the records before the first one that made the worker stop are
resolved, or all of them. -/
theorem Stands.ends (h : t.Stands batch done t') (hover : t'.BatchOver) {outcomes : List Verdict}
    (hlength : outcomes.length = batch.length) (houtcomes : done.map (·.2) <+: outcomes) :
    resolvedOf done = resolvedPrefix batch outcomes ∧ t.Flushed (resolvedOf done) t' := by
  have hzip := prefix_zip h.order.1 houtcomes
  cases h with
  | working activity => exact absurd activity (hover _ _)
  | finished _ hresolved hbatch flushed =>
    rw [resolvedOf_eq hresolved]
    refine ⟨?_, flushed⟩
    have hall : done = batch.zip outcomes := by
      refine hzip.eq_of_length ?_
      rw [List.length_zip, hlength, Nat.min_self, hbatch, List.length_map]
    rw [resolvedPrefix, ← hall, List.takeWhile_eq_self_iff.mpr hresolved]
  | @stopped before r verdict rest p _ hdone hverdict hresolved hbatch flushed =>
    subst hdone
    rw [resolvedOf_concat hresolved r hverdict]
    refine ⟨?_, flushed⟩
    obtain ⟨more, hmore⟩ := hzip
    rw [resolvedPrefix, ← hmore, List.append_assoc, List.takeWhile_append_of_pos hresolved,
      List.singleton_append, List.takeWhile_cons_of_neg (by simp [hverdict]), List.append_nil]

/-- **The strategies agree.** A worker has a batch, and it is given what is to become of each
record. Others may do with the broker what they like meanwhile, as long as they leave the
worker's group alone and requests do not fail.

* There is a course of the batch in which the records come out like this.
* In every course records are dispatched in the order of the batch, and none after a record
  that made the worker stop.
* In every course in which the records come out like this, in the end exactly the records
  before the first one that made the worker stop are resolved, or all of them. The group is then
  behind the last resolved record of each partition, and in the other partitions where it was.
* So two batches with the same records that come out the same and find the same progress leave
  the same progress, whatever the strategies. -/
theorem strategies_agree (ht : t.HasBatch batch) (outcomes : List Verdict)
    (hlength : outcomes.length = batch.length) :
    (∃ done t', t.Works done t' ∧ done.map (·.2) <+: outcomes ∧ t'.BatchOver) ∧
    (∀ done t', t.Works done t' →
      done.map (·.1) <+: batch ∧ (∀ d ∈ done.dropLast, d.2.isResolved = true) ∧
        ∀ job stage, t'.worker.activity = .working job stage →
          (∀ d ∈ done, d.2.isResolved = true) ∧
            batch = done.map (·.1) ++ job.record :: job.rest) ∧
    (∀ done t', t.Works done t' → done.map (·.2) <+: outcomes → t'.BatchOver →
      resolvedOf done = resolvedPrefix batch outcomes ∧
        t.LeavesBehind (resolvedPrefix batch outcomes) t') ∧
    (∀ (u : Turn) done done' t' u', u.HasBatch batch →
      (∀ tp, u.broker.committed u.worker.session.group tp =
        t.broker.committed t.worker.session.group tp) →
      t.Works done t' → done.map (·.2) <+: outcomes → t'.BatchOver →
      u.Works done' u' → done'.map (·.2) <+: outcomes → u'.BatchOver →
      ∀ tp, (u'.worker.session.leave u'.broker).2.committed u.worker.session.group tp =
        (t'.worker.session.leave t'.broker).2.committed t.worker.session.group tp) := by
  have hends : ∀ {v v' : Turn} {done : List (RawRecord × Verdict)}, v.HasBatch batch →
      v.Works done v' → done.map (·.2) <+: outcomes → v'.BatchOver →
        resolvedOf done = resolvedPrefix batch outcomes ∧
          v.LeavesBehind (resolvedPrefix batch outcomes) v' := by
    intro v v' done hv hworks houtcomes hover
    obtain ⟨hresolved, hflushed⟩ := (hv.stands hworks).ends hover hlength houtcomes
    exact ⟨hresolved, (hresolved ▸ hflushed).leavesBehind hv⟩
  refine ⟨?_, fun done t' hworks => ?_, fun done t' => hends ht, ?_⟩
  · obtain ⟨done, t', hworks, houtcomes, hover | ⟨hall, job, hactivity⟩⟩ :=
      ht.works_of_verdicts outcomes
    · exact ⟨done, t', hworks, houtcomes, hover⟩
    · -- There are not more outcomes than records.
      have hbatch := ((ht.stands hworks).atHand hactivity).2
      rw [← hall, hbatch] at hlength
      simp at hlength
  · have hstands := ht.stands hworks
    exact ⟨hstands.order.1, hstands.order.2, fun job stage => hstands.atHand⟩
  · intro u done done' t' u' hu hprogress hworks houtcomes hover huworks huoutcomes huover tp
    rw [(hends hu huworks huoutcomes huover).2.leave, (hends ht hworks houtcomes hover).2.leave,
      reached, reached, hprogress]

/-- Two records in each of two partitions. -/
def fourOrders : List (Event Unit Unit) :=
  [.createTopic "orders" ⟨2, 1, ∅⟩, .produce ⟨"orders", 0⟩ ⟨none, none, 0, []⟩,
    .produce ⟨"orders", 0⟩ ⟨none, none, 0, []⟩, .produce ⟨"orders", 1⟩ ⟨none, none, 0, []⟩,
    .produce ⟨"orders", 1⟩ ⟨none, none, 0, []⟩]

/-- A worker that has joined a group of its own. -/
def ordersReader (strategy : CommitStrategy) : Turn :=
  start
    { worker := .ofPlan ⟨0, "reader", ["orders"], .default, strategy⟩
        { member := 0, group := "shop", client := "reader", autoCommit := strategy.isAuto,
          startsAtEnd := false, subscribed := false, generation := 0, assigned := [],
          positions := ∅, stored := ∅, nextStart := 0 }
      broker := (History.of fourOrders).system.broker
      samples := [] }

/-- A record as it is fetched. -/
def orderAt (partition offset : Int) : RawRecord :=
  ⟨"orders", partition, offset, none, none, some 0, []⟩

theorem hasBatch_ordersReader (strategy : CommitStrategy) :
    ((ordersReader strategy).poll 0).HasBatch
      [orderAt 0 0, orderAt 0 1, orderAt 1 0, orderAt 1 1] := by
  cases strategy <;> exact
    { atHand := ⟨orderAt 0 0, [orderAt 0 1, orderAt 1 0, orderAt 1 1], rfl, by decide +kernel⟩
      joined := by decide +kernel
      member := by decide +kernel
      seen := by decide +kernel
      assigned := by decide +kernel
      stored := fun _ => rfl
      auto := by decide +kernel
      accepts := by decide +kernel }

/-- The last of the four makes the worker stop. One strategy has then committed the other three,
another one commits them when the worker leaves. -/
theorem strategies_agree_fourOrders :
    ∃ done done' t t', ((ordersReader .afterBatch).poll 0).Works done t ∧
      ((ordersReader .auto).poll 0).Works done' t' ∧
      resolvedOf done = [orderAt 0 0, orderAt 0 1, orderAt 1 0] ∧
      resolvedOf done' = resolvedOf done ∧
      t.broker.committed "shop" ⟨"orders", 0⟩ = some 2 ∧
      (t'.worker.session.leave t'.broker).2.committed "shop" ⟨"orders", 0⟩ = some 2 ∧
      t.broker.committed "shop" ⟨"orders", 1⟩ = some 1 ∧
      (t'.worker.session.leave t'.broker).2.committed "shop" ⟨"orders", 1⟩ = some 1 := by
  let outcomes : List Verdict := [.processed, .skipped, .processed, .stopped]
  obtain ⟨⟨done, t, hworks, houtcomes, hover⟩, -, hends, -⟩ :=
    strategies_agree (hasBatch_ordersReader .afterBatch) outcomes rfl
  obtain ⟨⟨done', t', hworks', houtcomes', hover'⟩, -, hends', -⟩ :=
    strategies_agree (hasBatch_ordersReader .auto) outcomes rfl
  obtain ⟨hresolved, hbehind⟩ := hends done t hworks houtcomes hover
  obtain ⟨hresolved', hbehind'⟩ := hends' done' t' hworks' houtcomes' hover'
  refine ⟨done, done', t, t', hworks, hworks', hresolved, hresolved'.trans hresolved.symm, ?_, ?_,
    ?_, ?_⟩
  · exact (hbehind.atOnce (by decide) ⟨"orders", 0⟩).trans (by decide +kernel)
  · exact (hbehind'.leave ⟨"orders", 0⟩).trans (by decide +kernel)
  · exact (hbehind.atOnce (by decide) ⟨"orders", 1⟩).trans (by decide +kernel)
  · exact (hbehind'.leave ⟨"orders", 1⟩).trans (by decide +kernel)

end Turn

end StreamDispatch
