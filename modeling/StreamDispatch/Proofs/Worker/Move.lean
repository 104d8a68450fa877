import StreamDispatch.Proofs.History

/-!
# What a worker can do to its session and the broker

A worker has many steps, but seen from the broker there are few things it ever does. This
file lists them once, as the relation `StreamDispatch.Move`, and shows that every event of a
worker is one of them (`StreamDispatch.WorkerEvent.did`). All that is said about progress
later is said about moves, and no later file opens a step of a worker again.

## What is seen

What a worker is doing is seen only as its `StreamDispatch.Standing`: whether it is outside
its group, reads with some records at hand, is about to close, or is over. The phases it
publishes, what it counts, the attempts at a record and the waits between them do not show.

A move is named by its `StreamDispatch.Deed`. Two names matter for what is *not* lost: a
`refused` deed is one in which the broker refused a commit, and each of them leaves a sample
of a failed commit (`StreamDispatch.WorkerEvent.did`); a worker is `cutOff` when it leaves
its group in the middle of something, which takes a breakdown or an abort.
-/

namespace StreamDispatch

/-- How far a worker is with its session. -/
inductive Standing
  /-- It has not joined its group. -/
  | outside
  /-- It reads. The records at hand are not resolved; the last resolved offsets of the batch,
  as far as they are not committed, are remembered. -/
  | reading (pending : List RawRecord) (batched : Dict TopicPartition Int)
  /-- It is about to leave its group. -/
  | closing
  | gone

namespace Standing

/-- Whether a worker is a member of its group. -/
def isMember : Standing → Bool
  | .outside => false
  | .reading _ _ => true
  | .closing => true
  | .gone => false

/-- Reading goes on with the rest of a batch; after the last record nothing is remembered. -/
def readingOn (rest : List RawRecord) (batched : Dict TopicPartition Int) : Standing :=
  .reading rest (if rest.isEmpty then ∅ else batched)

end Standing

/-- How far a worker is, by what it is doing. -/
def Activity.standing : Activity → Standing
  | .unstarted => .outside
  | .ready => .reading [] ∅
  | .polling _ _ => .reading [] ∅
  | .working job _ => .reading (job.record :: job.rest) job.resolved
  | .closing _ => .closing
  | .ended => .gone
  | .cancelled => .gone
  | .panicked _ => .gone

/-- What is seen of a worker at the broker. -/
structure Desk where
  standing : Standing
  session : Session
  broker : Broker

/-- What is seen of a turn. -/
def Turn.desk (t : Turn) : Desk := ⟨t.worker.activity.standing, t.worker.session, t.broker⟩

/-- What a worker did. -/
inductive Deed
  /-- Nothing that is seen. -/
  | idle
  | joined
  | fetched
  | resolved (record : RawRecord)
  /-- It resolves none of the records at hand any more, and is about to leave. -/
  | gaveUp
  | left
  /-- It left in the middle of something. -/
  | cutOff
  /-- The broker refused a commit, perhaps after a record was resolved. -/
  | refused (record : Option RawRecord)

namespace Deed

/-- The record that was resolved. -/
def resolved? : Deed → Option RawRecord
  | .resolved r => some r
  | .refused r => r
  | _ => none

/-- Whether a commit was refused. -/
def isRefused : Deed → Bool
  | .refused _ => true
  | _ => false

theorem resolved_ne_cutOff (r : RawRecord) : resolved r ≠ .cutOff := nofun

end Deed

/-- The offsets after the last resolved records of a batch. -/
def offsetsAfter (last : Dict TopicPartition Int) : List CommitOffset :=
  last.entries.map fun e => .after e.1 e.2

/-- The offset after a record. -/
def offsetAfter (r : RawRecord) : CommitOffset := .after r.topicPartition r.offset

/-- **What a worker can do.** -/
inductive Move (plan : Plan) : Desk → Deed → Desk → Prop
  | idle (d : Desk) : Move plan d .idle d
  | join (s : Session) (b : Broker) :
      Move plan ⟨.outside, s, b⟩ .joined
        ⟨.reading [] ∅, (s.subscribe plan.topics b).1, (s.subscribe plan.topics b).2⟩
  | fetch {s s' : Session} {b b' : Broker} {records : List RawRecord}
      (h : s.fetch plan.listener.maxPollRecords b = .ok (records, s', b')) :
      Move plan ⟨.reading [] ∅, s, b⟩ .fetched ⟨.reading records ∅, s', b'⟩
  /-- The offset after the record is committed at once. -/
  | commitRecord {s : Session} {b b' : Broker} {r : RawRecord} {rest : List RawRecord}
      {batched : Dict TopicPartition Int} (hplan : plan.strategy = .afterRecord)
      (h : s.commit [offsetAfter r] .sync b = .ok b') :
      Move plan ⟨.reading (r :: rest) batched, s, b⟩ (.resolved r)
        ⟨.readingOn rest batched, s, b'⟩
  /-- The record is remembered for the commit of the batch. -/
  | rememberRecord {s : Session} {b : Broker} {r : RawRecord} {rest : List RawRecord}
      {batched : Dict TopicPartition Int} (hplan : plan.strategy = .afterBatch)
      (hrest : rest ≠ []) :
      Move plan ⟨.reading (r :: rest) batched, s, b⟩ (.resolved r)
        ⟨.reading rest (batched.insert r.topicPartition r.offset), s, b⟩
  /-- The record was the last one, and the batch is committed. -/
  | commitBatch {s : Session} {b b' : Broker} {r : RawRecord}
      {batched : Dict TopicPartition Int} (hplan : plan.strategy = .afterBatch)
      (h : s.commit (offsetsAfter (batched.insert r.topicPartition r.offset)) .sync b =
        .ok b') :
      Move plan ⟨.reading [r] batched, s, b⟩ (.resolved r) ⟨.reading [] ∅, s, b'⟩
  /-- The offset after the record is stored for the session to commit. -/
  | storeRecord {s s' : Session} {b : Broker} {r : RawRecord} {rest : List RawRecord}
      {batched : Dict TopicPartition Int} (hplan : plan.strategy = .auto)
      (h : s.store [offsetAfter r] = (.ok (), s')) :
      Move plan ⟨.reading (r :: rest) batched, s, b⟩ (.resolved r)
        ⟨.readingOn rest batched, s', b⟩
  /-- The session refuses to store the offset after the record. -/
  | refuseStore {s s' : Session} {b : Broker} {r : RawRecord} {rest : List RawRecord}
      {batched : Dict TopicPartition Int} {fault : BrokerFault}
      (h : s.store [offsetAfter r] = (.error fault, s')) :
      Move plan ⟨.reading (r :: rest) batched, s, b⟩ (.resolved r) ⟨.closing, s', b⟩
  | refuseRecord {s : Session} {b : Broker} {r : RawRecord} {rest : List RawRecord}
      {batched : Dict TopicPartition Int} (hplan : plan.strategy ≠ .auto) :
      Move plan ⟨.reading (r :: rest) batched, s, b⟩ (.refused (some r)) ⟨.closing, s, b⟩
  /-- It stops with nothing to commit. -/
  | giveUp {s : Session} {b : Broker} {pending : List RawRecord}
      {batched : Dict TopicPartition Int}
      (h : batched.isEmpty = true ∨ plan.strategy ≠ .afterBatch) :
      Move plan ⟨.reading pending batched, s, b⟩ .gaveUp ⟨.closing, s, b⟩
  /-- It stops, and commits what is resolved of the batch. -/
  | commitAndGiveUp {s : Session} {b b' : Broker} {pending : List RawRecord}
      {batched : Dict TopicPartition Int} (hplan : plan.strategy = .afterBatch)
      (h : s.commit (offsetsAfter batched) .sync b = .ok b') :
      Move plan ⟨.reading pending batched, s, b⟩ .gaveUp ⟨.closing, s, b'⟩
  | refuseGiveUp {s : Session} {b : Broker} {pending : List RawRecord}
      {batched : Dict TopicPartition Int} :
      Move plan ⟨.reading pending batched, s, b⟩ (.refused none) ⟨.closing, s, b⟩
  | leave (s : Session) (b : Broker) :
      Move plan ⟨.closing, s, b⟩ .left ⟨.gone, (s.leave b).1, (s.leave b).2⟩
  | cutOff {standing : Standing} (hstanding : standing ≠ .gone) (s : Session) (b : Broker) :
      Move plan ⟨standing, s, b⟩ .cutOff ⟨.gone, (s.leave b).1, (s.leave b).2⟩

/-! ### Every event is a move -/

/-- Whether a sample is a commit that was refused. -/
def Sample.isRefusedCommit : Sample → Bool
  | .commit _ _ success => !success
  | _ => false

/-- How many commits were refused so far. -/
def Turn.refusals (t : Turn) : Nat := t.samples.countP Sample.isRefusedCommit

/-- From one turn to another the worker did something. -/
structure Turn.Did (t : Turn) (deed : Deed) (t' : Turn) : Prop where
  move : Move t.worker.plan t.desk deed t'.desk
  plan : t'.worker.plan = t.worker.plan
  refused : deed.isRefused = true → t'.refusals = t.refusals + 1

namespace Turn

@[simp] theorem desk_enter (t : Turn) (a : Activity) :
    (t.enter a).desk = ⟨a.standing, t.worker.session, t.broker⟩ := rfl

@[simp] theorem desk_finish (t : Turn) (p : Phase) :
    (t.finish p).desk = ⟨.closing, t.worker.session, t.broker⟩ := rfl

theorem desk_eq {t : Turn} {standing : Standing} (h : t.desk.standing = standing) :
    t.desk = ⟨standing, t.worker.session, t.broker⟩ := by
  rw [← h]
  rfl

theorem standing_eq {t : Turn} {a : Activity} (h : t.worker.activity = a) :
    t.desk.standing = a.standing := by
  rw [desk, h]

theorem refusals_emit (t : Turn) (s : Sample) :
    (t.emit s).refusals = t.refusals + if s.isRefusedCommit then 1 else 0 := by
  rw [refusals, emit, List.countP_append, List.countP_singleton]
  rfl

/-- From one turn to another the worker did something that resolves this record, or none, and
was not cut off. -/
def Does (t : Turn) (record? : Option RawRecord) (t' : Turn) : Prop :=
  ∃ deed, Did t deed t' ∧ deed.resolved? = record? ∧ deed ≠ .cutOff

/-- What was counted before does not matter. -/
theorem Does.of_count {t t' : Turn} {record? : Option RawRecord}
    {f : WorkerMetrics → WorkerMetrics} (h : Does (t.count f) record? t') :
    Does t record? t' := by
  obtain ⟨deed, hdid, hresolved, hne⟩ := h
  exact ⟨deed, ⟨hdid.move, hdid.plan, hdid.refused⟩, hresolved, hne⟩

/-- What was sampled before does not matter, as long as it is no refused commit. -/
theorem Does.of_emit {t t' : Turn} {record? : Option RawRecord} {s : Sample}
    (hs : s.isRefusedCommit = false) (h : Does (t.emit s) record? t') : Does t record? t' := by
  obtain ⟨deed, hdid, hresolved, hne⟩ := h
  refine ⟨deed, ⟨hdid.move, hdid.plan, fun hrefused => ?_⟩, hresolved, hne⟩
  rw [hdid.refused hrefused, refusals_emit, hs]
  rfl

/-- A deed that is neither a refusal nor a cut-off. -/
theorem Does.of_move {t t' : Turn} (deed : Deed)
    (hmove : Move t.worker.plan t.desk deed t'.desk) (hplan : t'.worker.plan = t.worker.plan)
    (hdeed : deed.isRefused = false) (hcut : deed ≠ .cutOff) : Does t deed.resolved? t' := by
  refine ⟨deed, ⟨hmove, hplan, fun hrefused => ?_⟩, rfl, hcut⟩
  rw [hdeed] at hrefused
  cases hrefused

/-- A turn that changes nothing that is seen. -/
theorem does_nothing {t t' : Turn} (hdesk : t'.desk = t.desk)
    (hplan : t'.worker.plan = t.worker.plan) : Does t none t' := by
  refine .of_move .idle ?_ hplan rfl nofun
  rw [hdesk]
  exact .idle _

/-- Going on to an activity of the same standing is not seen. -/
theorem does_enter {t : Turn} {a : Activity} (h : t.desk.standing = a.standing) :
    Does t none (t.enter a) := by
  refine does_nothing ?_ rfl
  rw [desk_enter, desk_eq h]

/-! #### Commits -/

/-- A commit is accepted and the worker goes on, or it is refused and the worker is about to
leave. Either way the same is resolved. -/
theorem does_commitThen {t : Turn} {offsets : List CommitOffset} {next : Turn → Turn}
    (deed : Deed) (hdeed : deed.isRefused = false) (hcut : deed ≠ .cutOff)
    (accepted : ∀ b', t.worker.session.commit offsets .sync t.broker = .ok b' →
      ∀ t₁ : Turn, t₁.worker.plan = t.worker.plan → t₁.worker.session = t.worker.session →
        t₁.broker = b' →
          Move t.worker.plan t.desk deed (next t₁).desk ∧
            (next t₁).worker.plan = t.worker.plan)
    (refused : Move t.worker.plan t.desk (.refused deed.resolved?)
      ⟨.closing, t.worker.session, t.broker⟩) :
    Does t deed.resolved? (t.commitThen offsets next) := by
  rw [commitThen]
  split
  next b' hcommit =>
    -- What is counted and sampled for the commit does not show at the desk.
    obtain ⟨hmove, hplan⟩ := accepted b' hcommit
      (({ t with broker := b' }.count .committed).emit
        (.commit t.registration offsets.length true)) rfl rfl rfl
    exact .of_move deed hmove hplan hdeed hcut
  next fault _ => exact ⟨_, ⟨refused, rfl, fun _ => refusals_emit t _⟩, rfl, nofun⟩

/-- A worker that stops first commits what is resolved of the batch. -/
theorem does_giveUp {t : Turn} {pending : List RawRecord} {batched : Dict TopicPartition Int}
    (h : t.desk.standing = .reading pending batched) (p : Phase) :
    Does t none (t.commitResolvedThen batched (·.finish p)) := by
  rw [commitResolvedThen]
  split
  next hnothing =>
    refine .of_move .gaveUp ?_ rfl rfl nofun
    rw [desk_eq h]
    exact .giveUp (by simpa using hnothing)
  next hsomething =>
    have hplan : t.worker.plan.strategy = .afterBatch := by simp_all
    refine does_commitThen .gaveUp rfl nofun
      (fun b' hcommit t₁ hplan₁ hsession hbroker => ⟨?_, hplan₁⟩) ?_
    · rw [desk_finish, desk_eq h, hsession, hbroker]
      exact .commitAndGiveUp hplan hcommit
    · rw [desk_eq h]
      exact .refuseGiveUp

/-! #### Resolving -/

/-- After a record that leaves nothing to commit, the worker reads on. -/
theorem nextRecord_of_ne {t : Turn} (h : t.worker.plan.strategy ≠ .afterBatch) (job : Job) :
    (t.nextRecord job).desk =
        ⟨.readingOn job.rest job.resolved, t.worker.session, t.broker⟩ ∧
      (t.nextRecord job).worker.plan = t.worker.plan := by
  rw [nextRecord]
  split
  next hrest =>
    rw [commitResolvedThen, decide_eq_true h, Bool.or_true, if_pos rfl, hrest]
    exact ⟨rfl, rfl⟩
  next r rest hrest =>
    rw [hrest]
    exact ⟨rfl, rfl⟩

section Resolve

variable {t : Turn} {job : Job}
  (hstanding : t.desk.standing = .reading (job.record :: job.rest) job.resolved)

include hstanding

theorem does_resolve_afterRecord (hplan : t.worker.plan.strategy = .afterRecord) :
    Does t (some job.record) (t.resolve job) := by
  rw [resolve, hplan]
  refine does_commitThen _ rfl (Deed.resolved_ne_cutOff job.record)
    (fun b' hcommit t₁ hplan₁ hsession hbroker => ?_) ?_
  · have hne : t₁.worker.plan.strategy ≠ .afterBatch := by rw [hplan₁, hplan]; decide
    obtain ⟨hdesk, hkept⟩ := nextRecord_of_ne hne job
    refine ⟨?_, hkept.trans hplan₁⟩
    rw [hdesk, desk_eq hstanding, hsession, hbroker]
    exact .commitRecord hplan hcommit
  · rw [desk_eq hstanding]
    exact .refuseRecord (by rw [hplan]; decide)

theorem does_resolve_afterBatch (hplan : t.worker.plan.strategy = .afterBatch) :
    Does t (some job.record) (t.resolve job) := by
  rw [resolve, hplan]
  simp only [nextRecord]
  split
  next hrest =>
    -- The last record: the batch is committed, and it is not empty.
    have hsome : (job.resolved.insert job.record.topicPartition job.record.offset).isEmpty =
        false := Dict.isEmpty_insert _ _ _
    rw [commitResolvedThen, hsome, hplan, if_neg (by decide)]
    rw [hrest] at hstanding
    refine does_commitThen _ rfl (Deed.resolved_ne_cutOff job.record)
      (fun b' hcommit t₁ hplan₁ hsession hbroker => ⟨?_, hplan₁⟩) ?_
    · rw [desk_enter, desk_eq hstanding, hsession, hbroker]
      exact .commitBatch hplan hcommit
    · rw [desk_eq hstanding]
      exact .refuseRecord (by rw [hplan]; decide)
  next r rest hrest =>
    refine .of_move (.resolved job.record) ?_ rfl rfl (Deed.resolved_ne_cutOff _)
    rw [desk_eq hstanding, hrest]
    exact .rememberRecord hplan (List.cons_ne_nil r rest)

theorem does_resolve_auto (hplan : t.worker.plan.strategy = .auto) :
    Does t (some job.record) (t.resolve job) := by
  have hne : t.worker.plan.strategy ≠ .afterBatch := by rw [hplan]; decide
  rw [resolve, hplan]
  simp only
  split
  next s' hstore =>
    obtain ⟨hdesk, hkept⟩ := nextRecord_of_ne
      (t := { t with worker := { t.worker with session := s' } }) hne job
    refine .of_move (.resolved job.record) ?_ hkept rfl (Deed.resolved_ne_cutOff _)
    rw [hdesk, desk_eq hstanding]
    exact .storeRecord hplan hstore
  next fault s' hstore =>
    -- The record is resolved, but the worker ends without having stored its offset.
    refine .of_move (.resolved job.record) ?_ rfl rfl (Deed.resolved_ne_cutOff _)
    rw [desk_eq hstanding]
    exact .refuseStore hstore

/-- **A record is resolved**, by whatever strategy. -/
theorem does_resolve : Does t (some job.record) (t.resolve job) := by
  cases hplan : t.worker.plan.strategy with
  | auto => exact does_resolve_auto hstanding hplan
  | afterBatch => exact does_resolve_afterBatch hstanding hplan
  | afterRecord => exact does_resolve_afterRecord hstanding hplan

/-- A failure changes nothing that is seen. -/
theorem does_fail (kind : FailureKind) (message : String) :
    Does t none (t.fail job kind message) := by
  refine does_nothing ?_ rfl
  rw [fail, desk_enter, desk_eq hstanding]
  rfl

end Resolve

/-! #### Polling -/

theorem does_start (t : Turn) : Does t none t.start := by
  rw [start, startWith]
  split
  next hactivity =>
    refine .of_move .joined ?_ rfl rfl nofun
    rw [desk_eq (standing_eq hactivity)]
    exact .join _ _
  next => exact does_nothing rfl rfl

/-- A worker that reads without a record at hand may stop with nothing to commit. -/
theorem does_finish {t : Turn} (h : t.desk.standing = .reading [] ∅) (p : Phase) :
    Does t none (t.finish p) := by
  refine .of_move .gaveUp ?_ rfl rfl nofun
  rw [desk_eq h]
  exact .giveUp (.inl rfl)

theorem does_fetch {t : Turn} (h : t.desk.standing = .reading [] ∅) (now deadline : Nat) :
    Does t none (t.fetch now deadline) := by
  rw [fetch]
  split
  next fault _ => exact does_finish h _
  next s' b' hfetch =>
    refine .of_move .fetched ?_ ?_ rfl nofun
    · rw [desk_eq h]
      split <;> exact .fetch hfetch
    · split <;> rfl
  next r rest s' b' hfetch =>
    refine .of_move .fetched ?_ rfl rfl nofun
    rw [desk_eq h]
    exact .fetch hfetch

theorem does_poll (t : Turn) (now : Nat) : Does t none (t.poll now) := by
  rw [poll]
  split
  next hactivity =>
    split
    · exact does_finish (standing_eq hactivity) _
    · exact does_fetch (standing_eq hactivity) _ _
  next hactivity =>
    split
    · exact does_finish (standing_eq hactivity) _
    · split
      · exact does_fetch (standing_eq hactivity) _ _
      · exact does_nothing rfl rfl
  next => exact does_nothing rfl rfl

/-! #### Answers of the application -/

theorem does_keyDecoded (t : Turn) (result : Except String Unit) :
    Does t none (t.keyDecoded result) := by
  unfold keyDecoded
  split
  next hactivity =>
    have hstanding := standing_eq hactivity
    exact does_enter hstanding
  next hactivity => exact does_fail (standing_eq hactivity) _ _
  next => exact does_nothing rfl rfl

theorem does_valueDecoded (t : Turn) (result : Except String Unit) :
    Does t none (t.valueDecoded result) := by
  unfold valueDecoded
  split
  next hactivity =>
    have hstanding := standing_eq hactivity
    exact does_enter hstanding
  next hactivity => exact does_fail (standing_eq hactivity) _ _
  next => exact does_nothing rfl rfl

/-- A handler's answer resolves the record exactly if it is accepted. -/
theorem does_handled (t : Turn) (millis : Float) (result : HandlerResult) :
    Does t (t.worker.resolves? (.handled millis result)) (t.handled millis result) := by
  unfold handled
  split
  next job hactivity =>
    have hstanding := standing_eq hactivity
    simp only [Worker.resolves?.eq_def, hactivity]
    cases result with
    | accepted =>
      exact .of_count <| .of_emit rfl <| .of_count <| .of_emit rfl <| does_resolve hstanding
    | failed message =>
      have h := does_fail (t := (t.count (·.observe millis)).emit
        (.handlerDuration t.registration millis)) hstanding .handler message
      exact .of_count <| .of_emit rfl h
    | panicked payload =>
      have h := does_fail (t := (t.count (·.observe millis)).emit
        (.handlerDuration t.registration millis)) hstanding .handler
        ("handler panicked: " ++ payload.getD "non-string payload")
      exact .of_count <| .of_emit rfl h
  next hactivity =>
    -- An answer that nobody waits for resolves nothing.
    have hnone : t.worker.resolves? (.handled millis result) = none := by
      simp only [Worker.resolves?.eq_def]
      split
      next job hother => exact absurd hother (hactivity job)
      next => rfl
    rw [hnone]
    exact does_nothing rfl rfl

/-- The policy's decision resolves the record exactly if it is to go on. -/
theorem does_decided (t : Turn) (now : Nat) (d : Decision) :
    Does t (t.worker.resolves? (.decided d)) (t.decided now d) := by
  unfold decided
  split
  next job failure hactivity =>
    have hstanding := standing_eq hactivity
    simp only [Worker.resolves?.eq_def, hactivity]
    cases d with
    | proceed => exact .of_emit rfl <| .of_count <| .of_emit rfl <| does_resolve hstanding
    | stop =>
      have h := does_giveUp (t := (t.emit (.decision t.registration .stop)).emit
        (.outcome t.registration job.record.topic .stopped)) hstanding
        (.failed s!"{failure.text} ({job.record.place})")
      exact .of_emit rfl <| .of_emit rfl h
    | retry backoff =>
      simp only
      split
      · have h := does_giveUp (t := (t.emit (.decision t.registration (.retry backoff))).count
          .retryDecided) hstanding .stopped
        exact .of_emit rfl <| .of_count h
      · exact .of_emit rfl <| .of_count <| does_enter hstanding
  next hactivity =>
    have hnone : t.worker.resolves? (.decided d) = none := by
      cases d with
      | proceed => simp only [Worker.resolves?.eq_def]
      | stop => rfl
      | retry backoff => rfl
    rw [hnone]
    exact does_nothing rfl rfl

theorem does_resume (t : Turn) (now : Nat) : Does t none (t.resume now) := by
  rw [resume]
  split
  next job deadline hactivity =>
    have hstanding := standing_eq hactivity
    split
    · exact does_giveUp hstanding _
    · split
      · exact does_enter hstanding
      · exact does_nothing rfl rfl
  next => exact does_nothing rfl rfl

/-! #### Ends -/

theorem does_close (t : Turn) : Does t none t.close := by
  rw [close]
  split
  next p hactivity =>
    refine .of_move .left ?_ rfl rfl nofun
    rw [desk_eq (standing_eq hactivity)]
    exact .leave _ _
  next => exact does_nothing rfl rfl

theorem desk_reportEnd (t : Turn) (p : Phase) : (t.reportEnd p).desk = t.desk := by
  rw [reportEnd]
  split <;> rfl

theorem plan_reportEnd (t : Turn) (p : Phase) : (t.reportEnd p).worker.plan = t.worker.plan := by
  rw [reportEnd]
  split <;> rfl

theorem does_join (t : Turn) : Does t none t.join := by
  rw [join]
  split
  · exact does_nothing (desk_reportEnd t _) (plan_reportEnd t _)
  · exact does_nothing rfl rfl

theorem did_crash (t : Turn) (message : String) :
    (Did t .cutOff (t.crash message) ∧ t.worker.isCutOffBy (.crash message) = true) ∨
      Does t none (t.crash message) := by
  rw [crash]
  split
  next hruns =>
    refine .inl ⟨⟨.cutOff ?_ _ _, rfl, nofun⟩, hruns⟩
    show t.worker.activity.standing ≠ .gone
    cases hactivity : t.worker.activity <;> simp_all [runsApplication, Activity.standing]
  next => exact .inr (does_nothing rfl rfl)

theorem did_abort (t : Turn) :
    (Did t .cutOff t.abort ∧ t.worker.isCutOffBy .abort = true) ∨ Does t none t.abort := by
  rw [abort]
  split
  next => exact .inr (does_close t)
  next hclosing =>
    split
    next => exact .inr (does_join t)
    next hover =>
      refine .inl ⟨⟨?_, plan_reportEnd _ _, nofun⟩, ?_⟩
      · rw [desk_reportEnd]
        refine .cutOff ?_ _ _
        show t.worker.activity.standing ≠ .gone
        cases hactivity : t.worker.activity <;> simp_all [Activity.isOver, Activity.standing]
      · -- Whoever is neither closing nor over is cut off by an abort.
        unfold Worker.isCutOffBy
        split
        next hother => contradiction
        next => simpa using hover
        next => contradiction

end Turn

/-- **Every event is a move.** What it resolves is read off the deed, and only breakdowns and
aborts cut a worker off. -/
theorem WorkerEvent.did (ev : WorkerEvent) (now : Nat) (t : Turn) :
    ∃ deed, t.Did deed (ev.apply now t) ∧ deed.resolved? = t.worker.resolves? ev ∧
      (deed = .cutOff → t.worker.isCutOffBy ev = true) := by
  have hdoes : ∀ {t' : Turn}, t.Does (t.worker.resolves? ev) t' → ∃ deed, t.Did deed t' ∧
      deed.resolved? = t.worker.resolves? ev ∧
        (deed = .cutOff → t.worker.isCutOffBy ev = true) := by
    rintro t' ⟨deed, hdid, hresolved, hne⟩
    exact ⟨deed, hdid, hresolved, fun hcut => absurd hcut hne⟩
  cases ev with
  | start => exact hdoes t.does_start
  | poll => exact hdoes (t.does_poll now)
  | keyDecoded result => exact hdoes (t.does_keyDecoded result)
  | valueDecoded result => exact hdoes (t.does_valueDecoded result)
  | handled millis result => exact hdoes (t.does_handled millis result)
  | decided d => exact hdoes (t.does_decided now d)
  | resume => exact hdoes (t.does_resume now)
  | close => exact hdoes t.does_close
  | crash message =>
    rcases t.did_crash message with ⟨hdid, hcut⟩ | hnothing
    · exact ⟨_, hdid, rfl, fun _ => hcut⟩
    · exact hdoes hnothing
  | requestStop => exact hdoes (Turn.does_nothing rfl rfl)
  | abandon => exact hdoes (Turn.does_nothing rfl rfl)
  | join => exact hdoes t.does_join
  | abort =>
    rcases t.did_abort with ⟨hdid, hcut⟩ | hnothing
    · exact ⟨_, hdid, rfl, fun _ => hcut⟩
    · exact hdoes hnothing

end StreamDispatch
