import Mathlib.Data.List.Basic
import StreamDispatch.Proofs.Session.Operations
import StreamDispatch.Proofs.Worker.Move

/-!
# The course of a batch

A worker takes the records of a batch one after the other through their attempts, until each
has its `StreamDispatch.Verdict` or one of them makes it stop. What it does about the verdicts
depends on its strategy: it commits after each record, or remembers the last offset of each
partition and commits them together, or has its session store them. This file follows all
three through a batch at once.

While a batch is processed nothing comes to the worker but answers of the application, time,
and requests to stop (`StreamDispatch.WorkerEvent.isPartOfBatch`). Others may go on with the
broker meanwhile, as long as the worker finds its books as it left them
(`StreamDispatch.Turn.SameBooks`).

## The shape of the argument

An event in the middle of a batch does one of three things (`StreamDispatch.Turn.step_apply`):
the record at hand stays at hand, it is resolved, or the worker stops in front of it. What the
worker has to show for the records that it has resolved is said once, by strategy, for the
middle of a batch (`StreamDispatch.Turn.Resolved`) and for its end
(`StreamDispatch.Turn.Flushed`), and one lemma for resolving and one for the end of the batch
lead from the first to the second.

## Main definitions

* `StreamDispatch.Verdict`, `StreamDispatch.Worker.verdict?`: what becomes of a record.
* `StreamDispatch.Turn.HasBatch`, `StreamDispatch.Turn.Works`: the beginning of a batch, and
  what happens until it is over.
-/

namespace StreamDispatch

/-! ### Verdicts -/

/-- What becomes of a record that is dispatched. -/
inductive Verdict
  /-- The handler accepted it. -/
  | processed
  /-- The policy decided to skip it. -/
  | skipped
  /-- The policy decided to stop. -/
  | stopped
  /-- The worker was asked to stop when the record was to be tried again. -/
  | interrupted
  deriving DecidableEq, Repr

/-- Whether the record is done. -/
def Verdict.isResolved : Verdict → Bool
  | .processed => true
  | .skipped => true
  | .stopped => false
  | .interrupted => false

/-- The verdict on the record at hand that an event brings about. -/
def Worker.verdict? (w : Worker) (ev : WorkerEvent) : Option (RawRecord × Verdict) :=
  match w.activity, ev with
  | .working job .handler, .handled _ .accepted => some (job.record, .processed)
  | .working job (.deciding _), .decided .proceed => some (job.record, .skipped)
  | .working job (.deciding _), .decided .stop => some (job.record, .stopped)
  | .working job (.deciding _), .decided (.retry _) =>
    if w.stopping then some (job.record, .interrupted) else none
  | .working job (.backoff _), .resume =>
    if w.stopping then some (job.record, .interrupted) else none
  | _, _ => none

/-- The records that a worker resolves are those with such a verdict. -/
theorem Worker.resolves?_eq (w : Worker) (ev : WorkerEvent) :
    w.resolves? ev = ((w.verdict? ev).filter fun d => d.2.isResolved).map (·.1) := by
  unfold resolves? verdict?
  generalize w.activity = activity
  cases activity with
  | working job stage =>
    cases ev with
    | handled millis result => cases stage <;> cases result <;> rfl
    | decided decision =>
      cases decision <;> cases stage <;> first | rfl | (dsimp only; split <;> rfl)
    | resume => cases stage <;> first | rfl | (dsimp only; split <;> rfl)
    | _ => cases stage <;> rfl
  | _ =>
    cases ev with
    | decided decision => cases decision <;> rfl
    | _ => rfl

/-- What may come to a worker while it processes a batch: answers of the application, time,
and that it is to stop. -/
def WorkerEvent.isPartOfBatch : WorkerEvent → Bool
  | .keyDecoded _ => true
  | .valueDecoded _ => true
  | .handled _ _ => true
  | .decided _ => true
  | .resume => true
  | .requestStop => true
  | .abandon => true
  | _ => false

/-! ### What is committed -/

/-- The last offset of a partition among some records. -/
def lastIn (tp : TopicPartition) (records : List RawRecord) : Option Int :=
  (offsetsIn tp records).getLast?

theorem lastIn_concat (tp : TopicPartition) (records : List RawRecord) (r : RawRecord) :
    lastIn tp (records ++ [r]) =
      if r.topicPartition = tp then some r.offset else lastIn tp records := by
  rw [lastIn, offsetsIn_append, offsetsIn_cons]
  split
  · exact List.getLast?_concat
  · rw [offsetsIn_nil, List.append_nil, lastIn]

/-- Whether a sample is a commit of a registration. -/
def Sample.isCommitOf (registration : String) : Sample → Bool
  | .commit name _ _ => name = registration
  | _ => false

namespace Turn

/-- The commits that the worker's registration has tried so far. -/
def commits (t : Turn) : List Sample := t.samples.filter (Sample.isCommitOf t.registration)

/-- The entry of a commit by the worker's session. -/
def entry (t : Turn) (offset : CommitOffset) : CommitEntry :=
  ⟨t.worker.session.group, t.worker.session.client, offset, .sync⟩

/-- Where the group of the worker is in a partition once some records are committed. -/
def reached (t : Turn) (records : List RawRecord) (tp : TopicPartition) : Option Int :=
  ((lastIn tp records).map (· + 1)).or (t.broker.committed t.worker.session.group tp)

theorem reached_concat (t : Turn) (records : List RawRecord) (r : RawRecord)
    (tp : TopicPartition) :
    t.reached (records ++ [r]) tp =
      if r.topicPartition = tp then some (r.offset + 1) else t.reached records tp := by
  rw [reached, lastIn_concat]
  split <;> rfl

/-! ### A batch and its course -/

/-- The worker's session is a member of its group. -/
def IsMember (t : Turn) : Prop :=
  ((t.broker.group t.worker.session.group).members.get? t.worker.session.member).isSome = true

instance (t : Turn) : Decidable t.IsMember := inferInstanceAs (Decidable (_ = true))

/-- **A worker is about to process a batch**, which its session has just fetched: it is a
member of its group, has seen the group's present generation, has all partitions of the batch
and nothing stored, and commits are accepted. -/
structure HasBatch (t : Turn) (batch : List RawRecord) : Prop where
  atHand : ∃ r rest, batch = r :: rest ∧ t.worker.activity = .working ⟨r, rest, 1, ∅⟩ .key
  joined : t.worker.session.subscribed = true
  member : t.IsMember
  seen : (t.broker.group t.worker.session.group).generation = t.worker.session.generation
  assigned : ∀ r ∈ batch, r.topicPartition ∈ t.worker.session.assigned
  stored : ∀ tp, t.worker.session.stored.get? tp = none
  auto : t.worker.session.autoCommit = t.worker.plan.strategy.isAuto
  accepts : t.broker.faults.commit = false

/-- Two turns with the same session and commits, that find the same group. -/
structure SameBooks (t t' : Turn) : Prop where
  plan : t'.worker.plan = t.worker.plan
  session : t'.worker.session = t.worker.session
  group : t'.broker.group t.worker.session.group = t.broker.group t.worker.session.group
  entries : t'.broker.entriesOf t.worker.session.group =
    t.broker.entriesOf t.worker.session.group
  faults : t'.broker.faults.commit = t.broker.faults.commit
  commits : t'.commits = t.commits

/-- **What happens while a batch is processed**, with the verdicts in order: events of the
worker, and whatever others do that leaves the worker where it is and its books as they are. -/
inductive Works (t : Turn) : List (RawRecord × Verdict) → Turn → Prop
  | begins : Works t [] t
  | event {done : List (RawRecord × Verdict)} {t' : Turn} (before : Works t done t') (now : Nat)
      {ev : WorkerEvent} (hev : ev.isPartOfBatch = true) :
      Works t (done ++ (t'.worker.verdict? ev).toList) (ev.apply now t')
  | aside {done : List (RawRecord × Verdict)} {t' t'' : Turn} (before : Works t done t')
      (books : t'.SameBooks t'') (activity : t''.worker.activity = t'.worker.activity) :
      Works t done t''

/-! ### What an event does to a batch -/

theorem sameBooks_refl (t : Turn) : t.SameBooks t := ⟨rfl, rfl, rfl, rfl, rfl, rfl⟩

theorem SameBooks.trans {t t' t'' : Turn} (h : t.SameBooks t') (h' : t'.SameBooks t'') :
    t.SameBooks t'' where
  plan := h'.plan.trans h.plan
  session := h'.session.trans h.session
  group := (h.session ▸ h'.group).trans h.group
  entries := (h.session ▸ h'.entries).trans h.entries
  faults := h'.faults.trans h.faults
  commits := h'.commits.trans h.commits

theorem SameBooks.enter {t t' : Turn} (h : t.SameBooks t') (a : Activity) :
    t.SameBooks (t'.enter a) := ⟨h.plan, h.session, h.group, h.entries, h.faults, h.commits⟩

theorem SameBooks.count {t t' : Turn} (h : t.SameBooks t') (f : WorkerMetrics → WorkerMetrics) :
    t.SameBooks (t'.count f) := ⟨h.plan, h.session, h.group, h.entries, h.faults, h.commits⟩

theorem SameBooks.emit {t t' : Turn} (h : t.SameBooks t') {sample : Sample}
    (hsample : sample.isCommitOf t'.registration = false) : t.SameBooks (t'.emit sample) := by
  refine ⟨h.plan, h.session, h.group, h.entries, h.faults, ?_⟩
  rw [Turn.commits, show (t'.emit sample).registration = t'.registration from rfl, Turn.emit,
    List.filter_append, List.filter_singleton, hsample]
  exact (List.append_nil _).trans h.commits

/-- **What an event does in the middle of a batch**: the record stays at hand, it is resolved,
or the worker stops in front of it. -/
inductive Step (t : Turn) (job : Job) : Option (RawRecord × Verdict) → Turn → Prop
  | goesOn {t' : Turn} (books : t.SameBooks t') {job' : Job} {stage : Stage}
      (activity : t'.worker.activity = .working job' stage) (record : job'.record = job.record)
      (rest : job'.rest = job.rest) (resolved : job'.resolved = job.resolved) : Step t job none t'
  | resolves {t' : Turn} (books : t.SameBooks t') {verdict : Verdict}
      (hverdict : verdict.isResolved = true) :
      Step t job (some (job.record, verdict)) (t'.resolve job)
  | stops {t' : Turn} (books : t.SameBooks t') {verdict : Verdict}
      (hverdict : verdict.isResolved = false) (p : Phase) :
      Step t job (some (job.record, verdict))
        (t'.commitResolvedThen job.resolved (·.enter (.closing p)))

/-- After a failure the record stays at hand. -/
theorem step_fail {t t' : Turn} (h : t.SameBooks t') (job : Job) (kind : FailureKind)
    (message : String) : t.Step job none (t'.fail job kind message) :=
  .goesOn ((h.count _).enter _) rfl rfl rfl rfl

theorem step_handled {t : Turn} {job : Job} (h : t.worker.activity = .working job .handler)
    (millis : Float) (result : HandlerResult) :
    t.Step job (t.worker.verdict? (.handled millis result)) (t.handled millis result) := by
  have hbooks : t.SameBooks ((t.count (·.observe millis)).emit
      (.handlerDuration t.registration millis)) := ((sameBooks_refl t).count _).emit rfl
  unfold handled
  simp only [h]
  cases result with
  | accepted =>
    simp only [Worker.verdict?.eq_def, h]
    exact .resolves ((hbooks.count _).emit rfl) rfl
  | failed message =>
    simp only [Worker.verdict?.eq_def, h]
    exact step_fail hbooks job .handler message
  | panicked payload =>
    simp only [Worker.verdict?.eq_def, h]
    exact step_fail hbooks job .handler _

theorem step_decided {t : Turn} {job : Job} {failure : RecordFailure}
    (h : t.worker.activity = .working job (.deciding failure)) (now : Nat) (d : Decision) :
    t.Step job (t.worker.verdict? (.decided d)) (t.decided now d) := by
  have hbooks : t.SameBooks (t.emit (.decision t.registration d)) := (sameBooks_refl t).emit rfl
  unfold decided
  simp only [h]
  cases d with
  | proceed =>
    simp only [Worker.verdict?.eq_def, h]
    exact .resolves ((hbooks.count _).emit rfl) rfl
  | stop =>
    simp only [Worker.verdict?.eq_def, h]
    exact .stops (hbooks.emit rfl) rfl _
  | retry backoff =>
    simp only [Worker.verdict?.eq_def, h]
    cases hstopping : t.worker.stopping with
    | true =>
      rw [if_pos rfl, if_pos (by exact hstopping)]
      exact .stops (hbooks.count _) rfl _
    | false =>
      rw [if_neg (by decide), if_neg (by show ¬ t.worker.stopping = true; rw [hstopping]; decide)]
      exact .goesOn ((hbooks.count _).enter _) rfl rfl rfl rfl

theorem step_resume {t : Turn} {job : Job} {deadline : Nat}
    (h : t.worker.activity = .working job (.backoff deadline)) (now : Nat) :
    t.Step job (t.worker.verdict? .resume) (t.resume now) := by
  rw [resume]
  simp only [Worker.verdict?.eq_def, h]
  cases hstopping : t.worker.stopping with
  | true => exact .stops (sameBooks_refl t) rfl _
  | false =>
    rw [if_neg (by decide), if_neg (by decide)]
    split
    · exact .goesOn ((sameBooks_refl t).enter _) rfl rfl rfl rfl
    · exact .goesOn (sameBooks_refl t) h rfl rfl rfl

/-- **Every event in the middle of a batch** does one of the three. -/
theorem step_apply {t : Turn} {job : Job} {stage : Stage}
    (h : t.worker.activity = .working job stage) (now : Nat) {ev : WorkerEvent}
    (hev : ev.isPartOfBatch = true) : t.Step job (t.worker.verdict? ev) (ev.apply now t) := by
  have hsame : t.Step job none t := .goesOn (sameBooks_refl t) h rfl rfl rfl
  cases ev with
  | keyDecoded result =>
    have hverdict : t.worker.verdict? (.keyDecoded result) = none := by
      simp only [Worker.verdict?.eq_def, h]
    rw [hverdict, WorkerEvent.apply, keyDecoded.eq_def, h]
    cases stage with
    | key =>
      cases result with
      | ok _ => exact .goesOn ((sameBooks_refl t).enter _) rfl rfl rfl rfl
      | error message => exact step_fail (sameBooks_refl t) job _ message
    | _ => cases result <;> exact hsame
  | valueDecoded result =>
    have hverdict : t.worker.verdict? (.valueDecoded result) = none := by
      simp only [Worker.verdict?.eq_def, h]
    rw [hverdict, WorkerEvent.apply, valueDecoded.eq_def, h]
    cases stage with
    | value =>
      cases result with
      | ok _ => exact .goesOn ((sameBooks_refl t).enter _) rfl rfl rfl rfl
      | error message => exact step_fail (sameBooks_refl t) job _ message
    | _ => cases result <;> exact hsame
  | handled millis result =>
    cases stage with
    | handler => exact step_handled h millis result
    | _ => simpa only [Worker.verdict?.eq_def, WorkerEvent.apply, handled, h] using hsame
  | decided d =>
    cases stage with
    | deciding failure => exact step_decided h now d
    | _ => simpa only [Worker.verdict?.eq_def, WorkerEvent.apply, decided, h] using hsame
  | resume =>
    cases stage with
    | backoff deadline => exact step_resume h now
    | _ => simpa only [Worker.verdict?.eq_def, WorkerEvent.apply, resume, h] using hsame
  | requestStop =>
    have hverdict : t.worker.verdict? .requestStop = none := by
      simp only [Worker.verdict?.eq_def, h]
    rw [hverdict]
    exact .goesOn ⟨rfl, rfl, rfl, rfl, rfl, rfl⟩ h rfl rfl rfl
  | abandon =>
    have hverdict : t.worker.verdict? .abandon = none := by
      simp only [Worker.verdict?.eq_def, h]
    rw [hverdict]
    exact .goesOn ⟨rfl, rfl, rfl, rfl, rfl, rfl⟩ h rfl rfl rfl
  | _ => cases hev

/-- Once a batch is over, nothing that is part of a batch does anything to it. -/
theorem rests_apply {t : Turn} (h : ∀ job stage, t.worker.activity ≠ .working job stage) (now : Nat)
    {ev : WorkerEvent} (hev : ev.isPartOfBatch = true) :
    t.worker.verdict? ev = none ∧ t.SameBooks (ev.apply now t) ∧
      (ev.apply now t).worker.activity = t.worker.activity := by
  have hverdict : t.worker.verdict? ev = none := by
    unfold Worker.verdict?
    split <;> first | rfl | exact absurd ‹_› (h _ _)
  refine ⟨hverdict, ?_⟩
  have hsame : t.SameBooks t ∧ t.worker.activity = t.worker.activity := ⟨sameBooks_refl t, rfl⟩
  cases ev with
  | keyDecoded result =>
    rw [WorkerEvent.apply, keyDecoded.eq_def]
    split <;> first | exact hsame | exact absurd ‹_› (h _ _)
  | valueDecoded result =>
    rw [WorkerEvent.apply, valueDecoded.eq_def]
    split <;> first | exact hsame | exact absurd ‹_› (h _ _)
  | handled millis result =>
    rw [WorkerEvent.apply, handled.eq_def]
    split <;> first | exact hsame | exact absurd ‹_› (h _ _)
  | decided d =>
    rw [WorkerEvent.apply, decided.eq_def]
    split <;> first | exact hsame | exact absurd ‹_› (h _ _)
  | resume =>
    rw [WorkerEvent.apply, resume.eq_def]
    split <;> first | exact hsame | exact absurd ‹_› (h _ _)
  | requestStop => exact ⟨⟨rfl, rfl, rfl, rfl, rfl, rfl⟩, rfl⟩
  | abandon => exact ⟨⟨rfl, rfl, rfl, rfl, rfl, rfl⟩, rfl⟩
  | _ => cases hev

/-! ### What the records of a batch leave behind -/

/-- What a batch leaves alone: the session up to what it has stored, and the dealing of its
group. Commits are accepted all the time. -/
structure Kept (t t' : Turn) : Prop where
  plan : t'.worker.plan = t.worker.plan
  session : t'.worker.session =
    { t.worker.session with stored := t'.worker.session.stored }
  deal : (t.broker.group t.worker.session.group).SameDeal
    (t'.broker.group t.worker.session.group)
  accepts : t'.broker.faults.commit = false

/-- **In the middle of a batch**, once some records are resolved: they are committed one by
one, or remembered, or stored, as the strategy says. -/
structure Resolved (t : Turn) (records : List RawRecord) (batched : Dict TopicPartition Int)
    (t' : Turn) : Prop extends Kept t t' where
  committed : ∀ tp, t'.broker.committed t.worker.session.group tp =
    if t.worker.plan.strategy = .afterRecord then t.reached records tp
    else t.broker.committed t.worker.session.group tp
  batched : ∀ tp, batched.get? tp =
    if t.worker.plan.strategy = .afterBatch then lastIn tp records else none
  stored : ∀ tp, t'.worker.session.stored.get? tp =
    if t.worker.plan.strategy = .auto then (lastIn tp records).map (· + 1) else none
  entries : t'.broker.entriesOf t.worker.session.group =
    t.broker.entriesOf t.worker.session.group ++
      if t.worker.plan.strategy = .afterRecord then
        records.map fun r => t.entry (offsetAfter r)
      else []
  commits : t'.commits = t.commits ++
    if t.worker.plan.strategy = .afterRecord then
      records.map fun _ => .commit t.registration 1 true
    else []

/-- **At the end of a batch**: the group is behind the resolved records, or will be once what
is stored is committed. -/
structure Flushed (t : Turn) (records : List RawRecord) (t' : Turn) : Prop extends Kept t t' where
  committed : ∀ tp, t'.broker.committed t.worker.session.group tp =
    if t.worker.plan.strategy = .auto then t.broker.committed t.worker.session.group tp
    else t.reached records tp
  stored : ∀ tp, t'.worker.session.stored.get? tp =
    if t.worker.plan.strategy = .auto then (lastIn tp records).map (· + 1) else none
  afterRecord : t.worker.plan.strategy = .afterRecord →
    t'.broker.entriesOf t.worker.session.group =
        t.broker.entriesOf t.worker.session.group ++
          records.map (fun r => t.entry (offsetAfter r)) ∧
      t'.commits = t.commits ++ records.map fun _ => .commit t.registration 1 true
  afterBatch : t.worker.plan.strategy = .afterBatch →
    ∃ last : Dict TopicPartition Int, (∀ tp, last.get? tp = lastIn tp records) ∧
      t'.broker.entriesOf t.worker.session.group =
        t.broker.entriesOf t.worker.session.group ++ (offsetsAfter last).map t.entry ∧
      t'.commits = t.commits ++
        if records = [] then [] else [.commit t.registration last.size true]
  auto : t.worker.plan.strategy = .auto →
    t'.broker.entriesOf t.worker.session.group = t.broker.entriesOf t.worker.session.group ∧
      t'.commits = t.commits

variable {t t' t'' : Turn} {batch records : List RawRecord} {batched : Dict TopicPartition Int}

theorem Kept.group (h : t.Kept t') : t'.worker.session.group = t.worker.session.group := by
  rw [h.session]

/-- The worker stays a member. -/
theorem Kept.isMember (h : t.Kept t') (hmember : t.IsMember) : t'.IsMember := by
  rw [IsMember, h.group, h.deal.members, h.session]
  exact hmember

/-- Nothing that leaves the books as they are matters. -/
theorem Kept.of_books (h : t.Kept t') (hbooks : t'.SameBooks t'') : t.Kept t'' where
  plan := hbooks.plan.trans h.plan
  session := by rw [hbooks.session, ← h.session]
  deal := by
    rw [← h.group, hbooks.group, h.group]
    exact h.deal
  accepts := hbooks.faults.trans h.accepts

theorem Kept.committed_of_books (h : t.Kept t') (hbooks : t'.SameBooks t'')
    (tp : TopicPartition) :
    t''.broker.committed t.worker.session.group tp =
      t'.broker.committed t.worker.session.group tp := by
  rw [← h.group, Broker.committed_eq, hbooks.group, Broker.committed_eq]

theorem Kept.entries_of_books (h : t.Kept t') (hbooks : t'.SameBooks t'') :
    t''.broker.entriesOf t.worker.session.group =
      t'.broker.entriesOf t.worker.session.group := by
  rw [← h.group, hbooks.entries]

/-- What the session has stored may change. -/
theorem Kept.store (h : t.Kept t') (stored : Dict TopicPartition Int) :
    t.Kept { t' with worker := { t'.worker with
      session := { t'.worker.session with stored := stored } } } where
  plan := h.plan
  session := congrArg (fun s : Session => { s with stored := stored }) h.session
  deal := h.deal
  accepts := h.accepts

theorem Resolved.of_books (h : t.Resolved records batched t') (hbooks : t'.SameBooks t'') :
    t.Resolved records batched t'' where
  toKept := h.toKept.of_books hbooks
  committed tp := (h.committed_of_books hbooks tp).trans (h.committed tp)
  batched := h.batched
  stored := by rw [hbooks.session]; exact h.stored
  entries := (h.entries_of_books hbooks).trans h.entries
  commits := hbooks.commits.trans h.commits

theorem Flushed.of_books (h : t.Flushed records t') (hbooks : t'.SameBooks t'') :
    t.Flushed records t'' where
  toKept := h.toKept.of_books hbooks
  committed tp := (h.committed_of_books hbooks tp).trans (h.committed tp)
  stored := by rw [hbooks.session]; exact h.stored
  afterRecord := by rw [h.entries_of_books hbooks, hbooks.commits]; exact h.afterRecord
  afterBatch := by rw [h.entries_of_books hbooks, hbooks.commits]; exact h.afterBatch
  auto := by rw [h.entries_of_books hbooks, hbooks.commits]; exact h.auto

/-! ### Commits of a member -/

/-- **A member's commit is accepted**, and the worker goes on with the offsets committed and
the commit written down. -/
theorem commitThen_accepted (hkept : t.Kept t') (hmember : t.IsMember)
    (offsets : List CommitOffset) (next : Turn → Turn) :
    ∃ t₁, t'.commitThen offsets next = next t₁ ∧
      t'.worker.session.commit offsets .sync t'.broker = .ok t₁.broker ∧
      t.Kept t₁ ∧ t₁.worker.session = t'.worker.session ∧
      t₁.broker.entriesOf t.worker.session.group =
        t'.broker.entriesOf t.worker.session.group ++ offsets.map t.entry ∧
      t₁.commits = t'.commits ++ [.commit t.registration offsets.length true] := by
  have hclient : t'.worker.session.client = t.worker.session.client := by rw [hkept.session]
  have hregistration : t'.registration = t.registration := by
    rw [Turn.registration, hkept.plan, Turn.registration]
  obtain ⟨b', hcommit, hfaults, hlog⟩ := Session.commit_accepted hkept.accepts
    (hkept.isMember hmember) offsets .sync
  refine ⟨(({ t' with broker := b' }.count .committed).emit
    (.commit t'.registration offsets.length true)), ?_, hcommit, ?_, rfl, ?_, ?_⟩
  · rw [commitThen, hcommit]
  · have hdeal := Session.sameDeal_commit hcommit
    rw [hkept.group] at hdeal
    exact
      { plan := hkept.plan
        session := hkept.session
        deal := hkept.deal.trans hdeal
        accepts := (congrArg BrokerFaults.commit hfaults).trans hkept.accepts }
  · -- All entries of the commit are for the group of the worker.
    rw [hkept.group, hclient] at hlog
    exact Broker.entriesOf_logged hlog
  · -- The sample is one of the registration.
    rw [Turn.commits, Turn.emit, List.filter_append]
    congr 1
    rw [hregistration]
    exact List.filter_cons_of_pos (decide_eq_true hregistration.symm)

/-- Nothing is remembered exactly if no record is resolved. -/
theorem isEmpty_batched (h : ∀ tp, batched.get? tp = lastIn tp records) :
    batched.isEmpty = true ↔ records = [] := by
  constructor
  · intro hempty
    refine List.eq_nil_iff_forall_not_mem.mpr fun r hr => ?_
    obtain ⟨before, after, rfl⟩ := List.append_of_mem hr
    have hlast := (h r.topicPartition).symm.trans (Dict.get?_eq_none_of_isEmpty hempty _)
    rw [lastIn, List.getLast?_eq_none_iff, offsetsIn_append, offsetsIn_cons, if_pos rfl] at hlast
    simp at hlast
  · rintro rfl
    exact Dict.isEmpty_of_get?_eq_none h

/-- Unless they are committed together, the resolved records are flushed already. -/
theorem Resolved.flushed_of_ne (h : t.Resolved records batched t')
    (hplan : t.worker.plan.strategy ≠ .afterBatch) : t.Flushed records t' := by
  have hcommitted := h.committed
  have hentries := h.entries
  have hcommits := h.commits
  cases hstrategy : t.worker.plan.strategy with
  | afterRecord =>
    simp only [hstrategy, if_true] at hcommitted hentries hcommits
    refine ⟨h.toKept, ?_, h.stored, fun _ => ⟨hentries, hcommits⟩, ?_, ?_⟩ <;>
      simp [hstrategy, hcommitted]
  | auto =>
    simp only [hstrategy, reduceCtorEq, if_false, List.append_nil] at hcommitted hentries hcommits
    refine ⟨h.toKept, ?_, h.stored, ?_, ?_, fun _ => ⟨hentries, hcommits⟩⟩ <;>
      simp [hstrategy, hcommitted]
  | afterBatch => exact absurd hstrategy hplan

section AfterBatch

variable (h : t.Resolved records batched t') (hplan : t.worker.plan.strategy = .afterBatch)

include h hplan

/-- Before the commit of the batch nothing is committed. -/
theorem Resolved.afterBatch : (∀ tp, batched.get? tp = lastIn tp records) ∧
    (∀ tp, t'.broker.committed t.worker.session.group tp =
      t.broker.committed t.worker.session.group tp) ∧
    t'.broker.entriesOf t.worker.session.group = t.broker.entriesOf t.worker.session.group ∧
    t'.commits = t.commits := by
  refine ⟨fun tp => ?_, fun tp => ?_, ?_, ?_⟩
  · simpa [hplan] using h.batched tp
  · simpa [hplan] using h.committed tp
  · simpa [hplan] using h.entries
  · simpa [hplan] using h.commits

/-- Without a resolved record there is nothing to commit. -/
theorem Resolved.flushed_of_nil (hnone : records = []) : t.Flushed records t' := by
  obtain ⟨hbatched, hcommitted, hentries, hcommits⟩ := h.afterBatch hplan
  have hempty : offsetsAfter batched = [] := by
    rw [offsetsAfter, List.isEmpty_iff.mp ((isEmpty_batched hbatched).mpr hnone)]
    rfl
  refine ⟨h.toKept, fun tp => ?_, h.stored, ?_, fun _ => ⟨batched, hbatched, ?_, ?_⟩, ?_⟩
  · simp [hplan, hcommitted, reached, hnone, lastIn]
  · simp [hplan]
  · rw [hempty, hentries, List.map_nil, List.append_nil]
  · rw [if_pos hnone, hcommits, List.append_nil]
  · simp [hplan]

/-- The commit of the batch. -/
theorem Resolved.flush_commit (hmember : t.IsMember) (hsome : records ≠ [])
    (next : Turn → Turn) :
    ∃ t₁, t'.commitThen (offsetsAfter batched) next = next t₁ ∧ t.Flushed records t₁ := by
  obtain ⟨hbatched, hcommitted, hentries, hcommits⟩ := h.afterBatch hplan
  obtain ⟨t₁, heq, hcommit, hkept, hsession, hentries₁, hcommits₁⟩ :=
    commitThen_accepted h.toKept hmember (offsetsAfter batched) next
  refine ⟨t₁, heq, hkept, fun tp => ?_, ?_, ?_, fun _ => ⟨batched, hbatched, ?_, ?_⟩, ?_⟩
  · have hafter := Session.committed_commit_batch hcommit tp
    rw [h.group] at hafter
    rw [hafter, hbatched, hcommitted, if_neg (by rw [hplan]; decide), reached]
  · rw [hsession]
    exact h.stored
  · simp [hplan]
  · rw [hentries₁, hentries]
  · rw [hcommits₁, hcommits, if_neg hsome, offsetsAfter, List.length_map, Dict.size]
  · simp [hplan]

end AfterBatch

/-- **The end of a batch.** Whether it is over or the worker stops in the middle of it, the
group ends up behind the resolved records. -/
theorem Resolved.flush (h : t.Resolved records batched t') (hmember : t.IsMember) (a : Activity) :
    t.Flushed records (t'.commitResolvedThen batched (·.enter a)) ∧
      (t'.commitResolvedThen batched (·.enter a)).worker.activity = a := by
  have henter : ∀ {u : Turn}, t.Flushed records u →
      t.Flushed records (u.enter a) ∧ (u.enter a).worker.activity = a :=
    fun hflushed => ⟨hflushed.of_books ((sameBooks_refl _).enter a), rfl⟩
  rw [commitResolvedThen, h.plan]
  by_cases hplan : t.worker.plan.strategy = .afterBatch
  · have hempty := isEmpty_batched (h.afterBatch hplan).1
    by_cases hnone : records = []
    · rw [hempty.mpr hnone, Bool.true_or, if_pos rfl]
      exact henter (h.flushed_of_nil hplan hnone)
    · rw [eq_false_of_ne_true (mt hempty.mp hnone), if_neg (by simp [hplan])]
      obtain ⟨t₁, heq, hflushed⟩ := h.flush_commit hplan hmember hnone (·.enter a)
      rw [show (batched.entries.map fun e => CommitOffset.after e.1 e.2) = offsetsAfter batched
        from rfl, heq]
      exact henter hflushed
  · rw [if_pos (by simp [hplan])]
    exact henter (h.flushed_of_ne hplan)

/-- **After a record is resolved** the next record of the batch is at hand, or the batch is
over. -/
inductive Proceeds (t : Turn) (records rest : List RawRecord) (t' : Turn) : Prop
  | next {r : RawRecord} {more : List RawRecord} {batched : Dict TopicPartition Int}
      (hrest : rest = r :: more)
      (activity : t'.worker.activity = .working ⟨r, more, 1, batched⟩ .key)
      (resolved : t.Resolved records batched t')
  | done (hrest : rest = []) (activity : t'.worker.activity = .ready)
      (flushed : t.Flushed records t')

theorem Resolved.nextRecord (job : Job) (h : t.Resolved records job.resolved t')
    (hmember : t.IsMember) :
    t.Proceeds records job.rest (t'.nextRecord job) := by
  rw [Turn.nextRecord]
  split
  next hrest =>
    obtain ⟨hflushed, hactivity⟩ := h.flush hmember .ready
    exact .done hrest hactivity hflushed
  next r more hrest => exact .next hrest rfl (h.of_books ((sameBooks_refl _).enter _))

section Resolve

variable {job : Job} (h : t.Resolved records job.resolved t')
  (hmember : t.IsMember)

include h hmember

theorem Resolved.resolve_afterRecord (hplan : t.worker.plan.strategy = .afterRecord) :
    t.Proceeds (records ++ [job.record]) job.rest (t'.resolve job) := by
  have hcommitted := h.committed
  have hentries := h.entries
  have hcommits := h.commits
  simp only [hplan, if_true] at hcommitted hentries hcommits
  obtain ⟨t₁, heq, hcommit, hkept, hsession, hentries₁, hcommits₁⟩ :=
    commitThen_accepted h.toKept hmember [offsetAfter job.record] (·.nextRecord job)
  rw [resolve, h.plan, hplan]
  simp only
  rw [show [CommitOffset.after job.record.topicPartition job.record.offset] =
    [offsetAfter job.record] from rfl, heq]
  have hnext : t.Resolved (records ++ [job.record]) job.resolved t₁ := by
    refine ⟨hkept, fun tp => ?_, ?_, ?_, ?_, ?_⟩
    · have hafter := Session.committed_commit_one hcommit tp
      rw [h.group] at hafter
      rw [hafter, hcommitted, if_pos hplan, reached_concat]
      simp only [eq_comm]
    · simpa [hplan] using h.batched
    · rw [hsession]
      simpa [hplan] using h.stored
    · rw [hentries₁, hentries, if_pos hplan]
      simp
    · rw [hcommits₁, hcommits, if_pos hplan]
      simp
  exact hnext.nextRecord job hmember

theorem Resolved.resolve_afterBatch (hplan : t.worker.plan.strategy = .afterBatch) :
    t.Proceeds (records ++ [job.record]) job.rest (t'.resolve job) := by
  rw [resolve, h.plan, hplan]
  have hnext : t.Resolved (records ++ [job.record])
      (job.resolved.insert job.record.topicPartition job.record.offset) t' := by
    refine ⟨h.toKept, ?_, fun tp => ?_, ?_, ?_, ?_⟩
    · simpa [hplan] using h.committed
    · have hbatched := h.batched tp
      rw [if_pos hplan] at hbatched
      rw [Dict.get?_insert, hbatched, if_pos hplan, lastIn_concat]
      simp only [eq_comm]
    · simpa [hplan] using h.stored
    · simpa [hplan] using h.entries
    · simpa [hplan] using h.commits
  exact hnext.nextRecord { job with resolved := _ } hmember

theorem Resolved.resolve_auto (hplan : t.worker.plan.strategy = .auto)
    (hassigned : job.record.topicPartition ∈ t.worker.session.assigned) :
    t.Proceeds (records ++ [job.record]) job.rest (t'.resolve job) := by
  have hholds : t'.worker.session.assigned.contains job.record.topicPartition = true := by
    rw [h.session]
    exact List.contains_iff_mem.mpr hassigned
  rw [resolve, h.plan, hplan]
  simp only [Session.store_one, CommitOffset.after, hholds, if_true]
  have hnext : t.Resolved (records ++ [job.record]) job.resolved
      { t' with worker := { t'.worker with session := { t'.worker.session with
        stored := t'.worker.session.stored.insert job.record.topicPartition
          (job.record.offset + 1) } } } := by
    refine ⟨h.toKept.store _, ?_, ?_, fun tp => ?_, ?_, ?_⟩
    · simpa [hplan] using h.committed
    · simpa [hplan] using h.batched
    · have hstored := h.stored tp
      rw [if_pos hplan] at hstored
      rw [Dict.get?_insert, hstored, if_pos hplan, lastIn_concat]
      by_cases htp : job.record.topicPartition = tp
      · rw [if_pos htp.symm, if_pos htp, Option.map_some]
      · rw [if_neg (Ne.symm htp), if_neg htp]
    · simpa [hplan] using h.entries
    · show t'.commits = _
      simpa [hplan] using h.commits
  exact hnext.nextRecord job hmember

/-- **A record is resolved**, by whatever strategy. -/
theorem Resolved.resolve (hassigned : job.record.topicPartition ∈ t.worker.session.assigned) :
    t.Proceeds (records ++ [job.record]) job.rest (t'.resolve job) := by
  cases hplan : t.worker.plan.strategy with
  | afterRecord => exact h.resolve_afterRecord hmember hplan
  | afterBatch => exact h.resolve_afterBatch hmember hplan
  | auto => exact h.resolve_auto hmember hplan hassigned

end Resolve

end Turn

end StreamDispatch
