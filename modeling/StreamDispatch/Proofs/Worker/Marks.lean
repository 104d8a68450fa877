import StreamDispatch.Proofs.Worker.Front

/-!
# What a worker writes down

A worker keeps its own counters, for status reports, and writes samples, for what is exported.
Both are written in many places, and always together: whatever is worth telling is a
`StreamDispatch.Mark`, which says what it adds to the counters and which samples it leaves. This
file lists the marks of every event once (`StreamDispatch.WorkerEvent.notes`), and no later
file opens a step of a worker to see what it counts.

How a worker goes on depends on little of what it is doing: whether it polls, how many records it
has at hand, and whether it tries the first of them, asks the policy about it or waits before
another attempt. This is its `StreamDispatch.Post`. What the application tells a worker, or fails
to tell it, is `StreamDispatch.Heard`; it is read off the worker and the event alone
(`StreamDispatch.Worker.hears?`). Posts, what is heard and marks together are a small machine,
`StreamDispatch.Notes`, with a line for each thing that can happen.

## Main definitions

* `StreamDispatch.Mark`, `StreamDispatch.Turn.Writes`: what is counted and sampled in one go.
* `StreamDispatch.Heard`, `StreamDispatch.Worker.hears?`: what a worker is told.
* `StreamDispatch.Post`, `StreamDispatch.Notes`: the machine.

## Main statements

* `StreamDispatch.WorkerEvent.notes`: every event is a line of the machine.
-/

namespace StreamDispatch

/-! ### Marks -/

/-- Something that a worker counts, or samples, or both in one go. -/
inductive Mark
  | began
  | batch (size : Nat)
  /-- A call of the handler has come back. -/
  | returned (millis : Float)
  | processed (topic : String)
  | failed
  | skipped (topic : String)
  | stopped (topic : String)
  | retried (backoff : Span)
  | committed (offsets : Nat)
  /-- The broker refused a commit. -/
  | refused (offsets : Nat)
  | ended (failure : Bool)

namespace Mark

/-- What a mark adds to the counters of a worker. -/
def count : Mark → WorkerMetrics → WorkerMetrics
  | .began, m => m
  | .batch size, m => m.batch size
  | .returned millis, m => m.observe millis
  | .processed _, m => m.recordProcessed
  | .failed, m => m.attemptFailed
  | .skipped _, m => m.recordSkipped
  | .stopped _, m => m
  | .retried _, m => m.retryDecided
  | .committed _, m => m.committed
  | .refused _, m => m
  | .ended _, m => m

/-- The samples of a mark. -/
def samples (registration : String) : Mark → List Sample
  | .began => [.workerStarted registration]
  | .batch size => [.pollBatch registration size]
  | .returned millis => [.handlerDuration registration millis]
  | .processed topic => [.outcome registration topic .processed]
  | .failed => []
  | .skipped topic =>
    [.decision registration .proceed, .outcome registration topic .skipped]
  | .stopped topic => [.decision registration .stop, .outcome registration topic .stopped]
  | .retried backoff => [.decision registration (.retry backoff)]
  | .committed offsets => [.commit registration offsets true]
  | .refused offsets => [.commit registration offsets false]
  | .ended failure => [.workerStopped registration failure]

/-- Whether a mark tells of the beginning or the end of a worker. -/
def isLife : Mark → Bool
  | .began => true
  | .ended _ => true
  | _ => false

/-- Whether a mark tells of a commit that was refused. -/
def isRefused : Mark → Bool
  | .refused _ => true
  | _ => false

/-- Whether a mark tells of a commit. -/
def isCommit : Mark → Bool
  | .committed _ => true
  | .refused _ => true
  | _ => false

/-- Refused commits are sampled one by one. -/
theorem countP_refused (registration : String) (marks : List Mark) :
    (marks.flatMap (samples registration)).countP Sample.isRefusedCommit =
      marks.countP isRefused := by
  induction marks with
  | nil => rfl
  | cons mark rest ih =>
    rw [List.flatMap_cons, List.countP_append, ih, List.countP_cons, Nat.add_comm]
    congr 1
    cases mark <;> rfl

/-- What some marks in turn add to the counters of a worker. -/
def countAll (marks : List Mark) (m : WorkerMetrics) : WorkerMetrics :=
  marks.foldl (fun m mark => mark.count m) m

@[simp] theorem countAll_nil (m : WorkerMetrics) : countAll [] m = m := rfl

@[simp] theorem countAll_cons (mark : Mark) (marks : List Mark) (m : WorkerMetrics) :
    countAll (mark :: marks) m = countAll marks (mark.count m) := rfl

/-- The lives of workers are not counted by the workers. -/
theorem countAll_of_life {marks : List Mark} (h : ∀ mark ∈ marks, mark.isLife = true)
    (m : WorkerMetrics) : countAll marks m = m := by
  induction marks generalizing m with
  | nil => rfl
  | cons mark rest ih =>
    have hmark : mark.count m = m := by
      cases mark with
      | began => rfl
      | ended failure => rfl
      | _ => cases h _ List.mem_cons_self
    rw [countAll_cons, hmark, ih fun mark hmem => h mark (List.mem_cons_of_mem _ hmem)]

/-- Commits are counted by one counter only. -/
theorem countAll_of_commits {marks : List Mark} (h : ∀ mark ∈ marks, mark.isCommit = true)
    (m : WorkerMetrics) : ∃ commits, countAll marks m = { m with commits := commits } := by
  induction marks generalizing m with
  | nil => exact ⟨m.commits, rfl⟩
  | cons mark rest ih =>
    obtain ⟨commits, hrest⟩ := ih (fun mark hmem => h mark (List.mem_cons_of_mem _ hmem))
      (mark.count m)
    refine ⟨commits, ?_⟩
    rw [countAll_cons, hrest]
    cases mark with
    | committed offsets => rfl
    | refused offsets => rfl
    | _ => cases h _ List.mem_cons_self

end Mark

/-- From one turn to another the worker wrote down these marks, and nothing else. -/
structure Turn.Writes (t : Turn) (marks : List Mark) (t' : Turn) : Prop where
  plan : t'.worker.plan = t.worker.plan
  metrics : t'.worker.metrics = Mark.countAll marks t.worker.metrics
  samples : t'.samples = t.samples ++ marks.flatMap (Mark.samples t.registration)

namespace Turn

variable {t t₁ t' : Turn} {marks more : List Mark}

theorem writes_nothing (hplan : t'.worker.plan = t.worker.plan)
    (hmetrics : t'.worker.metrics = t.worker.metrics) (hsamples : t'.samples = t.samples) :
    t.Writes [] t' :=
  ⟨hplan, hmetrics, by rw [hsamples, List.flatMap_nil, List.append_nil]⟩

theorem writes_self (t : Turn) : t.Writes [] t := writes_nothing rfl rfl rfl

theorem writes_enter (t : Turn) (a : Activity) : t.Writes [] (t.enter a) :=
  writes_nothing rfl rfl rfl

theorem Writes.trans (h : t.Writes marks t₁) (h' : t₁.Writes more t') :
    t.Writes (marks ++ more) t' where
  plan := h'.plan.trans h.plan
  metrics := by
    rw [h'.metrics, h.metrics, Mark.countAll, Mark.countAll, Mark.countAll, List.foldl_append]
  samples := by
    have hname : t₁.registration = t.registration := congrArg Plan.registration h.plan
    rw [h'.samples, h.samples, hname, List.flatMap_append, List.append_assoc]

/-- As many commits were refused as there are marks of it. -/
theorem Writes.refusals (h : t.Writes marks t') :
    t'.refusals = t.refusals + marks.countP Mark.isRefused := by
  rw [Turn.refusals, h.samples, List.countP_append, Mark.countP_refused]
  rfl

/-- Going on to another activity writes nothing more down. -/
theorem Writes.enter (h : t.Writes marks t₁) (a : Activity) : t.Writes marks (t₁.enter a) :=
  ⟨h.plan, h.metrics, h.samples⟩

end Turn

/-! ### What a worker hears -/

/-- What a worker is told, or never told, and whether that cuts its retries short. -/
inductive Heard
  /-- A call of the handler has come back. -/
  | returned (result : HandlerResult)
  /-- The policy has decided, and the worker had been asked to stop by then or not. -/
  | decided (decision : Decision) (stopping : Bool)
  /-- The worker was asked to stop while it waited before another attempt. -/
  | cutShort
  /-- A decoder or the policy was called and does not return. -/
  | brokenOff
  deriving DecidableEq

/-- What a worker hears with an event. -/
def Worker.hears? (w : Worker) : WorkerEvent → Option Heard
  | .handled _ result =>
    match w.activity with
    | .working _ .handler => some (.returned result)
    | _ => none
  | .decided d =>
    match w.activity with
    | .working _ (.deciding _) => some (.decided d w.stopping)
    | _ => none
  | .resume =>
    match w.activity with
    | .working _ (.backoff _) => if w.stopping then some .cutShort else none
    | _ => none
  | .crash _ => if Turn.runsApplication w.activity then some .brokenOff else none
  | .abort => if Turn.runsApplication w.activity then some .brokenOff else none
  | _ => none

/-! ### The machine -/

/-- How far the first record at hand is. -/
inductive Trial
  | trying
  /-- An attempt has failed, and the policy is asked. -/
  | deciding
  /-- Another attempt is to come. -/
  | waiting
  deriving DecidableEq

/-- How far a record is at a stage of an attempt. -/
def Stage.trial : Stage → Trial
  | .key => .trying
  | .value => .trying
  | .handler => .trying
  | .deciding _ => .deciding
  | .backoff _ => .waiting

/-- Where a worker is, as far as it matters for what it writes down. -/
inductive Post
  /-- It has no records, and will poll. -/
  | polling
  /-- It has so many records at hand. -/
  | working (atHand : Nat) (trial : Trial)
  /-- It polls no more, and comes to its end by itself. -/
  | leaving
  /-- It was cut off, or broke down. -/
  | lost
  deriving DecidableEq

/-- Whether the policy is being asked about a failure. -/
def Post.isDeciding : Post → Bool
  | .working _ .deciding => true
  | _ => false

/-- Where a worker is, by what it is doing. -/
def Activity.post : Activity → Post
  | .unstarted => .polling
  | .ready => .polling
  | .polling _ _ => .polling
  | .working job stage => .working (job.rest.length + 1) stage.trial
  | .closing _ => .leaving
  | .ended => .leaving
  | .cancelled => .lost
  | .panicked _ => .lost

/-- Where a worker goes on that has so many records left. -/
def Post.withRest : Nat → Post
  | 0 => .polling
  | n + 1 => .working (n + 1) .trying

/-- Whether a commit is due once a record is resolved and so many are left of the batch. -/
def CommitStrategy.commitsWithRest : CommitStrategy → Nat → Bool
  | .afterRecord, _ => true
  | .afterBatch, n => n == 0
  | .auto, _ => false

/-- What a worker writes down once a record is resolved and so many are left, and where it is
then: it commits if it has to and goes on, or the commit is refused. -/
inductive Resolves (strategy : CommitStrategy) (left : Nat) : List Mark → Post → Prop
  | goesOn (offsets : Nat) :
      Resolves strategy left
        (if strategy.commitsWithRest left then [.committed offsets] else []) (.withRest left)
  | refused (offsets : Nat) (h : strategy.commitsWithRest left = true) :
      Resolves strategy left [.refused offsets] .leaving

/-- What a worker writes down when it gives up: it commits what is resolved, if there is
anything to commit. -/
inductive GivesUp : List Mark → Prop
  | nothing : GivesUp []
  | accepted (offsets : Nat) : GivesUp [.committed offsets]
  | refused (offsets : Nat) : GivesUp [.refused offsets]

theorem Resolves.commits {strategy : CommitStrategy} {left : Nat} {marks : List Mark}
    {post : Post} (h : Resolves strategy left marks post) :
    ∀ mark ∈ marks, mark.isCommit = true := by
  rcases h with ⟨offsets⟩ | ⟨offsets, -⟩
  · split
    · exact List.forall_mem_singleton.mpr rfl
    · exact List.forall_mem_nil _
  · exact List.forall_mem_singleton.mpr rfl

theorem GivesUp.commits {marks : List Mark} (h : GivesUp marks) :
    ∀ mark ∈ marks, mark.isCommit = true := by
  rcases h with _ | ⟨offsets⟩ | ⟨offsets⟩
  · exact List.forall_mem_nil _
  · exact List.forall_mem_singleton.mpr rfl
  · exact List.forall_mem_singleton.mpr rfl

/-- **What can happen to a worker**: where it is, what it hears, what it writes down, and where
it is then. -/
inductive Notes (strategy : CommitStrategy) : Post → Option Heard → List Mark → Post → Prop
  /-- Nothing happens that matters here. -/
  | quiet (post : Post) {marks : List Mark} (h : ∀ mark ∈ marks, mark.isLife = true) :
      Notes strategy post none marks post
  | batch (rest : Nat) :
      Notes strategy .polling none [.batch (rest + 1)] (.working (rest + 1) .trying)
  /-- The key or the value cannot be decoded. -/
  | undecodable (n : Nat) :
      Notes strategy (.working n .trying) none [.failed] (.working n .deciding)
  | callFails (n : Nat) (millis : Float) {result : HandlerResult}
      (h : result.failure?.isSome = true) :
      Notes strategy (.working n .trying) (some (.returned result)) [.returned millis, .failed]
        (.working n .deciding)
  | accepts {rest : Nat} (millis : Float) (topic : String) {marks : List Mark} {post : Post}
      (h : Resolves strategy rest marks post) :
      Notes strategy (.working (rest + 1) .trying) (some (.returned .accepted))
        (.returned millis :: .processed topic :: marks) post
  | skips {rest : Nat} (topic : String) (stopping : Bool) {marks : List Mark} {post : Post}
      (h : Resolves strategy rest marks post) :
      Notes strategy (.working (rest + 1) .deciding) (some (.decided .proceed stopping))
        (.skipped topic :: marks) post
  | stops (rest : Nat) (topic : String) (stopping : Bool) {marks : List Mark}
      (h : GivesUp marks) :
      Notes strategy (.working (rest + 1) .deciding) (some (.decided .stop stopping))
        (.stopped topic :: marks) .leaving
  | retries (n : Nat) (backoff : Span) :
      Notes strategy (.working n .deciding) (some (.decided (.retry backoff) false))
        [.retried backoff] (.working n .waiting)
  /-- The policy wants another attempt, but the worker is to stop. -/
  | interrupted (rest : Nat) (backoff : Span) {marks : List Mark} (h : GivesUp marks) :
      Notes strategy (.working (rest + 1) .deciding) (some (.decided (.retry backoff) true))
        (.retried backoff :: marks) .leaving
  | again (n : Nat) : Notes strategy (.working n .waiting) none [] (.working n .trying)
  /-- The worker is asked to stop before another attempt. -/
  | cutShort (rest : Nat) {marks : List Mark} (h : GivesUp marks) :
      Notes strategy (.working (rest + 1) .waiting) (some .cutShort) marks .leaving
  | stopsPolling : Notes strategy .polling none [] .leaving
  | breaksOff (n : Nat) (trial : Trial) {marks : List Mark}
      (h : ∀ mark ∈ marks, mark.isLife = true) :
      Notes strategy (.working n trial) (some .brokenOff) marks .lost
  | cutOff {post : Post} (hpost : post.isDeciding = false) {marks : List Mark}
      (h : ∀ mark ∈ marks, mark.isLife = true) : Notes strategy post none marks .lost

/-! ### Every event is a line of the machine -/

namespace Turn

variable {t t₁ t' : Turn} {marks : List Mark} {strategy : CommitStrategy}

/-- From one turn to another, hearing this or nothing, the worker followed a line of the
machine. -/
def Follows (t : Turn) (heard : Option Heard) (t' : Turn) : Prop :=
  ∃ marks, t.Writes marks t' ∧
    Notes t.worker.plan.strategy t.worker.activity.post heard marks t'.worker.activity.post

/-- Nothing is written down but perhaps a beginning or an end, and the worker is where it
was. -/
theorem follows_quiet (marks : List Mark) (h : t.Writes marks t')
    (hlife : ∀ mark ∈ marks, mark.isLife = true)
    (hpost : t'.worker.activity.post = t.worker.activity.post) : t.Follows none t' := by
  refine ⟨marks, h, ?_⟩
  rw [hpost]
  exact .quiet _ hlife

theorem follows_self (t : Turn) : t.Follows none t :=
  follows_quiet [] (writes_self t) (List.forall_mem_nil _) rfl

/-- A commit goes through, and the worker goes on, or it is refused, and the worker is about to
leave. -/
theorem commitThen_cases (t : Turn) (offsets : List CommitOffset) (next : Turn → Turn) :
    (∃ t₁, t.Writes [.committed offsets.length] t₁ ∧ t.commitThen offsets next = next t₁) ∨
      ∃ t₁ p, t.Writes [.refused offsets.length] t₁ ∧
        t.commitThen offsets next = t₁.enter (.closing p) := by
  rw [commitThen]
  split
  next b _ =>
    exact .inl
      ⟨({ t with broker := b }.count .committed).emit (.commit t.registration offsets.length true),
        ⟨rfl, rfl, rfl⟩, rfl⟩
  next fault _ =>
    exact .inr
      ⟨t.emit (.commit t.registration offsets.length false), .failed (Error.broker fault).message,
        ⟨rfl, rfl, rfl⟩, rfl⟩

/-- A worker that gives up commits what is resolved, if it has to. -/
theorem givesUp_commitResolvedThen (t : Turn) (resolved : Dict TopicPartition Int) (p : Phase) :
    ∃ marks, GivesUp marks ∧ t.Writes marks (t.commitResolvedThen resolved (·.finish p)) ∧
      (t.commitResolvedThen resolved (·.finish p)).worker.activity.post = .leaving := by
  rw [commitResolvedThen]
  split
  next => exact ⟨[], .nothing, writes_enter t _, rfl⟩
  next =>
    rcases t.commitThen_cases (resolved.entries.map fun e => .after e.1 e.2) (·.finish p) with
      ⟨t₁, hwrites, heq⟩ | ⟨t₁, q, hwrites, heq⟩
    · rw [heq]
      exact ⟨_, .accepted _, hwrites.enter _, rfl⟩
    · rw [heq]
      exact ⟨_, .refused _, hwrites.enter _, rfl⟩

/-! #### Resolving -/

/-- What a worker has written down once a record is resolved and so many are left. -/
def Settles (strategy : CommitStrategy) (left : Nat) (t t' : Turn) : Prop :=
  ∃ marks, t.Writes marks t' ∧ Resolves strategy left marks t'.worker.activity.post

theorem settles_without {left : Nat} (h : strategy.commitsWithRest left = false)
    (hwrites : t.Writes [] t') (hpost : t'.worker.activity.post = .withRest left) :
    Settles strategy left t t' := by
  have hgoes : Resolves strategy left _ _ := .goesOn 0
  rw [h, if_neg Bool.false_ne_true, ← hpost] at hgoes
  exact ⟨[], hwrites, hgoes⟩

theorem settles_commitThen {left : Nat} (h : strategy.commitsWithRest left = true)
    (offsets : List CommitOffset) {next : Turn → Turn}
    (hnext : ∀ t₁ : Turn, t₁.worker.plan = t.worker.plan → t₁.Writes [] (next t₁) ∧
      (next t₁).worker.activity.post = .withRest left) :
    Settles strategy left t (t.commitThen offsets next) := by
  rcases t.commitThen_cases offsets next with ⟨t₁, hwrites, heq⟩ | ⟨t₁, p, hwrites, heq⟩
  · obtain ⟨hmore, hpost⟩ := hnext t₁ hwrites.plan
    have hgoes : Resolves strategy left _ _ := .goesOn offsets.length
    rw [h, if_pos rfl, ← hpost, ← heq] at hgoes
    exact ⟨_, heq ▸ hwrites.trans hmore, hgoes⟩
  · exact ⟨_, heq ▸ hwrites.enter _, heq ▸ .refused _ h⟩

/-- Without a commit of the batch, the worker just goes on with the rest. -/
theorem nextRecord_of_ne_afterBatch (h : t.worker.plan.strategy ≠ .afterBatch) (job : Job) :
    t.Writes [] (t.nextRecord job) ∧
      (t.nextRecord job).worker.activity.post = .withRest job.rest.length := by
  rw [nextRecord]
  split
  next hrest =>
    rw [commitResolvedThen, decide_eq_true h, Bool.or_true, if_pos rfl, hrest]
    exact ⟨writes_enter t _, rfl⟩
  next record rest hrest =>
    rw [hrest]
    exact ⟨writes_enter t _, rfl⟩

/-- **A record is resolved**, by whatever strategy. -/
theorem settles_resolve {job : Job} {batched : Dict TopicPartition Int}
    (hc : Coherent t.worker.plan (.reading (job.record :: job.rest) batched) t.worker.session) :
    Settles t.worker.plan.strategy job.rest.length t (t.resolve job) := by
  cases hplan : t.worker.plan.strategy with
  | afterRecord =>
    simp only [resolve, hplan]
    refine settles_commitThen rfl _ fun t₁ hplan₁ => nextRecord_of_ne_afterBatch ?_ job
    rw [hplan₁, hplan]
    decide
  | afterBatch =>
    simp only [resolve, hplan, nextRecord]
    split
    next hrest =>
      -- The record just resolved is to be committed, so the commit is not empty.
      rw [commitResolvedThen, Dict.isEmpty_insert, hplan, if_neg (by decide), hrest]
      exact settles_commitThen rfl _ fun t₁ _ => ⟨writes_enter t₁ _, rfl⟩
    next record rest hrest =>
      rw [hrest]
      exact settles_without rfl (writes_enter t _) rfl
  | auto =>
    have hne : t.worker.plan.strategy ≠ .afterBatch := by rw [hplan]; decide
    simp only [resolve, hplan]
    split
    next s hstore =>
      obtain ⟨hwrites, hpost⟩ := nextRecord_of_ne_afterBatch
        (t := { t with worker := { t.worker with session := s } }) hne job
      exact settles_without rfl ⟨hwrites.plan, hwrites.metrics, hwrites.samples⟩ hpost
    next fault s hstore =>
      -- Records at hand are in partitions of the session, which refuses none of them.
      exact absurd hc.mem_assigned_head (Session.store_error hstore).1

/-! #### Polling -/

theorem follows_start (t : Turn) : t.Follows none t.start := by
  rw [start, startWith]
  split
  next hactivity =>
    refine follows_quiet [.began] ⟨rfl, rfl, rfl⟩
      (List.forall_mem_singleton.mpr rfl) ?_
    rw [hactivity]
    rfl
  next => exact follows_self t

theorem follows_finish (hpost : t.worker.activity.post = .polling) (p : Phase) :
    t.Follows none (t.finish p) := by
  refine ⟨[], writes_enter t _, ?_⟩
  rw [hpost]
  exact .stopsPolling

theorem follows_fetch (hpost : t.worker.activity.post = .polling) (now deadline : Nat) :
    t.Follows none (t.fetch now deadline) := by
  rw [fetch]
  split
  next fault _ => exact follows_finish hpost _
  next s b _ =>
    refine follows_quiet [] ?_ (List.forall_mem_nil _) ?_
    · split <;> exact writes_nothing rfl rfl rfl
    · rw [hpost]
      split <;> rfl
  next record rest s b _ =>
    refine ⟨[.batch (rest.length + 1)], ⟨rfl, rfl, rfl⟩, ?_⟩
    rw [hpost]
    exact .batch _

theorem follows_poll (t : Turn) (now : Nat) : t.Follows none (t.poll now) := by
  rw [poll]
  split
  next hactivity =>
    have hpost : t.worker.activity.post = .polling := by rw [hactivity]; rfl
    split
    · exact follows_finish hpost _
    · exact follows_fetch hpost _ _
  next hactivity =>
    have hpost : t.worker.activity.post = .polling := by rw [hactivity]; rfl
    split
    · exact follows_finish hpost _
    · split
      · exact follows_fetch hpost _ _
      · exact follows_self t
  next => exact follows_self t

/-! #### Answers of the application -/

/-- A record that cannot be decoded is a failure that nobody was heard about. -/
theorem follows_undecodable {job : Job} {stage : Stage}
    (hactivity : t.worker.activity = .working job stage) (hstage : stage.trial = .trying)
    (kind : FailureKind) (message : String) : t.Follows none (t.fail job kind message) := by
  refine ⟨[.failed], ⟨rfl, rfl, (List.append_nil _).symm⟩, ?_⟩
  rw [hactivity, Activity.post, hstage]
  exact .undecodable _

theorem follows_keyDecoded (t : Turn) (result : Except String Unit) :
    t.Follows none (t.keyDecoded result) := by
  unfold keyDecoded
  split
  next hactivity =>
    refine follows_quiet [] (writes_enter t _) (List.forall_mem_nil _) ?_
    rw [hactivity]
    rfl
  next hactivity => exact follows_undecodable hactivity rfl _ _
  next => exact follows_self t

theorem follows_valueDecoded (t : Turn) (result : Except String Unit) :
    t.Follows none (t.valueDecoded result) := by
  unfold valueDecoded
  split
  next hactivity =>
    refine follows_quiet [] (writes_enter t _) (List.forall_mem_nil _) ?_
    rw [hactivity]
    rfl
  next hactivity => exact follows_undecodable hactivity rfl _ _
  next => exact follows_self t

section Answers

variable (hc : Coherent t.worker.plan t.worker.activity.standing t.worker.session)

include hc

/-- What is written down about a call, whether it went well or not. -/
theorem follows_handled (millis : Float) (result : HandlerResult) :
    t.Follows (t.worker.hears? (.handled millis result)) (t.handled millis result) := by
  unfold handled
  split
  next job hactivity =>
    rw [hactivity, Activity.standing] at hc
    simp only [Worker.hears?.eq_def, hactivity]
    split
    next message hfailure =>
      refine ⟨[.returned millis, .failed], ⟨rfl, rfl, rfl⟩, ?_⟩
      rw [hactivity]
      exact .callFails _ millis (by rw [hfailure]; rfl)
    next hfailure =>
      have haccepted : result = .accepted := by
        cases result with
        | accepted => rfl
        | failed message => cases hfailure
        | panicked payload => cases hfailure
      have hbefore : t.Writes [.returned millis, .processed job.record.topic]
          ((((t.count (·.observe millis)).emit (.handlerDuration t.registration millis)).count
            .recordProcessed).emit (.outcome t.registration job.record.topic .processed)) :=
        ⟨rfl, rfl, List.append_assoc _ _ _⟩
      obtain ⟨marks, hwrites, hresolves⟩ := settles_resolve (t := ((((t.count
        (·.observe millis)).emit (.handlerDuration t.registration millis)).count
          .recordProcessed).emit (.outcome t.registration job.record.topic .processed))) hc
      refine ⟨_, hbefore.trans hwrites, ?_⟩
      rw [hactivity, haccepted]
      exact .accepts millis _ hresolves
  next hactivity =>
    have hnothing : t.worker.hears? (.handled millis result) = none := by
      simp only [Worker.hears?.eq_def]
    rw [hnothing]
    exact follows_self t

theorem follows_decided (now : Nat) (d : Decision) :
    t.Follows (t.worker.hears? (.decided d)) (t.decided now d) := by
  unfold decided
  split
  next job failure hactivity =>
    rw [hactivity, Activity.standing] at hc
    simp only [Worker.hears?.eq_def, hactivity]
    cases d with
    | proceed =>
      have hbefore : t.Writes [.skipped job.record.topic]
          (((t.emit (.decision t.registration .proceed)).count .recordSkipped).emit
            (.outcome t.registration job.record.topic .skipped)) :=
        ⟨rfl, rfl, List.append_assoc _ _ _⟩
      obtain ⟨marks, hwrites, hresolves⟩ := settles_resolve
        (t := ((t.emit (.decision t.registration .proceed)).count .recordSkipped).emit
          (.outcome t.registration job.record.topic .skipped)) hc
      refine ⟨_, hbefore.trans hwrites, ?_⟩
      rw [hactivity]
      exact .skips _ _ hresolves
    | stop =>
      have hbefore : t.Writes [.stopped job.record.topic]
          ((t.emit (.decision t.registration .stop)).emit
            (.outcome t.registration job.record.topic .stopped)) :=
        ⟨rfl, rfl, List.append_assoc _ _ _⟩
      obtain ⟨marks, hgivesUp, hwrites, hpost⟩ := givesUp_commitResolvedThen
        ((t.emit (.decision t.registration .stop)).emit
          (.outcome t.registration job.record.topic .stopped)) job.resolved
        (.failed s!"{failure.text} ({job.record.place})")
      refine ⟨_, hbefore.trans hwrites, ?_⟩
      rw [hactivity]
      exact hpost ▸ .stops _ _ _ hgivesUp
    | retry backoff =>
      have hretried : t.Writes [.retried backoff]
          ((t.emit (.decision t.registration (.retry backoff))).count .retryDecided) :=
        ⟨rfl, rfl, rfl⟩
      simp only
      split
      next hstopping =>
        obtain ⟨marks, hgivesUp, hwrites, hpost⟩ := givesUp_commitResolvedThen
          ((t.emit (.decision t.registration (.retry backoff))).count .retryDecided) job.resolved
          .stopped
        refine ⟨.retried backoff :: marks, hretried.trans hwrites, ?_⟩
        have hstopping : t.worker.stopping = true := hstopping
        rw [hactivity, hstopping]
        exact hpost ▸ .interrupted _ _ hgivesUp
      next hgoing =>
        refine ⟨[.retried backoff], hretried.enter _, ?_⟩
        have hgoing : t.worker.stopping = false := Bool.eq_false_iff.mpr hgoing
        rw [hactivity, hgoing]
        exact .retries _ _
  next hactivity =>
    have hnothing : t.worker.hears? (.decided d) = none := by
      simp only [Worker.hears?.eq_def]
    rw [hnothing]
    exact follows_self t

end Answers

theorem follows_resume (t : Turn) (now : Nat) :
    t.Follows (t.worker.hears? .resume) (t.resume now) := by
  rw [resume]
  split
  next job deadline hactivity =>
    simp only [Worker.hears?.eq_def, hactivity]
    split
    next =>
      obtain ⟨marks, hgivesUp, hwrites, hpost⟩ :=
        t.givesUp_commitResolvedThen job.resolved .stopped
      refine ⟨marks, hwrites, ?_⟩
      rw [hactivity]
      exact hpost ▸ .cutShort _ hgivesUp
    next =>
      split
      next =>
        refine ⟨[], writes_enter t _, ?_⟩
        rw [hactivity]
        exact .again _
      next => exact follows_self t
  next hactivity =>
    have hnothing : t.worker.hears? .resume = none := by
      simp only [Worker.hears?.eq_def]
    rw [hnothing]
    exact follows_self t

/-! #### Ends -/

theorem follows_close (t : Turn) : t.Follows none t.close := by
  rw [close]
  split
  next p hactivity =>
    refine follows_quiet [.ended (p.state == .failed)] ⟨rfl, rfl, rfl⟩
      (List.forall_mem_singleton.mpr rfl) ?_
    rw [hactivity]
    rfl
  next => exact follows_self t

/-- At most an end is written down, unless it was published already. -/
theorem writes_reportEnd (t : Turn) (p : Phase) :
    ∃ marks, t.Writes marks (t.reportEnd p) ∧ (∀ mark ∈ marks, mark.isLife = true) ∧
      (t.reportEnd p).worker.activity = t.worker.activity := by
  rw [reportEnd]
  split
  next => exact ⟨[], writes_self t, List.forall_mem_nil _, rfl⟩
  next =>
    exact ⟨[.ended (p.state == .failed)], ⟨rfl, rfl, rfl⟩, List.forall_mem_singleton.mpr rfl, rfl⟩

theorem follows_join (t : Turn) : t.Follows none t.join := by
  rw [join]
  split
  next message _ =>
    obtain ⟨marks, hwrites, hlife, hactivity⟩ :=
      t.writes_reportEnd (.failed (breakdownText message))
    exact follows_quiet marks hwrites hlife (congrArg Activity.post hactivity)
  next => exact follows_self t

/-- Only a record at hand keeps a worker in code of the application. -/
theorem post_of_runsApplication {a : Activity} (h : runsApplication a = true) :
    ∃ n trial, a.post = .working n trial := by
  cases a with
  | working job stage => exact ⟨_, _, rfl⟩
  | _ => cases h

/-- A worker that is lost was broken off, or it was not in code of the application. -/
theorem notes_lost (strategy : CommitStrategy) {marks : List Mark}
    (hlife : ∀ mark ∈ marks, mark.isLife = true) (a : Activity) :
    Notes strategy a.post (if runsApplication a then some .brokenOff else none) marks .lost := by
  split
  next h =>
    obtain ⟨n, trial, hpost⟩ := post_of_runsApplication h
    rw [hpost]
    exact .breaksOff n trial hlife
  next h =>
    refine .cutOff ?_ hlife
    cases a with
    | working job stage =>
      cases stage with
      | deciding failure => exact absurd rfl h
      | _ => rfl
    | _ => rfl

theorem follows_crash (t : Turn) (message : String) :
    t.Follows (t.worker.hears? (.crash message)) (t.crash message) := by
  have hheard : t.worker.hears? (.crash message) =
      if runsApplication t.worker.activity then some .brokenOff else none := rfl
  rw [crash, hheard]
  split
  next hruns =>
    have hnotes := notes_lost t.worker.plan.strategy (List.forall_mem_nil _) t.worker.activity
    rw [if_pos hruns] at hnotes
    exact ⟨[], writes_nothing rfl rfl rfl, hnotes⟩
  next => exact follows_self t

theorem follows_abort (t : Turn) : t.Follows (t.worker.hears? .abort) t.abort := by
  rw [abort]
  split
  next p hactivity =>
    have hnothing : t.worker.hears? .abort = none := by
      rw [Worker.hears?.eq_def, hactivity]
      rfl
    rw [hnothing]
    exact follows_close t
  next =>
    split
    next hover =>
      have hnothing : t.worker.hears? .abort = none := by
        cases hactivity : t.worker.activity <;>
          simp_all [Activity.isOver, Worker.hears?.eq_def, runsApplication]
      rw [hnothing]
      exact follows_join t
    next =>
      obtain ⟨marks, hwrites, hlife, hactivity⟩ :=
        (t.leaveGroup.enter .cancelled).writes_reportEnd .stopped
      refine ⟨marks, ⟨hwrites.plan, hwrites.metrics, hwrites.samples⟩, ?_⟩
      rw [hactivity]
      exact notes_lost _ hlife t.worker.activity

end Turn

/-- **Every event is a line of the machine**: what the worker hears is read off the worker and
the event, and all that it writes down are the marks of the line. -/
theorem WorkerEvent.notes (ev : WorkerEvent) (now : Nat) {t : Turn}
    (hc : Coherent t.worker.plan t.worker.activity.standing t.worker.session) :
    t.Follows (t.worker.hears? ev) (ev.apply now t) := by
  cases ev with
  | start => exact t.follows_start
  | poll => exact t.follows_poll now
  | keyDecoded result => exact t.follows_keyDecoded result
  | valueDecoded result => exact t.follows_valueDecoded result
  | handled millis result => exact Turn.follows_handled hc millis result
  | decided d => exact Turn.follows_decided hc now d
  | resume => exact t.follows_resume now
  | close => exact t.follows_close
  | crash message => exact t.follows_crash message
  | requestStop => exact Turn.follows_quiet [] (t.writes_nothing rfl rfl rfl) nofun rfl
  | abandon => exact Turn.follows_quiet [] (t.writes_nothing rfl rfl rfl) nofun rfl
  | join => exact t.follows_join
  | abort => exact t.follows_abort

end StreamDispatch
