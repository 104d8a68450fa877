import Mathlib.Data.List.Induction
import StreamDispatch.Proofs.Worker.Batch

/-!
# How far a batch is

After any number of events a batch is in one of three conditions
(`StreamDispatch.Turn.Stands`): a record is at hand and all before it are resolved, all records
are resolved, or the worker has stopped in front of a record. Each event leads from one
condition to another, and so does whatever others do meanwhile.

Conversely, whatever is to become of the records, there are events that bring it about. So
what is said of all courses of a batch is said of all sequences of verdicts.

## Main definitions

* `StreamDispatch.Turn.Stands`: how far a batch is.
* `StreamDispatch.Turn.BatchOver`: no record is at hand any more.

## Main statements

* `StreamDispatch.Turn.HasBatch.stands`: every course of a batch leads to one of the conditions.
* `StreamDispatch.Turn.HasBatch.works_of_verdicts`: every sequence of verdicts has a course.
-/

namespace StreamDispatch

/-- The records that were resolved, in order. -/
def resolvedOf (done : List (RawRecord × Verdict)) : List RawRecord :=
  (done.filter fun d => d.2.isResolved).map (·.1)

variable {done before : List (RawRecord × Verdict)}

theorem resolvedOf_eq (h : ∀ d ∈ done, d.2.isResolved = true) :
    resolvedOf done = done.map (·.1) := by
  rw [resolvedOf, List.filter_eq_self.mpr h]

theorem resolvedOf_concat (h : ∀ d ∈ before, d.2.isResolved = true) (r : RawRecord)
    {verdict : Verdict} (hverdict : verdict.isResolved = false) :
    resolvedOf (before ++ [(r, verdict)]) = before.map (·.1) := by
  rw [← resolvedOf_eq h, resolvedOf, List.filter_append, List.filter_singleton, hverdict]
  exact congrArg _ (List.append_nil _)

namespace Turn

variable {t t' : Turn} {batch records : List RawRecord} {batched : Dict TopicPartition Int}

/-- No record of a batch is at hand any more. -/
def BatchOver (t : Turn) : Prop := ∀ job stage, t.worker.activity ≠ .working job stage

theorem batchOver_of_ready (h : t.worker.activity = .ready) : t.BatchOver := by
  intro job stage hactivity
  cases h.symm.trans hactivity

theorem batchOver_of_closing {p : Phase} (h : t.worker.activity = .closing p) : t.BatchOver := by
  intro job stage hactivity
  cases h.symm.trans hactivity

/-! ### Every course of a batch -/

/-- Before the first verdict, nothing is left behind. -/
theorem HasBatch.resolved_nil (h : t.HasBatch batch) : t.Resolved [] ∅ t where
  plan := rfl
  session := rfl
  deal := .refl _
  accepts := h.accepts
  committed tp := by simp [reached, lastIn]
  batched tp := (ite_self _).symm
  stored tp := by
    rw [h.stored]
    exact (ite_self _).symm
  entries := by simp
  commits := by simp

/-- **How far a batch is** after some verdicts. -/
inductive Stands (t : Turn) (batch : List RawRecord) (done : List (RawRecord × Verdict))
    (t' : Turn) : Prop
  /-- A record is at hand, and those before it are resolved. -/
  | working {job : Job} {stage : Stage} (activity : t'.worker.activity = .working job stage)
      (hresolved : ∀ d ∈ done, d.2.isResolved = true)
      (hbatch : batch = done.map (·.1) ++ job.record :: job.rest)
      (resolved : t.Resolved (done.map (·.1)) job.resolved t')
  /-- All records are resolved. -/
  | finished (activity : t'.worker.activity = .ready)
      (hresolved : ∀ d ∈ done, d.2.isResolved = true) (hbatch : batch = done.map (·.1))
      (flushed : t.Flushed (done.map (·.1)) t')
  /-- The worker has stopped in front of a record, and those before it are resolved. -/
  | stopped {before : List (RawRecord × Verdict)} {r : RawRecord} {verdict : Verdict}
      {rest : List RawRecord} {p : Phase} (activity : t'.worker.activity = .closing p)
      (hdone : done = before ++ [(r, verdict)]) (hverdict : verdict.isResolved = false)
      (hresolved : ∀ d ∈ before, d.2.isResolved = true)
      (hbatch : batch = before.map (·.1) ++ r :: rest)
      (flushed : t.Flushed (before.map (·.1)) t')

/-- The record at hand is resolved, whatever the strategy. -/
theorem HasBatch.proceeds (ht : t.HasBatch batch) {job : Job} {t₁ : Turn}
    (hbatch : batch = done.map (·.1) ++ job.record :: job.rest)
    (resolved : t.Resolved (done.map (·.1)) job.resolved t') (hbooks : t'.SameBooks t₁) :
    t.Proceeds (done.map (·.1) ++ [job.record]) job.rest (t₁.resolve job) :=
  (resolved.of_books hbooks).resolve ht.member
    (ht.assigned _ (hbatch ▸ List.mem_append_right _ List.mem_cons_self))

/-- **One more event.** -/
theorem HasBatch.stands_event (ht : t.HasBatch batch) (h : t.Stands batch done t') (now : Nat)
    {ev : WorkerEvent} (hev : ev.isPartOfBatch = true) :
    t.Stands batch (done ++ (t'.worker.verdict? ev).toList) (ev.apply now t') := by
  -- Once it is over, nothing happens to a batch any more.
  have hover : t'.BatchOver →
      done ++ (t'.worker.verdict? ev).toList = done ∧ t'.SameBooks (ev.apply now t') ∧
        (ev.apply now t').worker.activity = t'.worker.activity := by
    intro hrests
    obtain ⟨hverdict, hbooks, hactivity⟩ := rests_apply hrests now hev
    exact ⟨by rw [hverdict]; exact List.append_nil _, hbooks, hactivity⟩
  cases h with
  | @working job stage activity hresolved hbatch resolved =>
    have hone : ∀ {verdict : Verdict}, verdict.isResolved = true →
        ∀ d ∈ done ++ [(job.record, verdict)], d.2.isResolved = true := by
      intro verdict hverdict d hd
      rcases List.mem_append.mp hd with hd | hd
      · exact hresolved d hd
      · rw [List.mem_singleton.mp hd]
        exact hverdict
    have hstep := step_apply activity now hev
    generalize t'.worker.verdict? ev = verdict? at hstep ⊢
    generalize ev.apply now t' = t'' at hstep ⊢
    cases hstep with
    | goesOn books activity' record rest resolved' =>
      rw [Option.toList_none, List.append_nil]
      refine .working activity' hresolved ?_ (resolved' ▸ resolved.of_books books)
      rw [record, rest]
      exact hbatch
    | @resolves t₁ books verdict hverdict =>
      have hproceeds := ht.proceeds hbatch resolved books
      have hmap : (done ++ [(job.record, verdict)]).map (·.1) = done.map (·.1) ++ [job.record] :=
        List.map_append
      rw [← hmap] at hproceeds
      rw [Option.toList_some]
      cases hproceeds with
      | next hrest activity' resolved' =>
        refine .working activity' (hone hverdict) ?_ resolved'
        rw [hbatch, hmap, hrest, List.append_assoc]
        rfl
      | done hrest activity' flushed =>
        refine .finished activity' (hone hverdict) ?_ flushed
        rw [hbatch, hmap, hrest]
    | @stops t₁ books verdict hverdict p =>
      obtain ⟨hflushed, hactivity⟩ := (resolved.of_books books).flush ht.member (.closing p)
      exact .stopped hactivity rfl hverdict hresolved hbatch hflushed
  | finished activity hresolved hbatch flushed =>
    obtain ⟨hdone, hbooks, hactivity⟩ := hover (batchOver_of_ready activity)
    rw [hdone]
    exact .finished (hactivity.trans activity) hresolved hbatch (flushed.of_books hbooks)
  | stopped activity hdone' hverdict hresolved hbatch flushed =>
    obtain ⟨hdone, hbooks, hactivity⟩ := hover (batchOver_of_closing activity)
    rw [hdone]
    exact .stopped (hactivity.trans activity) hdone' hverdict hresolved hbatch
      (flushed.of_books hbooks)

/-- **The whole batch**, as far as it has come. -/
theorem HasBatch.stands (ht : t.HasBatch batch) (h : t.Works done t') :
    t.Stands batch done t' := by
  induction h with
  | begins =>
    obtain ⟨r, rest, rfl, hactivity⟩ := ht.atHand
    exact .working hactivity (fun d hd => absurd hd List.not_mem_nil) rfl ht.resolved_nil
  | event _ now hev ih => exact ht.stands_event ih now hev
  | aside _ books hactivity ih =>
    cases ih with
    | working activity hresolved hbatch resolved =>
      exact .working (hactivity.trans activity) hresolved hbatch (resolved.of_books books)
    | finished activity hresolved hbatch flushed =>
      exact .finished (hactivity.trans activity) hresolved hbatch (flushed.of_books books)
    | stopped activity hdone hverdict hresolved hbatch flushed =>
      exact .stopped (hactivity.trans activity) hdone hverdict hresolved hbatch
        (flushed.of_books books)

/-! ### Every verdict can come about -/

/-- An event without a verdict leaves a record at hand. -/
theorem Works.goesOn (h : t.Works done t') {job : Job} {stage : Stage}
    (hactivity : t'.worker.activity = .working job stage) (ev : WorkerEvent)
    (hev : ev.isPartOfBatch = true) (hnone : t'.worker.verdict? ev = none) :
    t.Works done (ev.apply 0 t') ∧ t'.SameBooks (ev.apply 0 t') := by
  have hevent := h.event 0 hev
  have hstep := step_apply hactivity 0 hev
  rw [hnone] at hevent hstep
  refine ⟨by simpa using hevent, ?_⟩
  cases hstep with
  | goesOn books => exact books

/-- An event with a verdict ends the dispatch of a record. -/
theorem Works.settles (h : t.Works done t') {job : Job} {stage : Stage}
    (hactivity : t'.worker.activity = .working job stage) (ev : WorkerEvent)
    (hev : ev.isPartOfBatch = true) (verdict : Verdict)
    (hsome : t'.worker.verdict? ev = some (job.record, verdict)) :
    t.Works (done ++ [(job.record, verdict)]) (ev.apply 0 t') ∧
      (verdict.isResolved = true → ∃ t₁, t'.SameBooks t₁ ∧ ev.apply 0 t' = t₁.resolve job) := by
  have hevent := h.event 0 hev
  have hstep := step_apply hactivity 0 hev
  rw [hsome] at hevent hstep
  refine ⟨hevent, fun hverdict => ?_⟩
  generalize ev.apply 0 t' = t'' at hstep
  cases hstep with
  | @resolves t₁ books _ _ => exact ⟨t₁, books, rfl⟩
  | stops books hunresolved p =>
    rw [hverdict] at hunresolved
    cases hunresolved

/-- A key that cannot be decoded leads to the policy. -/
theorem Works.fails (h : t.Works done t') {job : Job}
    (hkey : t'.worker.activity = .working job .key) :
    ∃ t'' failure, t.Works done t'' ∧ t'.SameBooks t'' ∧
      t''.worker.activity = .working job (.deciding failure) ∧
        t''.worker.stopping = t'.worker.stopping := by
  obtain ⟨hworks, hbooks⟩ := h.goesOn hkey (.keyDecoded (.error "")) rfl
    (by simp only [Worker.verdict?.eq_def, hkey])
  refine ⟨_, ⟨.decoding .key, "", job.attempt⟩, hworks, hbooks, ?_, ?_⟩
  · simp only [WorkerEvent.apply, keyDecoded, hkey]
    rfl
  · simp only [WorkerEvent.apply, keyDecoded, hkey]
    rfl

/-- A key and a value that are decoded lead to the handler. -/
theorem Works.decodes (h : t.Works done t') {job : Job}
    (hkey : t'.worker.activity = .working job .key) :
    ∃ t'', t.Works done t'' ∧ t'.SameBooks t'' ∧ t''.worker.activity = .working job .handler := by
  obtain ⟨hworks, hbooks⟩ := h.goesOn hkey (.keyDecoded (.ok ())) rfl
    (by simp only [Worker.verdict?.eq_def, hkey])
  have hvalue : (t'.keyDecoded (.ok ())).worker.activity = .working job .value := by
    simp only [keyDecoded, hkey]
    rfl
  obtain ⟨hworks', hbooks'⟩ := hworks.goesOn hvalue (.valueDecoded (.ok ())) rfl
    (by simp only [Worker.verdict?.eq_def, WorkerEvent.apply, hvalue])
  refine ⟨_, hworks', hbooks.trans hbooks', ?_⟩
  simp only [WorkerEvent.apply, valueDecoded, hvalue]
  rfl

/-- **Whatever the verdict on a record is to be**, there are events that bring it about. -/
theorem Works.reach (h : t.Works done t') {job : Job}
    (hkey : t'.worker.activity = .working job .key) (verdict : Verdict) :
    ∃ t'', t.Works (done ++ [(job.record, verdict)]) t'' ∧
      (verdict.isResolved = true → ∃ t₁, t'.SameBooks t₁ ∧ t'' = t₁.resolve job) := by
  cases verdict with
  | processed =>
    obtain ⟨v, hworks, hbooks, hactivity⟩ := h.decodes hkey
    obtain ⟨hhandled, hresolves⟩ := hworks.settles hactivity (.handled 0 .accepted) rfl
      .processed (by simp only [Worker.verdict?.eq_def, hactivity])
    refine ⟨_, hhandled, fun hverdict => ?_⟩
    obtain ⟨t₁, hbooks₁, heq⟩ := hresolves hverdict
    exact ⟨t₁, hbooks.trans hbooks₁, heq⟩
  | skipped =>
    obtain ⟨v, failure, hworks, hbooks, hactivity, -⟩ := h.fails hkey
    obtain ⟨hdecided, hresolves⟩ := hworks.settles hactivity (.decided .proceed) rfl .skipped
      (by simp only [Worker.verdict?.eq_def, hactivity])
    refine ⟨_, hdecided, fun hverdict => ?_⟩
    obtain ⟨t₁, hbooks₁, heq⟩ := hresolves hverdict
    exact ⟨t₁, hbooks.trans hbooks₁, heq⟩
  | stopped =>
    obtain ⟨v, failure, hworks, -, hactivity, -⟩ := h.fails hkey
    obtain ⟨hdecided, -⟩ := hworks.settles hactivity (.decided .stop) rfl .stopped
      (by simp only [Worker.verdict?.eq_def, hactivity])
    exact ⟨_, hdecided, fun hverdict => by cases hverdict⟩
  | interrupted =>
    -- The worker is asked to stop first, and then is to try the record again.
    obtain ⟨hasked, -⟩ := h.goesOn hkey .requestStop rfl
      (by simp only [Worker.verdict?.eq_def, hkey])
    obtain ⟨v, failure, hworks, -, hactivity, hstopping⟩ := hasked.fails hkey
    obtain ⟨hdecided, -⟩ := hworks.settles hactivity (.decided (.retry ⟨0⟩)) rfl
      .interrupted (by
      simp only [Worker.verdict?.eq_def, hactivity, hstopping]
      exact if_pos rfl)
    exact ⟨_, hdecided, fun hverdict => by cases hverdict⟩

/-- **Every sequence of verdicts can come about**, as far as the batch goes. -/
theorem HasBatch.works_of_verdicts (ht : t.HasBatch batch) (outcomes : List Verdict) :
    ∃ done t', t.Works done t' ∧ done.map (·.2) <+: outcomes ∧
      (t'.BatchOver ∨
        done.map (·.2) = outcomes ∧ ∃ job, t'.worker.activity = .working job .key) := by
  induction outcomes using List.reverseRecOn with
  | nil =>
    obtain ⟨r, rest, -, hactivity⟩ := ht.atHand
    exact ⟨[], t, .begins, List.prefix_refl _, .inr ⟨rfl, _, hactivity⟩⟩
  | append_singleton outcomes verdict ih =>
    obtain ⟨done, t', hworks, hprefix, hover | ⟨rfl, job, hactivity⟩⟩ := ih
    · exact ⟨done, t', hworks, hprefix.trans (List.prefix_append _ _), .inl hover⟩
    · obtain ⟨t'', hreached, hresolves⟩ := hworks.reach hactivity verdict
      have hdone : (done ++ [(job.record, verdict)]).map (·.2) = done.map (·.2) ++ [verdict] :=
        List.map_append
      refine ⟨_, t'', hreached, hdone ▸ List.prefix_refl _, ?_⟩
      cases ht.stands hreached with
      | finished activity => exact .inl (batchOver_of_ready activity)
      | stopped activity => exact .inl (batchOver_of_closing activity)
      | working activity hresolved =>
        -- The last verdict is not one to stop, and another record is at hand.
        obtain ⟨t₁, hbooks, rfl⟩ := hresolves (hresolved (job.record, verdict) (by simp))
        cases ht.stands hworks with
        | working hbefore _ hbatch resolved =>
          cases hactivity.symm.trans hbefore
          cases ht.proceeds hbatch resolved hbooks with
          | next _ hnext => exact .inr ⟨hdone, _, hnext⟩
          | done _ hready => exact .inl (batchOver_of_ready hready)
        | finished hbefore => cases hactivity.symm.trans hbefore
        | stopped hbefore => cases hactivity.symm.trans hbefore

end Turn

end StreamDispatch
