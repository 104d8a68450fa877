import StreamDispatch.Proofs.Delivery.ExactlyOnce
import StreamDispatch.Proofs.Lifecycle.Accounting
import StreamDispatch.Proofs.Number.Whole
import StreamDispatch.Proofs.Telemetry.Exported
import StreamDispatch.Proofs.Worker.Marks

/-!
# The journal of a registration

What is exported of a registration and what is reported of its workers are kept in two places, and
nothing compares them. They agree since they count the same: all marks that the workers of a name
have ever made, in order, are a *journal* of the name (`StreamDispatch.System.Journal`). The samples
of the registration are those of the journal, and each counter, summed up over all workers of the
name, is what the marks of the journal are worth to it (`StreamDispatch.Tally`). So a number that is
exported agrees with one that is reported as soon as each mark adds the same to both.

Failures and decisions are not marked at once: a failure is counted when an attempt fails, and the
policy is asked afterwards. The journal has one failure more than decisions for each worker that
is asking its policy.

## Main definitions

* `StreamDispatch.Tally`: a counter with what each mark is worth to it.
* `StreamDispatch.System.Journal`: the journal of a name.
* `StreamDispatch.System.Accords`: what is exported agrees with what is reported.

## Main statements

* `StreamDispatch.System.Journal.apply`: one more event adds its marks to the journal.
* `StreamDispatch.History.exported_accords`: what is exported agrees with what is reported,
  throughout every history.
-/

namespace StreamDispatch

/-! ### What marks are worth -/

/-- A counter of workers, with what each mark is worth to it. -/
structure Tally where
  counter : WorkerMetrics → Nat
  worth : Mark → Nat
  empty : counter .empty = 0
  count : ∀ mark m, counter (mark.count m) = counter m + worth mark

namespace Tally

theorem countAll (tally : Tally) (marks : List Mark) (m : WorkerMetrics) :
    tally.counter (Mark.countAll marks m) = tally.counter m + (marks.map tally.worth).sum := by
  induction marks generalizing m with
  | nil => rfl
  | cons mark rest ih =>
    rw [Mark.countAll_cons, ih, tally.count, List.map_cons, List.sum_cons, Nat.add_assoc]

def batches : Tally where
  counter := (·.batches)
  worth
    | .batch _ => 1
    | _ => 0
  empty := rfl
  count mark _ := by cases mark <;> rfl

def received : Tally where
  counter := (·.received)
  worth
    | .batch size => size
    | _ => 0
  empty := rfl
  count mark _ := by cases mark <;> rfl

def processed : Tally where
  counter := (·.processed)
  worth
    | .processed _ => 1
    | _ => 0
  empty := rfl
  count mark _ := by cases mark <;> rfl

def skipped : Tally where
  counter := (·.skipped)
  worth
    | .skipped _ => 1
    | _ => 0
  empty := rfl
  count mark _ := by cases mark <;> rfl

def failures : Tally where
  counter := (·.failures)
  worth
    | .failed => 1
    | _ => 0
  empty := rfl
  count mark _ := by cases mark <;> rfl

def retries : Tally where
  counter := (·.retries)
  worth
    | .retried _ => 1
    | _ => 0
  empty := rfl
  count mark _ := by cases mark <;> rfl

def commits : Tally where
  counter := (·.commits)
  worth
    | .committed _ => 1
    | _ => 0
  empty := rfl
  count mark _ := by cases mark <;> rfl

def calls : Tally where
  counter := (·.latency.count)
  worth
    | .returned _ => 1
    | _ => 0
  empty := rfl
  count mark m := by
    cases mark with
    | returned millis => exact m.latency.count_push millis
    | _ => rfl

end Tally

namespace Mark

/-- What a mark adds to the counters of its registration. -/
def adds (registration name : String) (labels : List (String × String)) (mark : Mark) : Nat :=
  ((mark.samples registration).map
    (·.adds name (("registration", registration) :: labels))).sum

section Adds

variable (registration : String) (mark : Mark)

attribute [local simp] adds samples Sample.adds Sample.increments registrationSeries Series.Has

theorem adds_polls : mark.adds registration "consumer_polls_total" [] =
    Tally.batches.worth mark := by
  cases mark with
  | ended failure => cases failure <;> simp [Tally.batches]
  | _ => simp [Tally.batches]

theorem adds_records (o : RecordOutcome) :
    mark.adds registration "consumer_records_total" [("outcome", o.name)] =
      match mark with
      | .processed _ => if o = .processed then 1 else 0
      | .skipped _ => if o = .skipped then 1 else 0
      | .stopped _ => if o = .stopped then 1 else 0
      | _ => 0 := by
  cases mark with
  | ended failure => cases failure <;> simp
  | _ => cases o <;> simp [RecordOutcome.name]

theorem adds_decisions (decision : String) :
    mark.adds registration "consumer_decisions_total" [("decision", decision)] =
      match mark with
      | .skipped _ => if decision = "continue" then 1 else 0
      | .stopped _ => if decision = "stop" then 1 else 0
      | .retried _ => if decision = "retry" then 1 else 0
      | _ => 0 := by
  cases mark with
  | ended failure => cases failure <;> simp
  | skipped topic => by_cases h : decision = "continue" <;> simp [Decision.name, h]
  | stopped topic => by_cases h : decision = "stop" <;> simp [Decision.name, h]
  | retried backoff => by_cases h : decision = "retry" <;> simp [Decision.name, h]
  | _ => simp

theorem adds_commits : mark.adds registration "consumer_commits_total" [("status", "success")] =
    Tally.commits.worth mark := by
  cases mark with
  | ended failure => cases failure <;> simp [Tally.commits]
  | _ => simp [Tally.commits]

end Adds

/-- What a mark adds to the histograms of its registration. -/
def observes (registration name : String) (mark : Mark) : List Float :=
  (mark.samples registration).flatMap (·.observes name)

theorem registration_of_mem {registration : String} {mark : Mark} {s : Sample}
    (h : s ∈ mark.samples registration) : s.registration = registration := by
  cases mark <;> simp [samples] at h <;> grind [Sample.registration]

/-- The samples of marks are those of their registration. -/
theorem samplesOf_samples (registration name : String) (marks : List Mark) :
    samplesOf (marks.flatMap (samples registration)) name =
      if registration = name then marks.flatMap (samples name) else [] := by
  have hall : ∀ s ∈ marks.flatMap (samples registration), s.registration = registration := by
    intro s hmem
    obtain ⟨mark, -, hs⟩ := List.mem_flatMap.mp hmem
    exact registration_of_mem hs
  split
  next hname =>
    subst hname
    exact List.filter_eq_self.mpr fun s hmem => decide_eq_true (hall s hmem)
  next hname =>
    refine List.filter_eq_nil_iff.mpr fun s hmem hs => hname ?_
    exact (hall s hmem).symm.trans (of_decide_eq_true hs)

/-! ### Failures and decisions -/

/-- Whether a mark tells of a decision of the policy. -/
def isDecision : Mark → Bool
  | .skipped _ => true
  | .stopped _ => true
  | .retried _ => true
  | _ => false

/-- Whether a mark tells of a failure. -/
def isFailure : Mark → Bool
  | .failed => true
  | _ => false

theorem countP_eq_sum (p : Mark → Bool) (marks : List Mark) :
    marks.countP p = (marks.map fun mark => (p mark).toNat).sum := by
  induction marks with
  | nil => rfl
  | cons mark rest ih =>
    rw [List.map_cons, List.sum_cons, List.countP_cons, ih, Nat.add_comm]
    cases p mark <;> rfl

theorem sum_failures (marks : List Mark) :
    (marks.map Tally.failures.worth).sum = marks.countP isFailure := by
  rw [countP_eq_sum]
  refine congrArg List.sum (List.map_congr_left fun mark _ => ?_)
  cases mark <;> rfl

/-- A decision is added to one of three counters. -/
theorem sum_decisions (registration : String) (marks : List Mark) :
    (marks.map (adds registration "consumer_decisions_total" [("decision", "continue")])).sum +
      (marks.map (adds registration "consumer_decisions_total" [("decision", "stop")])).sum +
      (marks.map (adds registration "consumer_decisions_total" [("decision", "retry")])).sum =
        marks.countP isDecision := by
  induction marks with
  | nil => rfl
  | cons mark rest ih =>
    simp only [List.map_cons, List.sum_cons, adds_decisions] at ih ⊢
    rw [List.countP_cons, ← ih]
    cases mark <;> simp [isDecision] <;> omega

/-- Lives and commits are neither failures nor decisions. -/
theorem none_of_life_or_commit {marks : List Mark}
    (h : ∀ mark ∈ marks, mark.isLife = true ∨ mark.isCommit = true) :
    marks.countP isFailure = 0 ∧ marks.countP isDecision = 0 := by
  have hnone : ∀ mark ∈ marks, mark.isFailure = false ∧ mark.isDecision = false := by
    intro mark hmem
    rcases h mark hmem with hmark | hmark <;> cases mark <;>
      first | exact ⟨rfl, rfl⟩ | cases hmark
  exact ⟨List.countP_eq_zero.mpr fun mark hmem => by rw [(hnone mark hmem).1]; exact nofun,
    List.countP_eq_zero.mpr fun mark hmem => by rw [(hnone mark hmem).2]; exact nofun⟩

end Mark

theorem Post.isDeciding_withRest (left : Nat) : (Post.withRest left).isDeciding = false := by
  cases left <;> rfl

theorem Resolves.not_deciding {strategy : CommitStrategy} {left : Nat} {marks : List Mark}
    {post : Post} (h : Resolves strategy left marks post) : post.isDeciding = false := by
  rcases h with ⟨offsets⟩ | ⟨offsets, -⟩
  · exact Post.isDeciding_withRest left
  · rfl

/-- **Every failure is decided about**, and the policy is being asked about the last one, unless it
never returns. -/
theorem Notes.decided {strategy : CommitStrategy} {post post' : Post} {heard : Option Heard}
    {marks : List Mark} (h : Notes strategy post heard marks post')
    (hbroken : heard ≠ some .brokenOff) :
    marks.countP Mark.isFailure + post.isDeciding.toNat =
      marks.countP Mark.isDecision + post'.isDeciding.toNat := by
  cases h with
  | quiet _ hlife =>
    obtain ⟨hfailures, hdecisions⟩ := Mark.none_of_life_or_commit fun mark hmem =>
      .inl (hlife mark hmem)
    rw [hfailures, hdecisions]
  | accepts millis topic hresolves =>
    obtain ⟨hfailures, hdecisions⟩ := Mark.none_of_life_or_commit fun mark hmem =>
      .inr (hresolves.commits mark hmem)
    rw [hresolves.not_deciding]
    simp [Mark.isFailure, Mark.isDecision, Post.isDeciding, *]
  | skips topic stopping hresolves =>
    obtain ⟨hfailures, hdecisions⟩ := Mark.none_of_life_or_commit fun mark hmem =>
      .inr (hresolves.commits mark hmem)
    rw [hresolves.not_deciding]
    simp [List.countP_cons, Mark.isFailure, Mark.isDecision, Post.isDeciding, *]
  | stops rest topic stopping hgivesUp =>
    obtain ⟨hfailures, hdecisions⟩ := Mark.none_of_life_or_commit fun mark hmem =>
      .inr (hgivesUp.commits mark hmem)
    simp [List.countP_cons, Mark.isFailure, Mark.isDecision, Post.isDeciding, *]
  | interrupted rest backoff hgivesUp =>
    obtain ⟨hfailures, hdecisions⟩ := Mark.none_of_life_or_commit fun mark hmem =>
      .inr (hgivesUp.commits mark hmem)
    simp [List.countP_cons, Mark.isFailure, Mark.isDecision, Post.isDeciding, *]
  | cutShort rest hgivesUp =>
    obtain ⟨hfailures, hdecisions⟩ := Mark.none_of_life_or_commit fun mark hmem =>
      .inr (hgivesUp.commits mark hmem)
    rw [hfailures, hdecisions]
    rfl
  | breaksOff n trial hlife => exact absurd rfl hbroken
  | cutOff hpost hlife =>
    obtain ⟨hfailures, hdecisions⟩ := Mark.none_of_life_or_commit fun mark hmem =>
      .inl (hlife mark hmem)
    rw [hfailures, hdecisions, hpost]
    rfl
  | _ => rfl

/-! ### Sums over the workers of a name -/

namespace System

variable {D H : Type} {sys sys' : System} {name : String}

/-- A sum over all workers that were ever started for registrations of a name. -/
def totalOf (sys : System) (name : String) (f : Worker → Nat) : Nat :=
  ((sys.workersNamed name).map f).sum

/-- What a worker adds to a sum, if it is of the name. -/
def share (name : String) (f : Worker → Nat) (w : Worker) : Nat :=
  if w.plan.registration = name then f w else 0

theorem totalOf_eq (sys : System) (name : String) (f : Worker → Nat) :
    sys.totalOf name f = (sys.workers.map (share name f)).sum := by
  rw [totalOf, workersNamed]
  induction sys.workers with
  | nil => rfl
  | cons w rest ih =>
    rw [List.filter_cons, List.map_cons, List.sum_cons, ← ih, share]
    split
    next h => rw [if_pos (of_decide_eq_true h), List.map_cons, List.sum_cons]
    next h => rw [if_neg (of_decide_eq_false (Bool.eq_false_iff.mpr h)), Nat.zero_add]

/-- A turn changes what the worker whose turn it is adds. -/
theorem totalOf_turn (name : String) {place : Nat} {w : Worker}
    (hw : sys.workers[place]? = some w) (step : Turn → Turn) (f : Worker → Nat) :
    (sys.turn place step).totalOf name f + share name f w =
      sys.totalOf name f + share name f (step ⟨w, sys.broker, sys.samples⟩).worker := by
  obtain ⟨hplace, hget⟩ := List.getElem?_eq_some_iff.mp hw
  have hsplit : sys.workers = sys.workers.take place ++ w :: sys.workers.drop (place + 1) := by
    rw [← hget, List.getElem_cons_drop, List.take_append_drop]
  rw [totalOf_eq, totalOf_eq, turn_eq hw]
  simp only [List.set_eq_take_append_cons_drop, if_pos hplace]
  conv_rhs => rw [hsplit]
  simp only [List.map_append, List.map_cons, List.sum_append, List.sum_cons]
  omega

/-- What new workers add nothing to, and what those that are left alone add the same to as before,
stays the same aside. -/
theorem Aside.totalOf (h : sys.Aside sys') {f : Worker → Nat}
    (hkept : ∀ w w', w.Kept w' → f w' = f w) (hnew : ∀ w, w.New → f w = 0) :
    sys'.totalOf name f = sys.totalOf name f := by
  have hshare : ∀ w w', w.Kept w' → share name f w' = share name f w := fun w w' hk => by
    rw [share, share, hk.plan, hkept w w' hk]
  obtain ⟨fresh, hfresh, hmap⟩ := h.map_workers hshare
  have hnone : (fresh.map (share name f)).sum = 0 := by
    refine List.sum_eq_zero fun a ha => ?_
    obtain ⟨w, hw, rfl⟩ := List.mem_map.mp ha
    rw [share, hnew w (hfresh w hw), ite_self]
  rw [totalOf_eq, totalOf_eq, hmap, List.sum_append, hnone, Nat.add_zero]

/-! ### The journal -/

/-- **A journal of a name** is a list of marks. Its samples are those of the registration, each
counter of its workers is worth what its marks are worth, and as long as no decoder and no policy of
them breaks off, there is a decision on each failure but for those that a policy is being asked
about. -/
structure Journal (sys : System) (name : String) (unbroken : Prop) (marks : List Mark) : Prop where
  samples : samplesOf sys.samples name = marks.flatMap (Mark.samples name)
  counted : ∀ tally : Tally,
    sys.totalOf name (fun w => tally.counter w.metrics) = (marks.map tally.worth).sum
  decided : unbroken → marks.countP Mark.isFailure =
    marks.countP Mark.isDecision + sys.totalOf name (·.activity.post.isDeciding.toNat)

theorem journal_empty (name : String) (unbroken : Prop) : Journal .empty name unbroken [] where
  samples := rfl
  counted _ := rfl
  decided _ := rfl

variable {unbroken : Prop} {marks : List Mark}

/-- Whether a decoder or the policy breaks off, of a worker of a name. -/
def breaksOff (name : String) (sys : System) : Event D H → Bool
  | .work place ev =>
    (sys.workers[place]?).any fun w =>
      decide (w.plan.registration = name) && decide (w.hears? ev = some .brokenOff)
  | _ => false

/-- What happens aside adds nothing to the journal. -/
theorem Journal.aside (h : sys.Journal name unbroken marks) (haside : sys.Aside sys')
    (hsamples : sys'.samples = sys.samples) : sys'.Journal name unbroken marks where
  samples := by rw [hsamples, h.samples]
  counted tally := by
    rw [← h.counted]
    refine haside.totalOf (fun w w' hk => ?_) fun w hnew => ?_
    · rw [hk.metrics]
    · rw [hnew.metrics, tally.empty]
  decided hunbroken := by
    rw [h.decided hunbroken]
    congr 1
    refine (haside.totalOf (fun w w' hk => ?_) fun w hnew => ?_).symm
    · rw [hk.activity]
    · rw [hnew.activity]
      rfl

/-- **What a worker does adds its marks to the journal** of its name. -/
theorem Journal.work (h : sys.Journal name unbroken marks) {place : Nat} {w : Worker}
    (hw : sys.workers[place]? = some w) (hc : Coherent w.plan w.activity.standing w.session)
    (ev : WorkerEvent) :
    ∃ more, (sys.turn place (ev.apply sys.now)).Journal name
      (unbroken ∧ sys.breaksOff name (.work place ev : Event D H) = false) (marks ++ more) := by
  obtain ⟨more, hwrites, hnotes⟩ := ev.notes sys.now (t := ⟨w, sys.broker, sys.samples⟩) hc
  have hsamples : (sys.turn place (ev.apply sys.now)).samples =
      sys.samples ++ more.flatMap (Mark.samples w.plan.registration) := by
    rw [turn_eq hw]
    exact hwrites.samples
  have hturn := totalOf_turn name hw (ev.apply sys.now)
  simp only [share, hwrites.plan] at hturn
  by_cases hname : w.plan.registration = name
  · simp only [if_pos hname] at hturn
    refine ⟨more, ?_, fun tally => ?_, fun hunbroken => ?_⟩
    · rw [hsamples, samplesOf, List.filter_append, ← samplesOf, ← samplesOf, h.samples,
        Mark.samplesOf_samples, if_pos hname, List.flatMap_append]
    · have htotal := hturn fun w => tally.counter w.metrics
      simp only [hwrites.metrics, tally.countAll, h.counted] at htotal
      rw [List.map_append, List.sum_append]
      omega
    · have hheard : w.hears? ev ≠ some .brokenOff := by
        have hbreaks := hunbroken.2
        rw [breaksOff, hw, Option.any_some, decide_eq_true hname, Bool.true_and] at hbreaks
        exact of_decide_eq_false hbreaks
      have htotal := hturn (·.activity.post.isDeciding.toNat)
      have hmore := hnotes.decided hheard
      have hbefore := h.decided hunbroken.1
      rw [List.countP_append, List.countP_append]
      simp only at htotal hmore
      omega
  · -- The worker is of another name, and none of its marks belong here.
    simp only [if_neg hname, Nat.add_zero] at hturn
    refine ⟨[], ?_, fun tally => ?_, fun hunbroken => ?_⟩
    · rw [List.append_nil, hsamples, samplesOf, List.filter_append, ← samplesOf, ← samplesOf,
        h.samples, Mark.samplesOf_samples, if_neg hname, List.append_nil]
    · rw [List.append_nil, hturn, h.counted]
    · rw [List.append_nil, hturn, h.decided hunbroken.1]

/-- **One more event adds its marks to the journal.** -/
theorem Journal.apply (h : sys.Journal name unbroken marks) (hs : sys.Sound) (e : Event D H) :
    ∃ more, (sys.apply e).Journal name (unbroken ∧ sys.breaksOff name e = false)
      (marks ++ more) := by
  rcases apply_cases hs.settled e with ⟨haside, hactor⟩ | ⟨place, w, ev, deed, w', rfl, hacts⟩
  · have hjournal := h.aside haside (samples_aside hs.settled hactor)
    refine ⟨[], ?_⟩
    rw [List.append_nil]
    exact { hjournal with decided := fun hunbroken => hjournal.decided hunbroken.1 }
  · exact h.work hacts.before (hs.coherent w (List.mem_of_getElem? hacts.before)) ev

/-! ### What is exported and what is reported -/

/-- What is reported of the workers of a name, summed up. -/
def reported (sys : System) (name : String) (counter : WorkerMetrics → Nat) : Nat :=
  sys.totalOf name fun w => counter w.status.metrics

/-- Two numbers agree if they are the same word, and the same number as long as there are no more
samples than a word can count. -/
structure Agree (sys : System) (a b : Nat) : Prop where
  word : lowWord64 a = lowWord64 b
  exact : sys.samples.length ≤ maxWord64 → a = b

/-- **What is exported of a registration agrees with what is reported of its workers.** -/
structure Accords (sys : System) (name : String) : Prop where
  polls : sys.Agree (exported sys.samples name "consumer_polls_total" [])
    (sys.reported name (·.batches))
  batches : sys.Agree (observed sys.samples name "consumer_poll_batch_size").length
    (sys.reported name (·.batches))
  /-- Sizes are exported as floats, which hold whole numbers below `2⁵³`. -/
  sizes : sys.totalOf name (·.metrics.received) < 2 ^ 53 →
    ((observed sys.samples name "consumer_poll_batch_size").map wholePart).sum =
      sys.reported name (·.received)
  processed : sys.Agree
    (exported sys.samples name "consumer_records_total" [("outcome", "processed")])
    (sys.reported name (·.processed))
  skipped : sys.Agree
    (exported sys.samples name "consumer_records_total" [("outcome", "skipped")])
    (sys.reported name (·.skipped))
  continued : sys.Agree
    (exported sys.samples name "consumer_decisions_total" [("decision", "continue")])
    (sys.reported name (·.skipped))
  stopped : sys.Agree
    (exported sys.samples name "consumer_decisions_total" [("decision", "stop")])
    (exported sys.samples name "consumer_records_total" [("outcome", "stopped")])
  retried : sys.Agree
    (exported sys.samples name "consumer_decisions_total" [("decision", "retry")])
    (sys.reported name (·.retries))
  committed : sys.Agree
    (exported sys.samples name "consumer_commits_total" [("status", "success")])
    (sys.reported name (·.commits))
  calls : (observed sys.samples name "consumer_handler_duration_ms").length =
    sys.reported name (·.latency.count)

theorem Agree.of_shows {a b : Nat} (counted : Nat) (ha : Shows a counted) (hb : Shows b counted)
    (h : counted ≤ sys.samples.length) : sys.Agree a b where
  word := ha.word.trans hb.word.symm
  exact hle := (ha.exact (Nat.le_trans h hle)).trans (hb.exact (Nat.le_trans h hle)).symm

namespace Journal

/-- What the counters of a registration show is what its marks add to them. -/
theorem shows_exported (h : sys.Journal name unbroken marks) (series : String)
    (labels : List (String × String)) :
    Shows (exported sys.samples name series labels)
      (marks.map (Mark.adds name series labels)).sum := by
  have hsum : ((marks.flatMap (Mark.samples name)).map
      (·.adds series (("registration", name) :: labels))).sum =
        (marks.map (Mark.adds name series labels)).sum := by
    rw [List.map_flatMap, List.flatMap_def, List.sum_flatten, List.map_map]
    rfl
  rw [← hsum, ← h.samples]
  exact StreamDispatch.shows_exported sys.samples name series labels

/-- The marks have no more samples than there are. -/
theorem sum_le_samples (h : sys.Journal name unbroken marks) {f : Mark → Nat}
    (hf : ∀ mark, f mark ≤ (mark.samples name).length) :
    (marks.map f).sum ≤ sys.samples.length :=
  calc (marks.map f).sum
      ≤ (marks.map fun mark => (mark.samples name).length).sum :=
        List.sum_le_sum fun mark _ => hf mark
    _ = (samplesOf sys.samples name).length := by rw [h.samples, List.length_flatMap]
    _ ≤ sys.samples.length := List.length_filter_le _ _

/-- What the marks add to a counter is no more than the samples there are. -/
theorem sum_adds_le (h : sys.Journal name unbroken marks) {series : String}
    (hseries : series ≠ "consumer_committed_offsets_total") (labels : List (String × String)) :
    (marks.map (Mark.adds name series labels)).sum ≤ sys.samples.length := by
  refine h.sum_le_samples fun mark => ?_
  rw [Mark.adds, ← List.length_map (fun s : Sample =>
    s.adds series (("registration", name) :: labels))]
  refine (List.sum_le_card_nsmul _ 1 fun n hn => ?_).trans (Nat.le_of_eq (Nat.mul_one _))
  obtain ⟨s, -, rfl⟩ := List.mem_map.mp hn
  exact s.adds_le_one hseries _

theorem shows_reported (h : sys.Journal name unbroken marks) (tally : Tally)
    (hword : ∀ m, Shows (tally.counter m.snapshot) (tally.counter m)) :
    Shows (sys.reported name tally.counter) (marks.map tally.worth).sum := by
  rw [← h.counted]
  exact shows_sum _ fun w => hword w.metrics

/-- **A counter that is exported agrees with one that is reported** if each mark adds to it what it
is worth. -/
theorem agree (h : sys.Journal name unbroken marks) (tally : Tally) {series : String}
    {labels : List (String × String)} (hseries : series ≠ "consumer_committed_offsets_total")
    (hword : ∀ m, Shows (tally.counter m.snapshot) (tally.counter m))
    (hadds : ∀ mark, mark.adds name series labels = tally.worth mark) :
    sys.Agree (exported sys.samples name series labels) (sys.reported name tally.counter) := by
  refine .of_shows _ (h.shows_exported series labels) ?_ (h.sum_adds_le hseries labels)
  rw [funext hadds]
  exact h.shows_reported tally hword

/-- What a histogram shows is what the marks observe. -/
theorem observed_eq (h : sys.Journal name unbroken marks) (series : String) :
    observed sys.samples name series = marks.flatMap (Mark.observes name series) := by
  rw [StreamDispatch.observed_eq, h.samples, List.flatMap_assoc]
  rfl

/-- A histogram has as many observations as its marks. -/
theorem length_observed (h : sys.Journal name unbroken marks) (tally : Tally) (series : String)
    (hone : ∀ mark, (mark.observes name series).length = tally.worth mark) :
    (observed sys.samples name series).length = (marks.map tally.worth).sum := by
  rw [h.observed_eq, List.length_flatMap]
  exact congrArg List.sum (List.map_congr_left fun mark _ => hone mark)

/-- The sizes of batches are exported as they are, as long as a float can hold them. -/
theorem sum_sizes (h : sys.Journal name unbroken marks)
    (hsmall : sys.totalOf name (·.metrics.received) < 2 ^ 53) :
    ((observed sys.samples name "consumer_poll_batch_size").map wholePart).sum =
      sys.totalOf name (·.metrics.received) := by
  have hcounted : sys.totalOf name (·.metrics.received) = (marks.map Tally.received.worth).sum :=
    h.counted .received
  rw [hcounted] at hsmall ⊢
  rw [h.observed_eq]
  clear h hcounted
  induction marks with
  | nil => rfl
  | cons mark rest ih =>
    rw [List.map_cons, List.sum_cons] at hsmall ⊢
    rw [List.flatMap_cons, List.map_append, List.sum_append, ih (by omega)]
    congr 1
    cases mark with
    | batch size =>
      have hsize : size < 2 ^ 53 := Nat.lt_of_le_of_lt (Nat.le_add_right _ _) hsmall
      have hobserves : (Mark.batch size).observes name "consumer_poll_batch_size" =
          [nearestFloat size] := by
        simp [Mark.observes, Mark.samples, Sample.observes, Sample.observations, registrationSeries]
      rw [hobserves, List.map_singleton, List.sum_singleton, wholePart_nearestFloat hsize]
      rfl
    | ended failure =>
      cases failure <;> rfl
    | _ => simp [Mark.observes, Mark.samples, Sample.observes, Sample.observations,
        registrationSeries, Tally.received]

/-- **Each failure is exported as one decision**, unless a policy is being asked about it or has
broken off. -/
theorem decisions (h : sys.Journal name unbroken marks) (hunbroken : unbroken)
    (hwaits : ∀ w ∈ sys.workersNamed name, w.activity.post.isDeciding = false) :
    sys.Agree (exported sys.samples name "consumer_decisions_total" [("decision", "continue")] +
        exported sys.samples name "consumer_decisions_total" [("decision", "stop")] +
        exported sys.samples name "consumer_decisions_total" [("decision", "retry")])
      (sys.reported name (·.failures)) := by
  have hnone : sys.totalOf name (·.activity.post.isDeciding.toNat) = 0 := by
    refine List.sum_eq_zero fun n hn => ?_
    obtain ⟨w, hw, rfl⟩ := List.mem_map.mp hn
    rw [hwaits w hw]
    rfl
  have hcounts : (marks.map Tally.failures.worth).sum = marks.countP Mark.isDecision := by
    rw [Mark.sum_failures, h.decided hunbroken, hnone, Nat.add_zero]
  have hshows := fun decision =>
    h.shows_exported "consumer_decisions_total" [("decision", decision)]
  refine .of_shows (marks.countP Mark.isDecision) ?_ ?_ ?_
  · rw [← Mark.sum_decisions name marks]
    exact ((hshows "continue").add (hshows "stop")).add (hshows "retry")
  · rw [← hcounts]
    exact h.shows_reported .failures fun m => shows_lowWord64 _
  · rw [Mark.countP_eq_sum]
    refine h.sum_le_samples fun mark => ?_
    cases mark <;> simp [Mark.isDecision, Mark.samples]

/-- **What is exported agrees with what is reported**, as long as both are what the journal says. -/
theorem accords (h : sys.Journal name unbroken marks) : sys.Accords name where
  polls := h.agree .batches (by decide) (fun m => shows_lowWord64 _)
    (Mark.adds_polls name)
  batches := by
    have hlength := h.length_observed .batches "consumer_poll_batch_size" fun mark => by
      cases mark with
      | ended failure => cases failure <;> rfl
      | _ => rfl
    rw [hlength]
    refine .of_shows _ ⟨rfl, fun _ => rfl⟩
      (h.shows_reported .batches fun m => shows_lowWord64 _) ?_
    rw [← funext (Mark.adds_polls name)]
    exact h.sum_adds_le (by decide) []
  sizes hsmall := by
    have hcounted : sys.totalOf name (·.metrics.received) = (marks.map Tally.received.worth).sum :=
      h.counted .received
    rw [h.sum_sizes hsmall, hcounted]
    refine ((h.shows_reported .received fun m => shows_lowWord64 _).exact ?_).symm
    rw [← hcounted]
    exact Nat.le_of_lt (Nat.lt_trans hsmall (by decide))
  processed := h.agree .processed (by decide) (fun m => shows_lowWord64 _) fun mark => by
    rw [show "processed" = RecordOutcome.processed.name from rfl, Mark.adds_records]
    cases mark <;> rfl
  skipped := h.agree .skipped (by decide) (fun m => shows_lowWord64 _) fun mark => by
    rw [show "skipped" = RecordOutcome.skipped.name from rfl, Mark.adds_records]
    cases mark <;> rfl
  continued := h.agree .skipped (by decide) (fun m => shows_lowWord64 _) fun mark => by
    rw [Mark.adds_decisions]
    cases mark <;> rfl
  stopped := by
    have hsame : ∀ mark : Mark, mark.adds name "consumer_decisions_total" [("decision", "stop")] =
        mark.adds name "consumer_records_total" [("outcome", "stopped")] := by
      intro mark
      rw [show "stopped" = RecordOutcome.stopped.name from rfl, Mark.adds_records,
        Mark.adds_decisions]
      cases mark <;> rfl
    refine .of_shows _ (h.shows_exported _ _) ?_ (h.sum_adds_le (by decide) _)
    rw [funext hsame]
    exact h.shows_exported _ _
  retried := h.agree .retries (by decide) (fun m => shows_lowWord64 _) fun mark => by
    rw [Mark.adds_decisions]
    cases mark <;> rfl
  committed := h.agree .commits (by decide) (fun m => shows_lowWord64 _)
    (Mark.adds_commits name)
  calls := by
    have hlength := h.length_observed .calls "consumer_handler_duration_ms" fun mark => by
      cases mark with
      | ended failure => cases failure <;> rfl
      | _ => rfl
    rw [hlength]
    exact (h.counted .calls).symm

end Journal

end System

/-! ### Throughout every history -/

namespace History

variable {D H : Type}

/-- The events with which a decoder or a policy of the workers of a name broke off. -/
def brokenOff (name : String) : List (Event D H) → List (Event D H) :=
  eventsWhere (System.breaksOff name)

theorem brokenOff_concat (name : String) (events : List (Event D H)) (e : Event D H) :
    brokenOff name (events ++ [e]) = [] ↔
      brokenOff name events = [] ∧ (of events).system.breaksOff name e = false := by
  rw [brokenOff, eventsWhere, noted_concat, List.append_eq_nil_iff]
  cases (of events).system.breaksOff name e <;> simp

/-- There is a journal of each name throughout every history. -/
theorem journal (events : List (Event D H)) (name : String) :
    ∃ marks, (of events).system.Journal name (brokenOff name events = []) marks := by
  induction events using List.reverseRecOn with
  | nil => exact ⟨[], System.journal_empty name _⟩
  | append_singleton events e ih =>
    obtain ⟨marks, hjournal⟩ := ih
    obtain ⟨more, hmore⟩ := hjournal.apply (sound events) e
    rw [system_concat, brokenOff_concat]
    exact ⟨marks ++ more, hmore⟩

/-- **What is exported of a registration agrees with what is reported of all its workers**,
throughout every history. The decisions add up to the failures as soon as all of its decoders and
policies have returned. -/
theorem exported_accords (events : List (Event D H)) (name : String) :
    (of events).system.Accords name ∧
    (brokenOff name events = [] →
      (∀ w ∈ (of events).system.workersNamed name, Turn.runsApplication w.activity = false) →
      let samples := (of events).system.samples
      (of events).system.Agree
        (exported samples name "consumer_decisions_total" [("decision", "continue")] +
          exported samples name "consumer_decisions_total" [("decision", "stop")] +
          exported samples name "consumer_decisions_total" [("decision", "retry")])
        ((of events).system.reported name (·.failures))) := by
  obtain ⟨marks, hjournal⟩ := journal events name
  refine ⟨hjournal.accords, fun hunbroken hwaits => hjournal.decisions hunbroken fun w hw => ?_⟩
  have hruns := hwaits w hw
  cases hactivity : w.activity with
  | working job stage =>
    cases stage with
    | deciding failure =>
      rw [hactivity] at hruns
      cases hruns
    | _ => rfl
  | _ => rfl

/-- A worker is told to stop and another one of the name takes over: two polls are exported, three
records processed, and the one decision. -/
theorem exported_accords_restart :
    (of restart).system.Accords "first" ∧
    (of restart).system.reported "first" (·.batches) = 2 ∧
    (of restart).system.reported "first" (·.processed) = 3 ∧
    (of restart).system.reported "first" (·.failures) = 1 ∧
    exported (of restart).system.samples "first" "consumer_decisions_total"
        [("decision", "continue")] +
      exported (of restart).system.samples "first" "consumer_decisions_total"
        [("decision", "stop")] +
      exported (of restart).system.samples "first" "consumer_decisions_total"
        [("decision", "retry")] = 1 := by
  obtain ⟨haccords, hdecisions⟩ := exported_accords restart "first"
  have hunbroken : brokenOff "first" restart = [] :=
    List.eq_nil_of_length_eq_zero (by decide +kernel)
  have hagree := hdecisions hunbroken (by decide +kernel)
  have hfailures : (of restart).system.reported "first" (·.failures) = 1 := by decide +kernel
  refine ⟨haccords, by decide +kernel, by decide +kernel, hfailures, ?_⟩
  rw [← hfailures]
  exact hagree.exact (by decide +kernel)

end History

end StreamDispatch
