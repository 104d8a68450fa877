import StreamDispatch.Proofs.Worker.Protocol

/-!
# Bounded retry

The worker itself tries again as often as its policy says so. That it comes to an end with a
record that always fails is up to the policy, and this file is about policies that see to it:
retry policies with one another for fallbacks, any number of them, and one of the policies at the
end that stop or skip (`StreamDispatch.ErrorPolicy.chain`).

Such a policy tries again exactly as long as one of its plans does
(`StreamDispatch.TriesAgain`). A plan compares the number of the failed attempt with its own, so
what has to be known is that the attempts are numbered one after the other. The numbers stick at
the greatest one of 32 bits, but no plan allows for more attempts than that, and so the greatest
number is never left behind.

## Main definitions

* `StreamDispatch.ErrorPolicy.chain`: retry policies, and one at the end.
* `StreamDispatch.numbers`, `StreamDispatch.failures`: the attempts of a dispatch, and what they
  failed with.
* `StreamDispatch.FailsUnder`: all attempts fail, and a policy decides.
* `StreamDispatch.limit`: the most attempts that plans allow for.

## Main statements

* `StreamDispatch.Course.retries`: how far a record is that always fails.
* `StreamDispatch.Turn.bounded_retry`: the dispatch ends, after so many attempts.
-/

namespace StreamDispatch

/-! ### Policies that try again -/

/-- Retry policies, each with the next one for a fallback, and a policy at the end. -/
def ErrorPolicy.chain (plans : List RetryPlan) (last : ErrorPolicy) : ErrorPolicy :=
  plans.foldr .retry last

/-- **One of some plans tries again** after a failure: it allows for more attempts, and covers
failures of this kind. -/
def TriesAgain (plans : List RetryPlan) (failure : RecordFailure) : Prop :=
  ∃ plan ∈ plans, failure.attempt < plan.maxAttempts ∧
    (plan.handlerOnly = false ∨ failure.kind = .handler)

theorem RetryPlan.covers_iff (plan : RetryPlan) (kind : FailureKind) :
    plan.covers kind = true ↔ plan.handlerOnly = false ∨ kind = .handler := by
  cases kind <;> simp [covers, FailureKind.isDecoding]

variable {plans : List RetryPlan} {last : ErrorPolicy} {record : RawRecord}
  {failure : RecordFailure}

theorem triesAgain_cons {plan : RetryPlan} :
    TriesAgain (plan :: plans) failure ↔
      plan.covers failure.kind ∧ failure.attempt < plan.maxAttempts ∨
        TriesAgain plans failure := by
  simp only [TriesAgain, List.mem_cons, exists_eq_or_imp, RetryPlan.covers_iff]
  rw [and_comm]

/-- Every plan covers failures of the handler. -/
theorem triesAgain_handler (h : failure.kind = .handler) :
    TriesAgain plans failure ↔ ∃ plan ∈ plans, failure.attempt < plan.maxAttempts := by
  simp only [TriesAgain, h, or_true, and_true]

/-- Failures to decode are covered by the plans that are not for handlers only. -/
theorem triesAgain_decoding (h : failure.kind.isDecoding = true) :
    TriesAgain plans failure ↔
      ∃ plan ∈ plans.filter fun plan => !plan.handlerOnly, failure.attempt < plan.maxAttempts := by
  have hnot : failure.kind ≠ .handler := fun heq => by
    rw [heq] at h
    cases h
  simp only [TriesAgain, hnot, or_false, List.mem_filter, Bool.not_eq_true', and_assoc]
  exact exists_congr fun plan => and_congr_right fun _ => and_comm

namespace ErrorPolicy

/-- As long as a plan tries again, so does the policy. -/
theorem decide_chain (record : RawRecord) (last : ErrorPolicy) (h : TriesAgain plans failure) :
    ∃ backoff, (chain plans last).decide record failure = .ok (.retry backoff) := by
  induction plans with
  | nil => exact absurd h (by simp [TriesAgain])
  | cons plan plans ih =>
    rw [chain, List.foldr_cons, decide]
    split
    next => exact ⟨_, rfl⟩
    next hno => exact ih ((triesAgain_cons.mp h).resolve_left hno)

/-- After that, the policy at the end decides. -/
theorem decide_chain_of_not (record : RawRecord) (last : ErrorPolicy)
    (h : ¬ TriesAgain plans failure) :
    (chain plans last).decide record failure = last.decide record failure := by
  induction plans with
  | nil => rfl
  | cons plan plans ih =>
    obtain ⟨hno, hrest⟩ := not_or.mp (mt triesAgain_cons.mpr h)
    rw [chain, List.foldr_cons, decide, if_neg hno]
    exact ih hrest

/-- If the policy decides to try again, it is because of a plan: the one at the end does not. -/
theorem triesAgain_of_retry (hlast : last = .stop ∨ last = .ignore) {backoff : Span}
    (h : (chain plans last).decide record failure = .ok (.retry backoff)) :
    TriesAgain plans failure := by
  refine Classical.byContradiction fun hno => ?_
  rw [decide_chain_of_not record last hno] at h
  rcases hlast with rfl | rfl <;> cases h

/-- If it decides anything else, that is what the one at the end decides. -/
theorem decided_at_end {d : Decision} (h : (chain plans last).decide record failure = .ok d)
    (hd : ∀ backoff, d ≠ .retry backoff) :
    ¬ TriesAgain plans failure ∧ last.decide record failure = .ok d := by
  have hno : ¬ TriesAgain plans failure := fun hagain => by
    obtain ⟨backoff, hretry⟩ := decide_chain record last hagain
    exact hd backoff (Except.ok.inj (h.symm.trans hretry))
  exact ⟨hno, decide_chain_of_not record last hno ▸ h⟩

end ErrorPolicy

/-! ### How many attempts plans allow for -/

/-- The most attempts that some plans allow for; there is always one. -/
def limit (plans : List RetryPlan) : Nat :=
  plans.foldr (fun plan most => max plan.maxAttempts most) 1

theorem one_le_limit (plans : List RetryPlan) : 1 ≤ limit plans := by
  induction plans with
  | nil => exact Nat.le_refl 1
  | cons plan plans ih => exact Nat.le_trans ih (Nat.le_max_right _ _)

theorem le_limit {plan : RetryPlan} (h : plan ∈ plans) : plan.maxAttempts ≤ limit plans := by
  induction plans with
  | nil => exact absurd h List.not_mem_nil
  | cons first plans ih =>
    rcases List.mem_cons.mp h with rfl | hrest
    · exact Nat.le_max_left _ _
    · exact Nat.le_trans (ih hrest) (Nat.le_max_right _ _)

theorem limit_le {n : Nat} (hpos : 1 ≤ n) (h : ∀ plan ∈ plans, plan.maxAttempts ≤ n) :
    limit plans ≤ n := by
  induction plans with
  | nil => exact hpos
  | cons plan plans ih =>
    exact Nat.max_le.mpr ⟨h plan List.mem_cons_self,
      ih fun other hother => h other (List.mem_cons_of_mem plan hother)⟩

/-! ### Attempts and failures -/

/-- The number of the attempt that begins. -/
def Moment.number? : Moment → Option Nat
  | .attempt n => some n
  | _ => none

/-- The failure that a policy is asked about. -/
def Moment.failure? : Moment → Option RecordFailure
  | .call (.policy _ failure _) => some failure
  | _ => none

/-- **The numbers of the attempts** that have begun, the first one included. -/
def numbers (trace : List Moment) : List Nat := 1 :: trace.filterMap Moment.number?

/-- **What attempts have failed with**, as the policy was told. -/
def failures (trace : List Moment) : List RecordFailure := trace.filterMap Moment.failure?

/-- All attempts fail, a policy decides each time, and nobody asks the worker to stop. -/
structure FailsUnder (policy : ErrorPolicy) (trace : List Moment) : Prop where
  fails : ∀ context, .call (.handler context .accepted) ∉ trace
  ruled : ∀ record failure d, .call (.policy record failure d) ∈ trace →
    policy.decide record failure = .ok d
  unasked : .asked ∉ trace

variable {plan : Plan} {policy : ErrorPolicy} {asked : Bool} {n : Nat} {stage : Stage}
  {trace more moments : List Moment} {e : Ending}

theorem FailsUnder.append_iff :
    FailsUnder policy (trace ++ more) ↔ FailsUnder policy trace ∧ FailsUnder policy more := by
  constructor
  · intro h
    exact
      ⟨⟨fun context hmem => h.fails context (List.mem_append_left _ hmem),
          fun r f d hmem => h.ruled r f d (List.mem_append_left _ hmem),
          fun hmem => h.unasked (List.mem_append_left _ hmem)⟩,
        ⟨fun context hmem => h.fails context (List.mem_append_right _ hmem),
          fun r f d hmem => h.ruled r f d (List.mem_append_right _ hmem),
          fun hmem => h.unasked (List.mem_append_right _ hmem)⟩⟩
  · rintro ⟨h, h'⟩
    exact
      ⟨fun context hmem => (List.mem_append.mp hmem).elim (h.fails context) (h'.fails context),
        fun r f d hmem => (List.mem_append.mp hmem).elim (h.ruled r f d) (h'.ruled r f d),
        fun hmem => (List.mem_append.mp hmem).elim h.unasked h'.unasked⟩

@[simp] theorem numbers_append (trace more : List Moment) :
    numbers (trace ++ more) = numbers trace ++ more.filterMap Moment.number? := by
  rw [numbers, List.filterMap_append, numbers, List.cons_append]

@[simp] theorem failures_append (trace more : List Moment) :
    failures (trace ++ more) = failures trace ++ failures more := List.filterMap_append

@[simp] theorem failures_policy (record : RawRecord) (failure : RecordFailure) (d : Decision) :
    failures [.call (.policy record failure d)] = [failure] := rfl

/-- How many attempts have been decided about, in the attempt `n` at a stage. -/
def Stage.decided (n : Nat) : Stage → Nat
  | .backoff _ => n
  | _ => n - 1

/-- **How far a record is that always fails**, under plans that try again. -/
structure Retries (plans : List RetryPlan) (trace : List Moment) (n : Nat) (stage : Stage) :
    Prop where
  numbers : numbers trace = List.range' 1 n
  failures : (failures trace).map (·.attempt) = List.range' 1 (stage.decided n)
  again : ∀ failure ∈ StreamDispatch.failures trace, TriesAgain plans failure
  deciding : ∀ failure, stage = .deciding failure → failure.attempt = n

namespace Retries

theorem pos (h : Retries plans trace n stage) : 1 ≤ n := by
  have hlength := congrArg List.length h.numbers
  rw [List.length_range', StreamDispatch.numbers, List.length_cons] at hlength
  omega

/-- What has been decided about has failed. -/
theorem exists_failure (h : Retries plans trace n stage) {a : Nat} (hpos : 1 ≤ a)
    (ha : a ≤ stage.decided n) :
    ∃ failure ∈ StreamDispatch.failures trace, failure.attempt = a := by
  have hmem : a ∈ List.range' 1 (stage.decided n) := by
    rw [List.mem_range'_1]
    omega
  rw [← h.failures] at hmem
  exact List.mem_map.mp hmem

/-- An attempt that the policy has decided about is not the last one that plans allow for,
whichever of them it is that try again. -/
theorem decided_lt (h : Retries plans trace n stage) (hpos : 1 ≤ stage.decided n)
    {others : List RetryPlan} (hothers : ∀ failure ∈ StreamDispatch.failures trace,
      ∃ plan ∈ others, failure.attempt < plan.maxAttempts) :
    ∃ plan ∈ others, stage.decided n < plan.maxAttempts := by
  obtain ⟨failure, hmem, hattempt⟩ := h.exists_failure hpos (Nat.le_refl _)
  exact hattempt ▸ hothers failure hmem

theorem allowed (h : Retries plans trace n stage) :
    ∀ failure ∈ StreamDispatch.failures trace,
      ∃ plan ∈ plans, failure.attempt < plan.maxAttempts := by
  intro failure hmem
  obtain ⟨plan, hplan, hlt, -⟩ := h.again failure hmem
  exact ⟨plan, hplan, hlt⟩

/-- **There are no more attempts than plans allow for.** -/
theorem le_limit (h : Retries plans trace n stage) {others : List RetryPlan}
    (hothers : ∀ failure ∈ StreamDispatch.failures trace,
      ∃ plan ∈ others, failure.attempt < plan.maxAttempts) : n ≤ limit others := by
  have hdecided : n - 1 ≤ stage.decided n := by
    cases stage with
    | backoff deadline => exact Nat.sub_le n 1
    | _ => exact Nat.le_refl _
  by_cases hpos : 1 ≤ stage.decided n
  · obtain ⟨plan, hplan, hlt⟩ := h.decided_lt hpos hothers
    have hle := StreamDispatch.le_limit hplan
    omega
  · have hone := one_le_limit others
    omega

/-- Each attempt but the last one is followed by another, and that is because a plan tries
again. -/
theorem follows_iff (h : Retries plans trace n (.deciding failure))
    (hno : ¬ TriesAgain plans failure) :
    ∀ other ∈ StreamDispatch.failures trace ++ [failure],
      other.attempt + 1 ∈ List.range' 1 n ↔ TriesAgain plans other := by
  intro other hmem
  rw [List.mem_range'_1]
  rcases List.mem_append.mp hmem with hearlier | hlast
  · have hattempt : other.attempt ∈ List.range' 1 (n - 1) := by
      have hfailures : (StreamDispatch.failures trace).map (·.attempt) = List.range' 1 (n - 1) :=
        h.failures
      rw [← hfailures]
      exact List.mem_map_of_mem hearlier
    rw [List.mem_range'_1] at hattempt
    exact iff_of_true (by omega) (h.again other hearlier)
  · obtain rfl := List.mem_singleton.mp hlast
    have hattempt := h.deciding other rfl
    exact iff_of_false (by omega) hno

/-- **There are as many**, once no plan tries again. -/
theorem eq_limit (h : Retries plans trace n (.deciding failure))
    {others : List RetryPlan} (hothers : ∀ other ∈ StreamDispatch.failures trace ++ [failure],
      TriesAgain plans other ↔ ∃ plan ∈ others, other.attempt < plan.maxAttempts)
    (hno : ¬ TriesAgain plans failure) : n = limit others := by
  refine Nat.le_antisymm (h.le_limit fun other hmem => ?_) (StreamDispatch.limit_le h.pos ?_)
  · exact (hothers other (List.mem_append_left _ hmem)).mp (h.again other hmem)
  · intro plan hplan
    rw [← h.deciding failure rfl]
    exact Nat.not_lt.mp fun hlt =>
      hno ((hothers failure (List.mem_append_right _ List.mem_cons_self)).mpr ⟨plan, hplan, hlt⟩)

/-- A moment in which no attempt begins and the policy is not asked. -/
theorem of_unseen (h : Retries plans trace n stage) {stage' : Stage}
    (hnumbers : moments.filterMap Moment.number? = [])
    (hfailures : StreamDispatch.failures moments = [])
    (hdecided : stage'.decided n = stage.decided n)
    (hdeciding : ∀ failure, stage' = .deciding failure → failure.attempt = n) :
    Retries plans (trace ++ moments) n stage' where
  numbers := by rw [numbers_append, hnumbers, List.append_nil, h.numbers]
  failures := by rw [failures_append, hfailures, List.append_nil, h.failures, hdecided]
  again := by
    rw [failures_append, hfailures, List.append_nil]
    exact h.again
  deciding := hdeciding

/-- The policy decides about the attempt at hand. -/
theorem attempts_concat (h : Retries plans trace n (.deciding failure)) (record : RawRecord)
    (d : Decision) :
    (StreamDispatch.failures (trace ++ [.call (.policy record failure d)])).map (·.attempt) =
      List.range' 1 n := by
  obtain ⟨m, rfl⟩ := Nat.exists_eq_add_one.mpr h.pos
  have hfailures : (StreamDispatch.failures trace).map (·.attempt) = List.range' 1 m := h.failures
  rw [failures_append, List.map_append, hfailures, failures_policy, List.map_singleton,
    h.deciding failure rfl, List.range'_1_concat, Nat.add_comm 1 m]

end Retries

/-- **How far a record is that always fails**, as long as its dispatch goes on. -/
theorem Course.retries (hrange : ∀ plan ∈ plans, plan.maxAttempts ≤ maxWord32)
    (hlast : last = .stop ∨ last = .ignore) (h : Course plan record false trace n stage asked)
    (hfails : FailsUnder (.chain plans last) trace) : Retries plans trace n stage := by
  induction h with
  | begins =>
    exact ⟨rfl, rfl, fun _ hmem => absurd hmem List.not_mem_nil, fun _ hstage => by cases hstage⟩
  | @goes trace moments n n' stage stage' asked asked' hcourse step ih =>
    obtain ⟨hbefore, hnow⟩ := FailsUnder.append_iff.mp hfails
    have hretries := ih hbefore
    cases step with
    | key answer =>
      cases answer with
      | ok _ => exact hretries.of_unseen rfl rfl rfl fun _ hstage => by cases hstage
      | error message =>
        exact hretries.of_unseen rfl rfl rfl fun _ hstage => by cases hstage; rfl
    | value answer =>
      cases answer with
      | ok _ => exact hretries.of_unseen rfl rfl rfl fun _ hstage => by cases hstage
      | error message =>
        exact hretries.of_unseen rfl rfl rfl fun _ hstage => by cases hstage; rfl
    | handler hresult => exact hretries.of_unseen rfl rfl rfl fun _ hstage => by cases hstage; rfl
    | waits failure backoff deadline =>
      have hagain : TriesAgain plans failure :=
        ErrorPolicy.triesAgain_of_retry hlast (hnow.ruled _ _ _ List.mem_cons_self)
      refine ⟨?_, hretries.attempts_concat _ _, fun other hother => ?_,
        fun _ hstage => by cases hstage⟩
      · rw [numbers_append, hretries.numbers]
        exact List.append_nil _
      · rw [failures_append, failures_policy] at hother
        rcases List.mem_append.mp hother with hearlier | hlatest
        · exact hretries.again other hearlier
        · exact List.mem_singleton.mp hlatest ▸ hagain
    | again deadline =>
      -- A plan allows for another attempt, so the number does not stick here.
      obtain ⟨plan, hplan, hlt⟩ := hretries.decided_lt hretries.pos hretries.allowed
      have hlt : n < plan.maxAttempts := hlt
      have hnext : nextAttempt n = n + 1 := Nat.min_eq_left (Nat.le_trans hlt (hrange plan hplan))
      have hsame : failures (trace ++ [.attempt (n + 1)]) = failures trace :=
        (failures_append _ _).trans (List.append_nil _)
      rw [hnext]
      refine ⟨?_, hsame ▸ hretries.failures, hsame ▸ hretries.again,
        fun _ hstage => by cases hstage⟩
      rw [numbers_append, hretries.numbers, List.range'_1_concat, Nat.add_comm 1 n]
      rfl
    | isAsked => exact absurd List.mem_cons_self hnow.unasked
    | stays => rwa [List.append_nil]

/-- Nobody has asked the worker to stop then. -/
theorem Course.calm (h : Course plan record false trace n stage asked)
    (hfails : FailsUnder policy trace) : asked = false := by
  refine eq_false_of_ne_true fun hasked => ?_
  rcases h.asked_iff.mp hasked with hfalse | hmem
  · cases hfalse
  · exact hfails.unasked hmem

/-- **How the dispatch of such a record ends**: no plan tries again after the last failure, and
the end is the one of the policy at the end. -/
theorem Course.ends_retries (h : Course plan record false trace n stage asked)
    (hends : Ends plan record n stage asked moments e)
    (hfails : FailsUnder (.chain plans last) (trace ++ moments)) :
    ∃ failure d, stage = .deciding failure ∧ moments = [.call (.policy record failure d)] ∧
      ¬ TriesAgain plans failure ∧ (last = .stop → e = .stopped failure) ∧
      (last = .ignore → e = .skipped) := by
  obtain ⟨hbefore, hnow⟩ := FailsUnder.append_iff.mp hfails
  have hcalm := h.calm hbefore
  cases hends with
  | processed => exact absurd List.mem_cons_self (hnow.fails _)
  | skipped failure =>
    obtain ⟨hno, hdecides⟩ := ErrorPolicy.decided_at_end
      (hnow.ruled _ _ _ List.mem_cons_self) (fun backoff heq => by cases heq)
    refine ⟨failure, .proceed, rfl, rfl, hno, fun heq => ?_, fun _ => rfl⟩
    rw [heq] at hdecides
    cases hdecides
  | stopped failure =>
    obtain ⟨hno, hdecides⟩ := ErrorPolicy.decided_at_end
      (hnow.ruled _ _ _ List.mem_cons_self) (fun backoff heq => by cases heq)
    refine ⟨failure, .stop, rfl, rfl, hno, fun _ => rfl, fun heq => ?_⟩
    rw [heq] at hdecides
    cases hdecides
  | interruptedAtOnce => cases hcalm
  | interrupted => cases hcalm

/-! ### That it ends -/

theorem Answers.attempt_of_failure {a : Answers} (h : a.failure? n = some failure) :
    failure.attempt = n := by
  obtain ⟨key, value, handler⟩ := a
  cases key with
  | error message => cases h; rfl
  | ok _ =>
    cases value with
    | error message => cases h; rfl
    | ok _ =>
      obtain ⟨message, -, rfl⟩ := Option.map_eq_some_iff.mp h
      rfl

/-- In an attempt that fails the handler does not accept, and the policy is not asked yet. -/
theorem Answers.failsUnder_calls (plan : Plan) (record : RawRecord) (policy : ErrorPolicy)
    {a : Answers} (h : a.failure? n = some failure) :
    FailsUnder policy (a.calls plan record n) ∧ failures (a.calls plan record n) = [] ∧
      (a.calls plan record n).filterMap Moment.number? = [] := by
  obtain ⟨key, value, handler⟩ := a
  have haccepted : ∀ {x y : Unit}, (⟨.ok x, .ok y, handler⟩ : Answers).failure? n = some failure →
      handler ≠ .accepted := by
    rintro x y hfailure rfl
    cases hfailure
  cases key with
  | error message => exact ⟨⟨by simp [calls], by simp [calls], by simp [calls]⟩, rfl, rfl⟩
  | ok _ =>
    cases value with
    | error message => exact ⟨⟨by simp [calls], by simp [calls], by simp [calls]⟩, rfl, rfl⟩
    | ok _ =>
      refine ⟨⟨?_, by simp [calls], by simp [calls]⟩, rfl, rfl⟩
      simp [calls, (haccepted h).symm]

theorem failsUnder_policy {d : Decision} (h : policy.decide record failure = .ok d) :
    FailsUnder policy [.call (.policy record failure d)] where
  fails context := by simp
  ruled r f d' hmem := by
    cases List.mem_singleton.mp hmem
    exact h
  unasked := by simp

theorem failsUnder_attempt (policy : ErrorPolicy) (n : Nat) : FailsUnder policy [.attempt n] :=
  ⟨by simp, by simp, by simp⟩

namespace Turn

variable {t t' : Turn} {job : Job}

/-- **What the policy decides** about a failure: there is another attempt because a plan tries
again, or the policy at the end ends the dispatch. -/
theorem AtHand.courseVerdict (plans : List RetryPlan) (hlast : last = .stop ∨ last = .ignore)
    (hat : t.AtHand job n (.deciding failure) false t') :
    (TriesAgain plans failure ∧ ∃ d t'',
      t'.Dispatches [.call (.policy job.record failure d), .attempt (nextAttempt n)] none t'' ∧
      t.AtHand job (nextAttempt n) .key false t'' ∧
      FailsUnder (.chain plans last)
        [.call (.policy job.record failure d), .attempt (nextAttempt n)]) ∨
    ∃ d e t'', t'.Dispatches [.call (.policy job.record failure d)] (some e) t'' ∧
      FailsUnder (.chain plans last) [.call (.policy job.record failure d)] := by
  by_cases hagain : TriesAgain plans failure
  · obtain ⟨backoff, hdecides⟩ := ErrorPolicy.decide_chain job.record last hagain
    obtain ⟨_, t₁, hretry, hat₁⟩ := hat.courseRetry backoff
    obtain ⟨t₂, hbegins, hat₂⟩ := hat₁.courseAgain
    exact .inl ⟨hagain, _, t₂, hretry.trans hbegins, hat₂,
      FailsUnder.append_iff.mpr ⟨failsUnder_policy hdecides, failsUnder_attempt _ _⟩⟩
  · have hdecides := ErrorPolicy.decide_chain_of_not job.record last hagain
    right
    rcases hlast with rfl | rfl
    · obtain ⟨t₁, hend⟩ := hat.courseStopped
      exact ⟨_, _, t₁, hend, failsUnder_policy hdecides⟩
    · obtain ⟨t₁, hend⟩ := hat.courseSkipped
      exact ⟨_, _, t₁, hend, failsUnder_policy hdecides⟩

/-- **A record that always fails is brought to an end**, however its attempts fail. -/
theorem AtHand.courseOut (hrange : ∀ plan ∈ plans, plan.maxAttempts ≤ maxWord32)
    (hlast : last = .stop ∨ last = .ignore) (answers : Nat → Answers)
    (hanswers : ∀ n, (answers n).failure? n ≠ none) (hat : t.AtHand job n .key false t') :
    ∃ trace e t'', t'.Dispatches trace (some e) t'' ∧ FailsUnder (.chain plans last) trace ∧
      (failures trace).map some =
        (n :: trace.filterMap Moment.number?).map fun n => (answers n).failure? n := by
  -- Each attempt that is tried again is one less below what plans allow for.
  induction hleft : limit plans - n using Nat.strongRecOn generalizing n t' with
  | _ left ih =>
    obtain ⟨failure, hfailure⟩ := Option.ne_none_iff_exists'.mp (hanswers n)
    obtain ⟨t₁, hattempt, hat₁⟩ := hat.courseFailure hfailure
    obtain ⟨hcalls, hnone, hnumbers⟩ :=
      Answers.failsUnder_calls t.worker.plan job.record (.chain plans last) hfailure
    rcases hat₁.courseVerdict plans hlast with
      ⟨hagain, d, t₂, hverdict, hat₂, hnow⟩ | ⟨d, e, t₂, hverdict, hnow⟩
    · obtain ⟨plan, hplan, hlt, -⟩ := hagain
      rw [Answers.attempt_of_failure hfailure] at hlt
      have hnext : nextAttempt n = n + 1 :=
        Nat.min_eq_left (Nat.le_trans hlt (hrange plan hplan))
      have hlimit := le_limit hplan
      rw [hnext] at hverdict hat₂ hnow
      obtain ⟨trace, e, t₃, hrest, hfails, hmap⟩ := ih (limit plans - (n + 1)) (by omega) hat₂ rfl
      refine ⟨_, e, t₃, (hattempt.trans hverdict).trans hrest,
        FailsUnder.append_iff.mpr ⟨FailsUnder.append_iff.mpr ⟨hcalls, hnow⟩, hfails⟩, ?_⟩
      have hfailed : failures [.call (.policy job.record failure d), .attempt (n + 1)] =
          [failure] := rfl
      have hbegun : [.call (.policy job.record failure d), .attempt (n + 1)].filterMap
          Moment.number? = [n + 1] := rfl
      simp only [failures_append, List.filterMap_append, hnone, hnumbers, hfailed, hbegun,
        List.nil_append, List.singleton_append, List.map_cons, hmap, hfailure]
    · refine ⟨_, e, t₂, hattempt.trans hverdict, FailsUnder.append_iff.mpr ⟨hcalls, hnow⟩, ?_⟩
      have hbegun : [.call (.policy job.record failure d)].filterMap Moment.number? = [] := rfl
      simp only [failures_append, failures_policy, List.filterMap_append, hnone, hnumbers, hbegun,
        List.nil_append, List.map_cons, List.map_nil, hfailure]

/-- **Wherever a dispatch is**, it can be brought to an end with attempts that fail. -/
theorem AtHand.courseOn (hrange : ∀ plan ∈ plans, plan.maxAttempts ≤ maxWord32)
    (hlast : last = .stop ∨ last = .ignore) (hat : t.AtHand job n stage false t') :
    ∃ more e t'', t'.Dispatches more (some e) t'' ∧ FailsUnder (.chain plans last) more := by
  have hkey : ∀ {n t'}, t.AtHand job n .key false t' →
      ∃ more e t'', t'.Dispatches more (some e) t'' ∧ FailsUnder (.chain plans last) more := by
    intro n t' hat
    obtain ⟨more, e, t'', hcourse, hfails, -⟩ := hat.courseOut hrange hlast
      (fun _ => ⟨.error "", .ok (), .accepted⟩) (fun n h => by cases h)
    exact ⟨more, e, t'', hcourse, hfails⟩
  have hdeciding : ∀ {failure t'}, t.AtHand job n (.deciding failure) false t' →
      ∃ more e t'', t'.Dispatches more (some e) t'' ∧ FailsUnder (.chain plans last) more := by
    intro failure t' hat
    rcases hat.courseVerdict plans hlast with
      ⟨-, d, t₁, hverdict, hat₁, hnow⟩ | ⟨d, e, t₁, hverdict, hnow⟩
    · obtain ⟨more, e, t'', hcourse, hfails⟩ := hkey hat₁
      exact ⟨_, e, t'', hverdict.trans hcourse, FailsUnder.append_iff.mpr ⟨hnow, hfails⟩⟩
    · exact ⟨_, e, t₁, hverdict, hnow⟩
  cases stage with
  | key => exact hkey hat
  | value =>
    obtain ⟨t₁, hvalue, hat₁⟩ := hat.courseValue (.error "")
    obtain ⟨more, e, t'', hcourse, hfails⟩ := hdeciding hat₁
    exact ⟨_, e, t'', hvalue.trans hcourse,
      FailsUnder.append_iff.mpr ⟨⟨by simp, by simp, by simp⟩, hfails⟩⟩
  | handler =>
    obtain ⟨t₁, hhandler, hat₁⟩ :=
      hat.courseHandler (rfl : (HandlerResult.failed "").failure? = some "")
    obtain ⟨more, e, t'', hcourse, hfails⟩ := hdeciding hat₁
    exact ⟨_, e, t'', hhandler.trans hcourse,
      FailsUnder.append_iff.mpr ⟨⟨by simp, by simp, by simp⟩, hfails⟩⟩
  | deciding failure => exact hdeciding hat
  | backoff deadline =>
    obtain ⟨t₁, hbegins, hat₁⟩ := hat.courseAgain
    obtain ⟨more, e, t'', hcourse, hfails⟩ := hkey hat₁
    exact ⟨_, e, t'', hbegins.trans hcourse,
      FailsUnder.append_iff.mpr ⟨failsUnder_attempt _ _, hfails⟩⟩

/-- **Bounded retry really bounds.** A worker that is not asked to stop has a record at hand, and
its policy is a chain of retry policies with one at the end that stops or skips.

* As long as all attempts fail, they are numbered one after the other, and there are no more of
  them than the plans allow for. When the dispatch has ended, each of them has failed once, and
  another one came after it exactly if one of the plans tried again. The end is the one of the
  policy at the end, with the last failure.
* If it was always the handler that failed, there were as many attempts as the plans allow for at
  most; and if it was always a decoder, as many as those plans do that are not for handlers only.
* The dispatch does end: wherever it is, it can be brought to an end with attempts that fail, and
  from the beginning with whatever they are to fail with. -/
theorem bounded_retry (hrange : ∀ plan ∈ plans, plan.maxAttempts ≤ maxWord32)
    (hlast : last = .stop ∨ last = .ignore)
    (hactivity : t.worker.activity = .working job .key) (hfirst : job.attempt = 1)
    (hcalm : t.worker.stopping = false) :
    (∀ trace ending t', t.Dispatches trace ending t' → FailsUnder (.chain plans last) trace →
      numbers trace = List.range' 1 (numbers trace).length ∧
      (numbers trace).length ≤ limit plans ∧
      ∀ e, ending = some e →
        (failures trace).map (·.attempt) = numbers trace ∧
        (∀ failure ∈ failures trace,
          failure.attempt + 1 ∈ numbers trace ↔ TriesAgain plans failure) ∧
        (∃ failure, (failures trace).getLast? = some failure ∧
          (last = .stop → e = .stopped failure) ∧ (last = .ignore → e = .skipped)) ∧
        ((∀ failure ∈ failures trace, failure.kind = .handler) →
          (numbers trace).length = limit plans) ∧
        ((∀ failure ∈ failures trace, failure.kind.isDecoding = true) →
          (numbers trace).length = limit (plans.filter fun plan => !plan.handlerOnly))) ∧
    (∀ trace t', t.Dispatches trace none t' → FailsUnder (.chain plans last) trace →
      ∃ more e t'', t.Dispatches (trace ++ more) (some e) t'' ∧
        FailsUnder (.chain plans last) (trace ++ more)) ∧
    ∀ answers : Nat → Answers, (∀ n, (answers n).failure? n ≠ none) →
      ∃ trace e t', t.Dispatches trace (some e) t' ∧ FailsUnder (.chain plans last) trace ∧
        (failures trace).map some = (numbers trace).map fun n => (answers n).failure? n := by
  have hat := atHand_first hactivity hfirst
  refine ⟨fun trace ending t' h hfails => ?_, fun trace t' h hfails => ?_,
    fun answers hanswers => ?_⟩
  · cases h.comesTo hactivity hfirst with
    | @atHand _ n stage asked _ course atHand =>
      rw [hcalm] at course
      have hretries := course.retries hrange hlast hfails
      rw [hretries.numbers, List.length_range']
      exact ⟨rfl, hretries.le_limit hretries.allowed, fun e he => by cases he⟩
    | @concluded trace moments n stage asked e t₁ course step plan session =>
      rw [hcalm] at course
      have hretries := course.retries hrange hlast (FailsUnder.append_iff.mp hfails).1
      obtain ⟨failure, d, rfl, rfl, hno, hstop, hignore⟩ :=
        course.ends_retries step hfails
      have hnumbers : numbers (trace ++ [.call (.policy job.record failure d)]) =
          List.range' 1 n := by
        rw [numbers_append, hretries.numbers]
        exact List.append_nil _
      have hattempts := hretries.attempts_concat job.record d
      rw [hnumbers, List.length_range']
      refine ⟨rfl, hretries.le_limit hretries.allowed, fun e' he => ?_⟩
      obtain rfl := Option.some.inj he
      rw [failures_append, failures_policy] at hattempts ⊢
      refine ⟨hattempts, hretries.follows_iff hno, ⟨failure, List.getLast?_concat, hstop, hignore⟩,
        fun hkind => hretries.eq_limit (fun other hmem => ?_) hno,
        fun hkind => hretries.eq_limit (fun other hmem => ?_) hno⟩
      · exact triesAgain_handler (hkind other hmem)
      · exact triesAgain_decoding (hkind other hmem)
  · cases h.comesTo hactivity hfirst with
    | @atHand _ n stage asked _ course atHand =>
      rw [hcalm] at course
      obtain rfl := course.calm hfails
      obtain ⟨more, e, t'', hcourse, hmore⟩ := atHand.courseOn hrange hlast
      exact ⟨more, e, t'', h.trans hcourse, FailsUnder.append_iff.mpr ⟨hfails, hmore⟩⟩
  · rw [hcalm] at hat
    exact hat.courseOut hrange hlast answers hanswers

/-- Three attempts if it is the handler that fails, with two for a fallback. -/
def threeOrTwo : List RetryPlan :=
  [{ RetryPlan.ofAttempts 3 with handlerOnly := true }, .ofAttempts 2]

/-- A handler that always fails is called three times. -/
theorem bounded_retry_threeOrTwo :
    ∃ trace t', aboutToDecode.Dispatches trace (some (.stopped ⟨.handler, "no", 3⟩)) t' ∧
      FailsUnder (.chain threeOrTwo .stop) trace ∧ numbers trace = [1, 2, 3] := by
  have hrange : ∀ plan ∈ threeOrTwo, plan.maxAttempts ≤ maxWord32 := by
    simp [threeOrTwo, RetryPlan.ofAttempts, maxWord32]
  obtain ⟨hcourses, -, hbrought⟩ := bounded_retry hrange (.inl rfl)
    (rfl : aboutToDecode.worker.activity = .working ⟨oneOrder, [], 1, ∅⟩ .key) rfl rfl
  obtain ⟨trace, e, t', hcourse, hfails, hfailures⟩ :=
    hbrought (fun _ => ⟨.ok (), .ok (), .failed "no"⟩) (fun n h => by cases h)
  obtain ⟨hnumbers, -, hended⟩ := hcourses trace _ t' hcourse hfails
  obtain ⟨-, -, ⟨failure, hlatest, hstop, -⟩, hhandler, -⟩ := hended e rfl
  have hkind : ∀ failure ∈ failures trace, failure.kind = .handler := by
    intro failure hmem
    have hsome : some failure ∈ (failures trace).map some := List.mem_map_of_mem hmem
    rw [hfailures] at hsome
    obtain ⟨n, -, heq⟩ := List.mem_map.mp hsome
    cases heq
    rfl
  have hthree : (numbers trace).length = 3 := hhandler hkind
  rw [hthree] at hnumbers
  have hthird : failure = ⟨.handler, "no", 3⟩ := by
    have hmapped := congrArg (Option.map some) hlatest
    rw [← List.getLast?_map, hfailures, hnumbers] at hmapped
    cases hmapped
    rfl
  rw [hstop rfl, hthird] at hcourse
  exact ⟨trace, t', hcourse, hfails, hnumbers⟩

end Turn

end StreamDispatch
