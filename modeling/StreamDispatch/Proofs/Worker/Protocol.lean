import StreamDispatch.Proofs.Worker.Dispatch

/-!
# The retry protocol of a record

A record goes through attempts that are numbered from 1 on. In each of them the key is decoded,
then the value, and then the handler is called, as far as it comes: the first of the three that
fails is what the attempt has failed with, and the policy is asked about it once. If the policy
decides to try again and nobody asks the worker to stop until the wait is over, there is another
attempt. Otherwise the dispatch ends, in one of four ways.

This is said once as a grammar of what the worker does by itself (`StreamDispatch.Protocol`), in
terms of the answers that the application would give in an attempt (`StreamDispatch.Answers`),
whether or not it is asked for them all. Every course of a dispatch keeps to it, and all that it
allows can come about (`StreamDispatch.Turn.follows_protocol`).

The number of an attempt is a number of 32 bits, and sticks at the greatest one
(`StreamDispatch.attemptNumber`).

## Main definitions

* `StreamDispatch.Answers`: how one attempt comes out.
* `StreamDispatch.Protocol`: the protocol.
* `StreamDispatch.Turn.AskedInWait`: that a worker is asked to stop before another attempt.

## Main statements

* `StreamDispatch.Course.underway`: how far a dispatch is in the protocol.
* `StreamDispatch.Turn.follows_protocol`: courses follow the protocol, and it is followed to its
  ends.
-/

namespace StreamDispatch

/-! ### Attempts -/

/-- What the application would answer in one attempt. -/
structure Answers where
  key : Except String Unit
  value : Except String Unit
  handler : HandlerResult

namespace Answers

/-- What an attempt fails with: the first thing that fails. -/
def failure? (a : Answers) (n : Nat) : Option RecordFailure :=
  match a.key, a.value with
  | .error message, _ => some ⟨.decoding .key, message, n⟩
  | .ok _, .error message => some ⟨.decoding .value, message, n⟩
  | .ok _, .ok _ => a.handler.failure?.map fun message => ⟨.handler, message, n⟩

/-- What the application is asked in an attempt: one thing after the other until one fails. -/
def calls (a : Answers) (plan : Plan) (record : RawRecord) (n : Nat) : List Moment :=
  .call (.key record.topic record.key a.key) ::
    match a.key, a.value with
    | .error _, _ => []
    | .ok _, .error _ => [.call (.value record.topic record.payload a.value)]
    | .ok _, .ok _ =>
      [.call (.value record.topic record.payload a.value),
        .call (.handler (plan.context record n) a.handler)]

end Answers

/-- The number of the `i`-th attempt. -/
def attemptNumber (i : Nat) : Nat := min i maxWord32

theorem nextAttempt_attemptNumber (i : Nat) :
    nextAttempt (attemptNumber i) = attemptNumber (i + 1) := by
  rw [nextAttempt, attemptNumber, attemptNumber]
  omega

/-! ### The protocol -/

/-- **The protocol of a record** from its `i`-th attempt on: all that the worker does, and how it
ends. -/
inductive Protocol (plan : Plan) (record : RawRecord) : Nat → List Moment → Ending → Prop
  /-- The handler accepts the record. -/
  | processed {i : Nat} {a : Answers} (h : a.failure? (attemptNumber i) = none) :
      Protocol plan record i (a.calls plan record (attemptNumber i)) .processed
  | skipped {i : Nat} {a : Answers} {failure : RecordFailure}
      (h : a.failure? (attemptNumber i) = some failure) :
      Protocol plan record i
        (a.calls plan record (attemptNumber i) ++ [.call (.policy record failure .proceed)])
        .skipped
  | stopped {i : Nat} {a : Answers} {failure : RecordFailure}
      (h : a.failure? (attemptNumber i) = some failure) :
      Protocol plan record i
        (a.calls plan record (attemptNumber i) ++ [.call (.policy record failure .stop)])
        (.stopped failure)
  | interrupted {i : Nat} {a : Answers} {failure : RecordFailure}
      (h : a.failure? (attemptNumber i) = some failure) (backoff : Span) :
      Protocol plan record i
        (a.calls plan record (attemptNumber i) ++
          [.call (.policy record failure (.retry backoff))])
        .interrupted
  | again {i : Nat} {a : Answers} {failure : RecordFailure}
      (h : a.failure? (attemptNumber i) = some failure) (backoff : Span) {rest : List Moment}
      {e : Ending} (hrest : Protocol plan record (i + 1) rest e) :
      Protocol plan record i
        (a.calls plan record (attemptNumber i) ++
          .call (.policy record failure (.retry backoff)) ::
            .attempt (attemptNumber (i + 1)) :: rest)
        e

/-- Whether a moment is one of the worker itself. -/
def Moment.isAct : Moment → Bool
  | .asked => false
  | _ => true

/-- What the worker does by itself, among all that shows. -/
def acts (trace : List Moment) : List Moment := trace.filter Moment.isAct

@[simp] theorem acts_nil : acts [] = [] := rfl

@[simp] theorem acts_append (trace more : List Moment) :
    acts (trace ++ more) = acts trace ++ acts more := List.filter_append ..

@[simp] theorem acts_call (exchange : Exchange) (rest : List Moment) :
    acts (.call exchange :: rest) = .call exchange :: acts rest := rfl

@[simp] theorem acts_attempt (n : Nat) (rest : List Moment) :
    acts (.attempt n :: rest) = .attempt n :: acts rest := rfl

@[simp] theorem acts_asked (rest : List Moment) : acts (.asked :: rest) = acts rest := rfl

/-- How far an attempt is at a stage. -/
inductive Underway (plan : Plan) (record : RawRecord) (n : Nat) : Stage → List Moment → Prop
  | key : Underway plan record n .key []
  | value : Underway plan record n .value [.call (.key record.topic record.key (.ok ()))]
  | handler :
      Underway plan record n .handler
        [.call (.key record.topic record.key (.ok ())),
          .call (.value record.topic record.payload (.ok ()))]
  | deciding {a : Answers} {failure : RecordFailure} (h : a.failure? n = some failure) :
      Underway plan record n (.deciding failure) (a.calls plan record n)
  | backoff {a : Answers} {failure : RecordFailure} (h : a.failure? n = some failure)
      (backoff : Span) (deadline : Nat) :
      Underway plan record n (.backoff deadline)
        (a.calls plan record n ++ [.call (.policy record failure (.retry backoff))])

variable {plan : Plan} {record : RawRecord} {asked₀ asked : Bool} {n i : Nat} {stage : Stage}
  {trace moments part : List Moment} {e : Ending}

theorem Underway.ends (h : Underway plan record (attemptNumber i) stage part)
    (hends : Ends plan record (attemptNumber i) stage asked moments e) :
    Protocol plan record i (part ++ acts moments) e := by
  cases hends with
  | processed =>
    cases h with
    | handler => exact Protocol.processed (a := ⟨.ok (), .ok (), .accepted⟩) rfl
  | skipped failure =>
    cases h with
    | deciding h => exact .skipped h
  | stopped failure =>
    cases h with
    | deciding h => exact .stopped h
  | interruptedAtOnce failure backoff =>
    cases h with
    | deciding h => exact .interrupted h backoff
  | interrupted deadline =>
    cases h with
    | backoff h backoff =>
      rw [acts_nil, List.append_nil]
      exact .interrupted h backoff

/-- After a step the worker is further in the attempt, or begins the next one. -/
theorem Underway.goes {n' : Nat} {stage' : Stage} {asked' : Bool}
    (h : Underway plan record n stage part)
    (hgoes : Continues plan record n stage asked moments n' stage' asked') :
    n' = n ∧ Underway plan record n stage' (part ++ acts moments) ∨
      n' = nextAttempt n ∧ stage' = .key ∧
        ∃ a failure backoff, Answers.failure? a n = some failure ∧
          part ++ acts moments = a.calls plan record n ++
            [.call (.policy record failure (.retry backoff)), .attempt (nextAttempt n)] := by
  cases hgoes with
  | key answer =>
    cases h
    cases answer with
    | ok _ => exact .inl ⟨rfl, .value⟩
    | error message =>
      exact .inl ⟨rfl, .deciding (a := ⟨.error message, .ok (), .accepted⟩) rfl⟩
  | value answer =>
    cases h
    cases answer with
    | ok _ => exact .inl ⟨rfl, .handler⟩
    | error message =>
      exact .inl ⟨rfl, .deciding (a := ⟨.ok (), .error message, .accepted⟩) rfl⟩
  | @handler result message hfailure =>
    cases h
    refine .inl ⟨rfl, .deciding (a := ⟨.ok (), .ok (), result⟩) ?_⟩
    rw [Answers.failure?, hfailure]
    rfl
  | waits failure backoff deadline =>
    cases h with
    | deciding h => exact .inl ⟨rfl, .backoff h backoff deadline⟩
  | again deadline =>
    cases h with
    | backoff h backoff => exact .inr ⟨rfl, rfl, _, _, backoff, h, by simp⟩
  | isAsked => exact .inl ⟨rfl, by rwa [acts_asked, acts_nil, List.append_nil]⟩
  | stays => exact .inl ⟨rfl, by rwa [acts_nil, List.append_nil]⟩

/-- **How far a dispatch is in the protocol**: in some attempt, and whatever the protocol is from
there on, it is the protocol of the record. -/
theorem Course.underway (h : Course plan record asked₀ trace n stage asked) :
    ∃ i before part, n = attemptNumber i ∧ acts trace = before ++ part ∧
      Underway plan record (attemptNumber i) stage part ∧
      ∀ rest e, Protocol plan record i rest e → Protocol plan record 1 (before ++ rest) e := by
  induction h with
  | begins => exact ⟨1, [], [], by decide, rfl, .key, fun _ _ hrest => hrest⟩
  | goes _ step ih =>
    obtain ⟨i, before, part, rfl, hacts, hpart, hprotocol⟩ := ih
    rw [acts_append, hacts, List.append_assoc]
    obtain ⟨rfl, hfurther⟩ | ⟨rfl, rfl, a, failure, backoff, hfailure, hwhole⟩ := hpart.goes step
    · exact ⟨i, before, _, rfl, rfl, hfurther, hprotocol⟩
    · -- The attempt is over, and belongs to what is behind the worker.
      rw [nextAttempt_attemptNumber] at hwhole ⊢
      refine ⟨i + 1, _, [], rfl, (List.append_nil _).symm, .key, fun rest e hrest => ?_⟩
      rw [hwhole, List.append_assoc, List.append_assoc]
      exact hprotocol _ e (.again hfailure backoff hrest)

/-- Every attempt that is underway can be brought to an end. -/
theorem Underway.exists_rest (h : Underway plan record (attemptNumber i) stage part) :
    ∃ rest e, Protocol plan record i (part ++ rest) e := by
  cases h with
  | key => exact ⟨_, _, .processed (a := ⟨.ok (), .ok (), .accepted⟩) rfl⟩
  | value => exact ⟨[_, _], _, .processed (a := ⟨.ok (), .ok (), .accepted⟩) rfl⟩
  | handler => exact ⟨[_], _, .processed (a := ⟨.ok (), .ok (), .accepted⟩) rfl⟩
  | deciding h => exact ⟨_, _, .skipped h⟩
  | backoff h backoff =>
    refine ⟨[], .interrupted, ?_⟩
    rw [List.append_nil]
    exact .interrupted h backoff

/-! ### Requests to stop -/

/-- Whether a worker has been asked to stop is known from the beginning and from what shows. -/
theorem Course.asked_iff (h : Course plan record asked₀ trace n stage asked) :
    asked = true ↔ asked₀ = true ∨ .asked ∈ trace := by
  induction h with
  | begins => simp
  | goes _ step ih => cases step <;> simp_all

/-- **No attempt begins after a request to stop.** -/
theorem Course.attempt (h : Course plan record asked₀ trace n stage asked) {before : List Moment}
    {k : Nat} (hbefore : before ++ [.attempt k] <+: trace) :
    asked₀ = false ∧ .asked ∉ before := by
  induction h with
  | begins => simp at hbefore
  | @goes trace _ _ _ _ _ _ _ hcourse step ih =>
    cases step with
    | again deadline =>
      rcases List.prefix_concat_iff.mp hbefore with heq | hearlier
      · obtain ⟨rfl, -⟩ := List.append_inj' heq rfl
        simpa using mt hcourse.asked_iff.mpr Bool.false_ne_true
      · exact ih hearlier
    | stays => exact ih (by simpa using hbefore)
    | _ =>
      rcases List.prefix_concat_iff.mp hbefore with heq | hearlier
      · cases (List.append_inj' heq rfl).2
      · exact ih hearlier

/-- What ends a dispatch is not the beginning of an attempt. -/
theorem Course.attempt_of_ends (h : Course plan record asked₀ trace n stage asked)
    (hends : Ends plan record n stage asked moments e) {before : List Moment} {k : Nat}
    (hbefore : before ++ [.attempt k] <+: trace ++ moments) :
    asked₀ = false ∧ .asked ∉ before := by
  cases hends with
  | interrupted => exact h.attempt (by simpa using hbefore)
  | _ =>
    rcases List.prefix_concat_iff.mp hbefore with heq | hearlier
    · cases (List.append_inj' heq rfl).2
    · exact h.attempt hearlier

/-- A worker that waits has last been told to try again, and all that has shown since then are
requests to stop. -/
theorem Course.pause (h : Course plan record asked₀ trace n stage asked) {deadline : Nat}
    (hstage : stage = .backoff deadline) :
    ∃ before failure backoff pause,
      trace = before ++ .call (.policy record failure (.retry backoff)) :: pause ∧
        ∀ moment ∈ pause, moment = .asked := by
  induction h with
  | begins => cases hstage
  | @goes trace _ _ _ _ _ _ _ hcourse step ih =>
    cases step with
    | waits failure backoff => exact ⟨trace, failure, backoff, [], rfl, by simp⟩
    | isAsked =>
      obtain ⟨before, failure, backoff, pause, rfl, hpause⟩ := ih hstage
      refine ⟨before, failure, backoff, pause ++ [.asked], by simp, fun moment hmoment => ?_⟩
      rcases List.mem_append.mp hmoment with hmoment | hmoment
      · exact hpause moment hmoment
      · exact List.mem_singleton.mp hmoment
    | stays => simpa using ih hstage
    | key answer => cases answer <;> cases hstage
    | value answer => cases answer <;> cases hstage
    | _ => cases hstage

/-- A record was to be tried again, and a worker has been asked to stop at that point, before, or
in the wait since then. -/
def AskedInWait (record : RawRecord) (asked₀ : Bool) (trace : List Moment) : Prop :=
  ∃ before failure backoff pause,
    trace = before ++ .call (.policy record failure (.retry backoff)) :: pause ∧
      (∀ moment ∈ pause, moment = .asked) ∧ (asked₀ = true ∨ .asked ∈ before ++ pause)

/-- If the last thing that shows is another call, the worker was not asked to stop in a wait. -/
theorem not_askedInWait {exchange : Exchange} (trace : List Moment)
    (h : ∀ failure backoff, exchange ≠ .policy record failure (.retry backoff)) :
    ¬ AskedInWait record asked₀ (trace ++ [.call exchange]) := by
  rintro ⟨before, failure, backoff, pause, heq, hpause, -⟩
  rcases List.eq_nil_or_concat pause with rfl | ⟨pause', last, rfl⟩
  · cases (List.append_inj' heq rfl).2
    exact h failure backoff rfl
  · rw [List.concat_eq_append, ← List.cons_append, ← List.append_assoc] at heq
    cases (List.append_inj' heq rfl).2
    cases hpause (.call exchange) (by simp)

/-- **A dispatch is interrupted** exactly if the worker is asked to stop before another
attempt. -/
theorem Course.interrupted_iff (h : Course plan record asked₀ trace n stage asked)
    (hends : Ends plan record n stage asked moments e) :
    e = .interrupted ↔ AskedInWait record asked₀ (trace ++ moments) := by
  cases hends with
  | processed => exact iff_of_false (by simp) (not_askedInWait trace (by simp))
  | skipped => exact iff_of_false (by simp) (not_askedInWait trace (by simp))
  | stopped => exact iff_of_false (by simp) (not_askedInWait trace (by simp))
  | interruptedAtOnce failure backoff =>
    refine iff_of_true rfl ⟨trace, failure, backoff, [], rfl, by simp, ?_⟩
    rw [List.append_nil]
    exact h.asked_iff.mp rfl
  | interrupted deadline =>
    obtain ⟨before, failure, backoff, pause, rfl, hpause⟩ := h.pause rfl
    refine iff_of_true rfl ⟨before, failure, backoff, pause, by simp, hpause, ?_⟩
    have hasked := h.asked_iff.mp rfl
    simpa using hasked

/-! ### What can be brought about -/

namespace Turn

variable {t t' : Turn} {job : Job} {a : Answers} {failure : RecordFailure}

/-- An event with which the record stays at hand is a course. -/
theorem AtHand.course (h : t.AtHand job n stage asked t') (now : Nat) (ev : WorkerEvent)
    (moments : List Moment) (hev : t'.worker.isCutOffBy ev = false)
    (hmoments : t'.worker.moments now ev = moments) (hending : t'.worker.ending? ev = none) :
    ∃ n' stage' asked' t'',
      Continues t.worker.plan job.record n stage asked moments n' stage' asked' ∧
        t'.Dispatches moments none t'' ∧ t.AtHand job n' stage' asked' t'' := by
  have hcourse := Dispatches.begins.event now hev
  have hadvances := h.apply now hev
  rw [hmoments, hending] at hcourse hadvances
  cases hadvances with
  | goes step atHand => exact ⟨_, _, _, _, step, hcourse, atHand⟩

/-- An event that ends the dispatch is a course. -/
theorem courseEnd (t' : Turn) (now : Nat) (ev : WorkerEvent) (moments : List Moment) (e : Ending)
    (hev : t'.worker.isCutOffBy ev = false) (hmoments : t'.worker.moments now ev = moments)
    (hending : t'.worker.ending? ev = some e) : ∃ t'', t'.Dispatches moments (some e) t'' := by
  have hcourse := Dispatches.begins.event now hev
  rw [hmoments, hending] at hcourse
  exact ⟨_, hcourse⟩

theorem AtHand.courseKey (h : t.AtHand job n .key asked t') (answer : Except String Unit) :
    ∃ t'', t'.Dispatches [.call (.key job.record.topic job.record.key answer)] none t'' ∧
      t.AtHand job n (.afterKey n answer) asked t'' := by
  obtain ⟨_, _, _, t'', step, hcourse, hat⟩ := h.course 0 (.keyDecoded answer)
    [.call (.key job.record.topic job.record.key answer)] rfl
    (by simp only [Worker.moments.eq_def, h.activity])
    (by simp only [Worker.ending?.eq_def, h.activity])
  cases step
  exact ⟨t'', hcourse, hat⟩

theorem AtHand.courseValue (h : t.AtHand job n .value asked t') (answer : Except String Unit) :
    ∃ t'', t'.Dispatches [.call (.value job.record.topic job.record.payload answer)] none t'' ∧
      t.AtHand job n (.afterValue n answer) asked t'' := by
  obtain ⟨_, _, _, t'', step, hcourse, hat⟩ := h.course 0 (.valueDecoded answer)
    [.call (.value job.record.topic job.record.payload answer)] rfl
    (by simp only [Worker.moments.eq_def, h.activity])
    (by simp only [Worker.ending?.eq_def, h.activity])
  cases step
  exact ⟨t'', hcourse, hat⟩

theorem AtHand.courseHandler (h : t.AtHand job n .handler asked t') {result : HandlerResult}
    {message : String} (hresult : result.failure? = some message) :
    ∃ t'', t'.Dispatches [.call (.handler (t.worker.plan.context job.record n) result)] none t'' ∧
      t.AtHand job n (.deciding ⟨.handler, message, n⟩) asked t'' := by
  have hending : t'.worker.ending? (.handled 0 result) = none := by
    cases result with
    | accepted => cases hresult
    | _ => simp only [Worker.ending?.eq_def, h.activity]
  obtain ⟨_, _, _, t'', step, hcourse, hat⟩ := h.course 0 (.handled 0 result)
    [.call (.handler (t.worker.plan.context job.record n) result)] rfl
    (by simp only [Worker.moments.eq_def, h.activity, h.plan]) hending
  cases step with
  | handler hother =>
    cases hresult.symm.trans hother
    exact ⟨t'', hcourse, hat⟩

theorem AtHand.courseAccepted (h : t.AtHand job n .handler asked t') :
    ∃ t'', t'.Dispatches [.call (.handler (t.worker.plan.context job.record n) .accepted)]
      (some .processed) t'' :=
  courseEnd t' 0 (.handled 0 .accepted) _ _ rfl
    (by simp only [Worker.moments.eq_def, h.activity, h.plan])
    (by simp only [Worker.ending?.eq_def, h.activity])

/-- **An attempt that fails** leads to the policy. -/
theorem AtHand.courseFailure (h : t.AtHand job n .key asked t')
    (hfailure : a.failure? n = some failure) :
    ∃ t'', t'.Dispatches (a.calls t.worker.plan job.record n) none t'' ∧
      t.AtHand job n (.deciding failure) asked t'' := by
  obtain ⟨key, value, handler⟩ := a
  obtain ⟨t₁, hkey, hat₁⟩ := h.courseKey key
  cases key with
  | error message =>
    cases hfailure
    exact ⟨t₁, hkey, hat₁⟩
  | ok _ =>
    obtain ⟨t₂, hvalue, hat₂⟩ := hat₁.courseValue value
    cases value with
    | error message =>
      cases hfailure
      exact ⟨t₂, hkey.trans hvalue, hat₂⟩
    | ok _ =>
      obtain ⟨message, hmessage, rfl⟩ := Option.map_eq_some_iff.mp hfailure
      obtain ⟨t₃, hhandler, hat₃⟩ := hat₂.courseHandler hmessage
      exact ⟨t₃, (hkey.trans hvalue).trans hhandler, hat₃⟩

/-- **An attempt that does not fail** ends the dispatch. -/
theorem AtHand.courseProcessed (h : t.AtHand job n .key asked t') (hnone : a.failure? n = none) :
    ∃ t'', t'.Dispatches (a.calls t.worker.plan job.record n) (some .processed) t'' := by
  obtain ⟨key, value, handler⟩ := a
  obtain ⟨t₁, hkey, hat₁⟩ := h.courseKey key
  cases key with
  | error message => cases hnone
  | ok _ =>
    obtain ⟨t₂, hvalue, hat₂⟩ := hat₁.courseValue value
    cases value with
    | error message => cases hnone
    | ok _ =>
      cases handler with
      | accepted =>
        obtain ⟨t₃, hhandler⟩ := hat₂.courseAccepted
        exact ⟨t₃, (hkey.trans hvalue).trans hhandler⟩
      | _ => cases hnone

theorem AtHand.courseSkipped (h : t.AtHand job n (.deciding failure) asked t') :
    ∃ t'', t'.Dispatches [.call (.policy job.record failure .proceed)] (some .skipped) t'' :=
  courseEnd t' 0 (.decided .proceed) _ _ rfl
    (by simp only [Worker.moments.eq_def, h.activity])
    (by simp only [Worker.ending?.eq_def, h.activity])

theorem AtHand.courseStopped (h : t.AtHand job n (.deciding failure) asked t') :
    ∃ t'', t'.Dispatches [.call (.policy job.record failure .stop)] (some (.stopped failure)) t'' :=
  courseEnd t' 0 (.decided .stop) _ _ rfl
    (by simp only [Worker.moments.eq_def, h.activity])
    (by simp only [Worker.ending?.eq_def, h.activity])

/-- A worker that has not been asked to stop waits before it tries again. -/
theorem AtHand.courseRetry (h : t.AtHand job n (.deciding failure) false t') (backoff : Span) :
    ∃ deadline t'',
      t'.Dispatches [.call (.policy job.record failure (.retry backoff))] none t'' ∧
        t.AtHand job n (.backoff deadline) false t'' := by
  obtain ⟨_, _, _, t'', step, hcourse, hat⟩ := h.course 0 (.decided (.retry backoff))
    [.call (.policy job.record failure (.retry backoff))] rfl
    (by simp only [Worker.moments.eq_def, h.activity])
    (by simp only [Worker.ending?.eq_def, h.activity, h.stopping, Bool.false_eq_true, if_false])
  cases step
  exact ⟨_, t'', hcourse, hat⟩

/-- At the deadline another attempt begins. -/
theorem AtHand.courseAgain {deadline : Nat} (h : t.AtHand job n (.backoff deadline) false t') :
    ∃ t'', t'.Dispatches [.attempt (nextAttempt n)] none t'' ∧
      t.AtHand job (nextAttempt n) .key false t'' := by
  obtain ⟨_, _, _, t'', step, hcourse, hat⟩ := h.course deadline .resume
    [.attempt (nextAttempt n)] rfl
    (by simp only [Worker.moments.eq_def, h.activity, h.stopping, Nat.le_refl, and_self, if_true])
    (by simp only [Worker.ending?.eq_def, h.activity, h.stopping, Bool.false_eq_true, if_false])
  cases step
  exact ⟨t'', hcourse, hat⟩

/-- A worker that waits can be asked to stop. -/
theorem AtHand.courseInterrupted {deadline : Nat}
    (h : t.AtHand job n (.backoff deadline) false t') :
    ∃ t'', t'.Dispatches [.asked] (some .interrupted) t'' := by
  obtain ⟨_, _, _, t₁, step, hcourse, hat⟩ := h.course 0 .requestStop [.asked] rfl
    (by simp only [Worker.moments.eq_def, h.activity])
    (by simp only [Worker.ending?.eq_def, h.activity])
  cases step
  obtain ⟨t₂, hend⟩ := courseEnd t₁ 0 .resume [] .interrupted rfl
    (by simp only [Worker.moments.eq_def, hat.activity, hat.stopping, Bool.true_eq_false, false_and,
      if_false])
    (by simp only [Worker.ending?.eq_def, hat.activity, hat.stopping, if_true])
  exact ⟨t₂, by simpa using hcourse.trans hend⟩

end Turn

theorem acts_calls (a : Answers) (plan : Plan) (record : RawRecord) (n : Nat) :
    acts (a.calls plan record n) = a.calls plan record n := by
  obtain ⟨key, value, handler⟩ := a
  cases key <;> cases value <;> rfl

/-- **Whatever the protocol allows** can be brought about. -/
theorem Protocol.courseOf {t t' : Turn} {job : Job}
    (h : Protocol t.worker.plan job.record i moments e)
    (hat : t.AtHand job (attemptNumber i) .key false t') :
    ∃ trace t'', t'.Dispatches trace (some e) t'' ∧ acts trace = moments := by
  induction h generalizing t' with
  | processed hnone =>
    obtain ⟨t'', hcourse⟩ := hat.courseProcessed hnone
    exact ⟨_, t'', hcourse, acts_calls _ _ _ _⟩
  | skipped hfailure =>
    obtain ⟨t₁, hcourse, hat₁⟩ := hat.courseFailure hfailure
    obtain ⟨t₂, hend⟩ := hat₁.courseSkipped
    exact ⟨_, t₂, hcourse.trans hend, by simp [acts_calls]⟩
  | stopped hfailure =>
    obtain ⟨t₁, hcourse, hat₁⟩ := hat.courseFailure hfailure
    obtain ⟨t₂, hend⟩ := hat₁.courseStopped
    exact ⟨_, t₂, hcourse.trans hend, by simp [acts_calls]⟩
  | interrupted hfailure backoff =>
    obtain ⟨t₁, hcourse, hat₁⟩ := hat.courseFailure hfailure
    obtain ⟨_, t₂, hretry, hat₂⟩ := hat₁.courseRetry backoff
    obtain ⟨t₃, hend⟩ := hat₂.courseInterrupted
    exact ⟨_, t₃, (hcourse.trans hretry).trans hend, by simp [acts_calls]⟩
  | again hfailure backoff _ ih =>
    obtain ⟨t₁, hcourse, hat₁⟩ := hat.courseFailure hfailure
    obtain ⟨_, t₂, hretry, hat₂⟩ := hat₁.courseRetry backoff
    obtain ⟨t₃, hagain, hat₃⟩ := hat₂.courseAgain
    rw [nextAttempt_attemptNumber] at hagain hat₃
    obtain ⟨trace, t₄, hrest, hacts⟩ := ih hat₃
    exact ⟨_, t₄, ((hcourse.trans hretry).trans hagain).trans hrest, by simp [acts_calls, hacts]⟩

namespace Turn

variable {t : Turn} {job : Job}

/-- **The retry protocol of one record.** A worker has a record at hand and is about to decode the
key in the first attempt.

* Whatever happens, what it does by itself follows the protocol. As long as the record is at hand
  it is the beginning of something that the protocol allows, and once the dispatch has ended it is
  all of it. The worker has then concluded as the end says.
* No attempt begins once it has been asked to stop. At the end, the dispatch was interrupted
  exactly if the worker was asked to stop before it could try the record again.
* Conversely, whatever the protocol allows can come about, unless the worker has been asked to
  stop at the beginning. -/
theorem follows_protocol (hactivity : t.worker.activity = .working job .key)
    (hfirst : job.attempt = 1) :
    (∀ trace ending t', t.Dispatches trace ending t' →
      (ending = none →
        (∃ rest e, Protocol t.worker.plan job.record 1 (acts trace ++ rest) e) ∧
        ∃ n stage, t'.worker.activity = .working { job with attempt := n } stage) ∧
      (∀ e, ending = some e →
        Protocol t.worker.plan job.record 1 (acts trace) e ∧
        (e = .interrupted ↔ AskedInWait job.record t.worker.stopping trace) ∧
        ∃ t₁ : Turn, t₁.worker.plan = t.worker.plan ∧ t₁.worker.session = t.worker.session ∧
          t' = t₁.conclude job e) ∧
      ∀ before n, before ++ [.attempt n] <+: trace →
        t.worker.stopping = false ∧ .asked ∉ before) ∧
    (t.worker.stopping = false →
      ∀ moments e, Protocol t.worker.plan job.record 1 moments e →
        ∃ trace t', t.Dispatches trace (some e) t' ∧ acts trace = moments) := by
  refine ⟨fun trace ending t' h => ?_, fun hcalm moments e hprotocol => ?_⟩
  · cases h.comesTo hactivity hfirst with
    | @atHand _ n stage asked _ course atHand =>
      refine ⟨fun _ => ⟨?_, n, stage, atHand.activity⟩, fun e he => (by cases he),
        fun before n => course.attempt⟩
      obtain ⟨i, before, part, rfl, hacts, hpart, hprotocol⟩ := course.underway
      obtain ⟨rest, e, hrest⟩ := hpart.exists_rest
      refine ⟨rest, e, ?_⟩
      rw [hacts, List.append_assoc]
      exact hprotocol _ e hrest
    | @concluded trace moments n stage asked e t₁ course step plan session =>
      refine ⟨fun he => (by cases he), fun e' he => ?_, fun before n hbefore => ?_⟩
      · obtain rfl := Option.some.inj he
        refine ⟨?_, course.interrupted_iff step, t₁, plan, session, rfl⟩
        obtain ⟨i, before, part, rfl, hacts, hpart, hprotocol⟩ := course.underway
        rw [acts_append, hacts, List.append_assoc]
        exact hprotocol _ e (hpart.ends step)
      · exact course.attempt_of_ends step hbefore
  · have hat := atHand_first hactivity hfirst
    rw [hcalm] at hat
    exact hprotocol.courseOf hat

/-- A record. -/
def oneOrder : RawRecord := ⟨"orders", 0, 7, none, some [1], some 0, []⟩

/-- A worker that is about to decode the key of a record, in the first attempt. -/
def aboutToDecode : Turn where
  worker :=
    { Worker.ofPlan ⟨0, "reader", ["orders"], .default, .afterRecord⟩ default with
      activity := .working ⟨oneOrder, [], 1, ∅⟩ .key }
  broker := .empty
  samples := []

/-- The key cannot be decoded at first, and after another attempt the record is accepted. Nobody
asks the worker to stop then, since it would have been interrupted. -/
theorem follows_protocol_oneOrder :
    ∃ trace t', aboutToDecode.Dispatches trace (some .processed) t' ∧
      acts trace =
        [.call (.key "orders" none (.error "no key")),
          .call (.policy oneOrder ⟨.decoding .key, "no key", 1⟩ (.retry ⟨0⟩)), .attempt 2,
          .call (.key "orders" none (.ok ())), .call (.value "orders" (some [1]) (.ok ())),
          .call (.handler (aboutToDecode.worker.plan.context oneOrder 2) .accepted)] ∧
      ¬ AskedInWait oneOrder false trace := by
  obtain ⟨hcourses, hconverse⟩ :=
    follows_protocol (rfl : aboutToDecode.worker.activity = .working ⟨oneOrder, [], 1, ∅⟩ .key) rfl
  have hagain : Protocol aboutToDecode.worker.plan oneOrder 2 _ .processed :=
    .processed (a := ⟨.ok (), .ok (), .accepted⟩) rfl
  obtain ⟨trace, t', hcourse, hacts⟩ := hconverse rfl _ _
    (.again (a := ⟨.error "no key", .ok (), .accepted⟩) rfl ⟨0⟩ hagain)
  obtain ⟨-, hended, -⟩ := hcourses trace _ t' hcourse
  obtain ⟨-, hinterrupted, -⟩ := hended .processed rfl
  refine ⟨trace, t', hcourse, hacts, fun hasked => ?_⟩
  cases hinterrupted.mpr hasked

end Turn

end StreamDispatch
