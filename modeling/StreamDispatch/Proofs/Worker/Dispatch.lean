import StreamDispatch.Proofs.History
import StreamDispatch.Rehearsal.Engine

/-!
# The dispatch of one record

From when a record comes to hand until it is done or the worker stops in front of it, all that
shows of the worker is what it asks the application and what it is answered, when it begins
another attempt, and when somebody asks it to stop (`StreamDispatch.Moment`). This file reads
these moments off the worker and what happens to it, and says what each of them does: the
worker goes on with the record (`StreamDispatch.Continues`), or the dispatch ends
(`StreamDispatch.Ends`). That every event does one of the two is proved once
(`StreamDispatch.Turn.AtHand.apply`), and what is said of whole dispatches later is said from
these two relations.

An event that ends a worker in the middle of something is not part of a dispatch. Any other
event may come at any time, and anything may happen meanwhile that leaves the worker alone
(`StreamDispatch.Turn.Dispatches`).

## Main definitions

* `StreamDispatch.Exchange`, `StreamDispatch.Moment`, `StreamDispatch.Ending`: what shows.
* `StreamDispatch.Turn.conclude`: what a worker does at the end of a dispatch.
* `StreamDispatch.Continues`, `StreamDispatch.Ends`: what a moment does.
* `StreamDispatch.Turn.Dispatches`: the courses of a dispatch.

## Main statements

* `StreamDispatch.Turn.AtHand.apply`: what an event does to a dispatch.
-/

namespace StreamDispatch

/-! ### What shows of a dispatch -/

/-- What a worker asks the application, with the answer. -/
inductive Exchange
  | key (topic : String) (data : Option Bytes) (answer : Except String Unit)
  | value (topic : String) (data : Option Bytes) (answer : Except String Unit)
  | handler (context : DispatchContext) (result : HandlerResult)
  | policy (record : RawRecord) (failure : RecordFailure) (decision : Decision)

/-- What shows of a dispatch. -/
inductive Moment
  | call (exchange : Exchange)
  /-- Another attempt begins, with its number. -/
  | attempt (number : Nat)
  /-- The worker is asked to stop, or let go of. -/
  | asked

/-- How the dispatch of a record ends. -/
inductive Ending
  | processed
  | skipped
  /-- The policy decided to stop because of a failure. -/
  | stopped (failure : RecordFailure)
  /-- The worker was asked to stop when the record was to be tried again. -/
  | interrupted
  deriving DecidableEq

/-- What a handler is told about an attempt. -/
def Plan.context (plan : Plan) (record : RawRecord) (attempt : Nat) : DispatchContext :=
  .ofRecord plan.registration plan.id attempt record plan.listener.metadataFields

theorem Rehearsal.context_callOf (w : Worker) (app : Application) (job : Job) :
    (callOf w app job).context = w.plan.context job.record job.attempt := rfl

/-- What shows of an event. -/
def Worker.moments (w : Worker) (now : Nat) (ev : WorkerEvent) : List Moment :=
  match w.activity, ev with
  | .working job .key, .keyDecoded answer =>
    [.call (.key job.record.topic job.record.key answer)]
  | .working job .value, .valueDecoded answer =>
    [.call (.value job.record.topic job.record.payload answer)]
  | .working job .handler, .handled _ result =>
    [.call (.handler (w.plan.context job.record job.attempt) result)]
  | .working job (.deciding failure), .decided d => [.call (.policy job.record failure d)]
  | .working job (.backoff deadline), .resume =>
    if w.stopping = false ∧ deadline ≤ now then [.attempt (nextAttempt job.attempt)] else []
  | _, .requestStop => [.asked]
  | _, .abandon => [.asked]
  | _, _ => []

/-- How an event ends the dispatch of the record at hand, if it does. -/
def Worker.ending? (w : Worker) (ev : WorkerEvent) : Option Ending :=
  match w.activity, ev with
  | .working _ .handler, .handled _ .accepted => some .processed
  | .working _ (.deciding _), .decided .proceed => some .skipped
  | .working _ (.deciding failure), .decided .stop => some (.stopped failure)
  | .working _ (.deciding _), .decided (.retry _) =>
    if w.stopping then some .interrupted else none
  | .working _ (.backoff _), .resume => if w.stopping then some .interrupted else none
  | _, _ => none

namespace Turn

/-- What a worker does at the end of the dispatch of a record: it resolves the record and goes on,
or it is done, with the failure in its final phase if there is one. -/
def conclude (t : Turn) (job : Job) : Ending → Turn
  | .processed => t.resolve job
  | .skipped => t.resolve job
  | .stopped failure =>
    t.commitResolvedThen job.resolved
      (·.finish (.failed s!"{failure.text} ({job.record.place})"))
  | .interrupted => t.commitResolvedThen job.resolved (·.finish .stopped)

/-- At the end it does not matter which attempt it was. -/
theorem conclude_attempt (t : Turn) (job : Job) (n : Nat) (e : Ending) :
    t.conclude { job with attempt := n } e = t.conclude job e := by
  cases e <;> rfl

end Turn

/-! ### What a moment does -/

/-- What is next after the key. -/
def Stage.afterKey (attempt : Nat) : Except String Unit → Stage
  | .ok _ => .value
  | .error message => .deciding ⟨.decoding .key, message, attempt⟩

/-- What is next after the value. -/
def Stage.afterValue (attempt : Nat) : Except String Unit → Stage
  | .ok _ => .handler
  | .error message => .deciding ⟨.decoding .value, message, attempt⟩

/-- **A worker goes on with a record**: from an attempt and a stage to others. -/
inductive Continues (plan : Plan) (record : RawRecord) (n : Nat) :
    Stage → Bool → List Moment → Nat → Stage → Bool → Prop
  | key (answer : Except String Unit) (asked : Bool) :
      Continues plan record n .key asked [.call (.key record.topic record.key answer)]
        n (.afterKey n answer) asked
  | value (answer : Except String Unit) (asked : Bool) :
      Continues plan record n .value asked [.call (.value record.topic record.payload answer)]
        n (.afterValue n answer) asked
  | handler {result : HandlerResult} {message : String} (h : result.failure? = some message)
      (asked : Bool) :
      Continues plan record n .handler asked [.call (.handler (plan.context record n) result)]
        n (.deciding ⟨.handler, message, n⟩) asked
  | waits (failure : RecordFailure) (backoff : Span) (deadline : Nat) :
      Continues plan record n (.deciding failure) false
        [.call (.policy record failure (.retry backoff))] n (.backoff deadline) false
  | again (deadline : Nat) :
      Continues plan record n (.backoff deadline) false [.attempt (nextAttempt n)]
        (nextAttempt n) .key false
  | isAsked (stage : Stage) (asked : Bool) :
      Continues plan record n stage asked [.asked] n stage true
  | stays (stage : Stage) (asked : Bool) : Continues plan record n stage asked [] n stage asked

/-- **The dispatch of a record ends.** -/
inductive Ends (plan : Plan) (record : RawRecord) (n : Nat) :
    Stage → Bool → List Moment → Ending → Prop
  | processed (asked : Bool) :
      Ends plan record n .handler asked [.call (.handler (plan.context record n) .accepted)]
        .processed
  | skipped (failure : RecordFailure) (asked : Bool) :
      Ends plan record n (.deciding failure) asked [.call (.policy record failure .proceed)]
        .skipped
  | stopped (failure : RecordFailure) (asked : Bool) :
      Ends plan record n (.deciding failure) asked [.call (.policy record failure .stop)]
        (.stopped failure)
  /-- It had been asked to stop before. -/
  | interruptedAtOnce (failure : RecordFailure) (backoff : Span) :
      Ends plan record n (.deciding failure) true
        [.call (.policy record failure (.retry backoff))] .interrupted
  | interrupted (deadline : Nat) : Ends plan record n (.backoff deadline) true [] .interrupted

namespace Turn

/-! ### What an event does

The activity is known wherever the moments of an event are read off. They are therefore read off
the whole definition at once (`eq_def`): its equations for the single cases are many, and each has
to exclude the cases before it. -/

/-- The worker of a turn works on a record in an attempt, and is the same as before otherwise;
also whether it has been asked to stop. -/
structure AtHand (t : Turn) (job : Job) (n : Nat) (stage : Stage) (asked : Bool) (t' : Turn) :
    Prop where
  activity : t'.worker.activity = .working { job with attempt := n } stage
  plan : t'.worker.plan = t.worker.plan
  session : t'.worker.session = t.worker.session
  stopping : t'.worker.stopping = asked

/-- **What can come of an event**: the worker goes on with the record, or it concludes. -/
inductive Advances (t : Turn) (job : Job) (n : Nat) (stage : Stage) (asked : Bool)
    (moments : List Moment) : Option Ending → Turn → Prop
  | goes {n' : Nat} {stage' : Stage} {asked' : Bool} {t' : Turn}
      (step : Continues t.worker.plan job.record n stage asked moments n' stage' asked')
      (atHand : t.AtHand job n' stage' asked' t') :
      Advances t job n stage asked moments none t'
  | ends {e : Ending} {t₁ : Turn} (step : Ends t.worker.plan job.record n stage asked moments e)
      (plan : t₁.worker.plan = t.worker.plan) (session : t₁.worker.session = t.worker.session) :
      Advances t job n stage asked moments (some e) (t₁.conclude job e)

variable {t t' : Turn} {job : Job} {n : Nat} {stage : Stage} {asked : Bool}

theorem AtHand.count (h : t.AtHand job n stage asked t') (f : WorkerMetrics → WorkerMetrics) :
    t.AtHand job n stage asked (t'.count f) := ⟨h.activity, h.plan, h.session, h.stopping⟩

theorem AtHand.emit (h : t.AtHand job n stage asked t') (sample : Sample) :
    t.AtHand job n stage asked (t'.emit sample) := ⟨h.activity, h.plan, h.session, h.stopping⟩

theorem AtHand.enter (h : t.AtHand job n stage asked t') (n' : Nat) (stage' : Stage) :
    t.AtHand job n' stage' asked (t'.enter (.working { job with attempt := n' } stage')) :=
  ⟨rfl, h.plan, h.session, h.stopping⟩

/-- After a failure the policy is asked. -/
theorem AtHand.fail (h : t.AtHand job n stage asked t') (kind : FailureKind) (message : String) :
    t.AtHand job n (.deciding ⟨kind, message, n⟩) asked
      (t'.fail { job with attempt := n } kind message) :=
  (h.count _).enter n _

theorem AtHand.ends (h : t.AtHand job n stage asked t') {moments : List Moment} {e : Ending}
    (step : Ends t.worker.plan job.record n stage asked moments e) :
    t.Advances job n stage asked moments (some e) (t'.conclude { job with attempt := n } e) := by
  rw [conclude_attempt]
  exact .ends step h.plan h.session

theorem AtHand.stays (h : t.AtHand job n stage asked t') :
    t.Advances job n stage asked [] none t' := .goes (.stays stage asked) h

theorem AtHand.keyDecoded (h : t.AtHand job n .key asked t') (now : Nat)
    (answer : Except String Unit) :
    t.Advances job n .key asked (t'.worker.moments now (.keyDecoded answer))
      (t'.worker.ending? (.keyDecoded answer)) (t'.keyDecoded answer) := by
  simp only [Worker.moments.eq_def, Worker.ending?.eq_def, Turn.keyDecoded.eq_def, h.activity]
  cases answer with
  | ok _ => exact .goes (.key (.ok ()) asked) (h.enter n _)
  | error message =>
    exact .goes (.key (.error message) asked) (h.fail (.decoding .key) message)

theorem AtHand.valueDecoded (h : t.AtHand job n .value asked t') (now : Nat)
    (answer : Except String Unit) :
    t.Advances job n .value asked (t'.worker.moments now (.valueDecoded answer))
      (t'.worker.ending? (.valueDecoded answer)) (t'.valueDecoded answer) := by
  simp only [Worker.moments.eq_def, Worker.ending?.eq_def, Turn.valueDecoded.eq_def, h.activity]
  cases answer with
  | ok _ => exact .goes (.value (.ok ()) asked) (h.enter n _)
  | error message =>
    exact .goes (.value (.error message) asked) (h.fail (.decoding .value) message)

theorem AtHand.handled (h : t.AtHand job n .handler asked t') (now : Nat) (millis : Float)
    (result : HandlerResult) :
    t.Advances job n .handler asked (t'.worker.moments now (.handled millis result))
      (t'.worker.ending? (.handled millis result)) (t'.handled millis result) := by
  have hmoments : t'.worker.moments now (.handled millis result) =
      [.call (.handler (t.worker.plan.context job.record n) result)] := by
    simp only [Worker.moments.eq_def, h.activity, h.plan]
  have hcounted := (h.count (·.observe millis)).emit (.handlerDuration t'.registration millis)
  rw [hmoments, Turn.handled]
  simp only [h.activity]
  cases result with
  | accepted =>
    simp only [Worker.ending?.eq_def, h.activity]
    exact ((hcounted.count _).emit _).ends (.processed asked)
  | failed message =>
    simp only [Worker.ending?.eq_def, h.activity, HandlerResult.failure?]
    exact .goes (.handler rfl asked) (hcounted.fail .handler message)
  | panicked payload =>
    simp only [Worker.ending?.eq_def, h.activity, HandlerResult.failure?]
    exact .goes (.handler rfl asked) (hcounted.fail .handler _)

theorem AtHand.decided {failure : RecordFailure} (h : t.AtHand job n (.deciding failure) asked t')
    (now : Nat) (d : Decision) :
    t.Advances job n (.deciding failure) asked (t'.worker.moments now (.decided d))
      (t'.worker.ending? (.decided d)) (t'.decided now d) := by
  have hmoments : t'.worker.moments now (.decided d) =
      [.call (.policy job.record failure d)] := by
    simp only [Worker.moments.eq_def, h.activity]
  have hnoted := h.emit (.decision t'.registration d)
  rw [hmoments, Turn.decided]
  simp only [h.activity]
  cases d with
  | proceed =>
    simp only [Worker.ending?.eq_def, h.activity]
    exact ((hnoted.count _).emit _).ends (.skipped failure asked)
  | stop =>
    simp only [Worker.ending?.eq_def, h.activity]
    exact (hnoted.emit _).ends (.stopped failure asked)
  | retry backoff =>
    simp only [Worker.ending?.eq_def, h.activity, h.stopping]
    have hstopping := h.stopping
    cases asked with
    | true =>
      rw [if_pos rfl, if_pos (by exact hstopping)]
      exact (hnoted.count _).ends (.interruptedAtOnce failure backoff)
    | false =>
      rw [if_neg Bool.false_ne_true, if_neg (by exact Bool.not_eq_true _ ▸ hstopping)]
      exact .goes (.waits failure backoff _) ((hnoted.count _).enter n _)

theorem AtHand.resume {deadline : Nat} (h : t.AtHand job n (.backoff deadline) asked t')
    (now : Nat) :
    t.Advances job n (.backoff deadline) asked (t'.worker.moments now .resume)
      (t'.worker.ending? .resume) (t'.resume now) := by
  simp only [Worker.moments.eq_def, Worker.ending?.eq_def, Turn.resume, h.activity, h.stopping]
  cases asked with
  | true => exact h.ends (.interrupted deadline)
  | false =>
    by_cases hnow : deadline ≤ now
    · simp only [Bool.false_eq_true, if_false, true_and, if_pos hnow]
      exact .goes (.again deadline) (h.enter (nextAttempt n) _)
    · simp only [Bool.false_eq_true, if_false, true_and, if_neg hnow]
      exact h.stays

/-- **Every event**, except for one that ends the worker in the middle of something, lets the
dispatch of the record at hand go on, or ends it. -/
theorem AtHand.apply (h : t.AtHand job n stage asked t') (now : Nat) {ev : WorkerEvent}
    (hev : t'.worker.isCutOffBy ev = false) :
    t.Advances job n stage asked (t'.worker.moments now ev) (t'.worker.ending? ev)
      (ev.apply now t') := by
  cases ev with
  | keyDecoded answer =>
    cases stage with
    | key => exact h.keyDecoded now answer
    | _ =>
      simpa only [Worker.moments.eq_def, Worker.ending?.eq_def, WorkerEvent.apply,
        Turn.keyDecoded.eq_def, h.activity] using h.stays
  | valueDecoded answer =>
    cases stage with
    | value => exact h.valueDecoded now answer
    | _ =>
      simpa only [Worker.moments.eq_def, Worker.ending?.eq_def, WorkerEvent.apply,
        Turn.valueDecoded.eq_def, h.activity] using h.stays
  | handled millis result =>
    cases stage with
    | handler => exact h.handled now millis result
    | _ =>
      simpa only [Worker.moments.eq_def, Worker.ending?.eq_def, WorkerEvent.apply, Turn.handled,
        h.activity] using h.stays
  | decided d =>
    cases stage with
    | deciding failure => exact h.decided now d
    | _ =>
      simpa only [Worker.moments.eq_def, Worker.ending?.eq_def, WorkerEvent.apply, Turn.decided,
        h.activity] using h.stays
  | resume =>
    cases stage with
    | backoff deadline => exact h.resume now
    | _ =>
      simpa only [Worker.moments.eq_def, Worker.ending?.eq_def, WorkerEvent.apply, Turn.resume,
        h.activity] using h.stays
  | requestStop =>
    simp only [Worker.moments.eq_def, Worker.ending?.eq_def, h.activity]
    exact .goes (.isAsked stage asked) ⟨h.activity, h.plan, h.session, rfl⟩
  | abandon =>
    simp only [Worker.moments.eq_def, Worker.ending?.eq_def, h.activity]
    exact .goes (.isAsked stage asked) ⟨h.activity, h.plan, h.session, rfl⟩
  | crash message =>
    have hidle : runsApplication t'.worker.activity = false := hev
    have hstill : t'.crash message = t' := by rw [Turn.crash, hidle]; rfl
    simpa only [Worker.moments.eq_def, Worker.ending?.eq_def, WorkerEvent.apply, hstill,
      h.activity] using h.stays
  | abort =>
    simp only [Worker.isCutOffBy, h.activity, Activity.isOver, Bool.not_false,
      Bool.true_eq_false] at hev
  | start =>
    simpa only [Worker.moments.eq_def, Worker.ending?.eq_def, WorkerEvent.apply, Turn.start,
      Turn.startWith, h.activity] using h.stays
  | poll =>
    simpa only [Worker.moments.eq_def, Worker.ending?.eq_def, WorkerEvent.apply, Turn.poll,
      h.activity] using h.stays
  | close =>
    simpa only [Worker.moments.eq_def, Worker.ending?.eq_def, WorkerEvent.apply, Turn.close,
      h.activity] using h.stays
  | join =>
    simpa only [Worker.moments.eq_def, Worker.ending?.eq_def, WorkerEvent.apply, Turn.join,
      h.activity] using h.stays

/-! ### Courses -/

/-- **What can happen in the dispatch of a record**, with what shows of it and how it ends, if it
has ended: events of the worker, other than ones that end it in the middle of something, and
whatever else leaves it alone. -/
inductive Dispatches (t : Turn) : List Moment → Option Ending → Turn → Prop
  | begins : Dispatches t [] none t
  | event {trace : List Moment} {t' : Turn} (before : Dispatches t trace none t') (now : Nat)
      {ev : WorkerEvent} (hev : t'.worker.isCutOffBy ev = false) :
      Dispatches t (trace ++ t'.worker.moments now ev) (t'.worker.ending? ev) (ev.apply now t')
  | aside {trace : List Moment} {t' t'' : Turn} (before : Dispatches t trace none t')
      (same : t''.worker = t'.worker) : Dispatches t trace none t''

/-- One course after another. -/
theorem Dispatches.trans {trace more : List Moment} {ending : Option Ending} {t'' : Turn}
    (h : t.Dispatches trace none t') (h' : t'.Dispatches more ending t'') :
    t.Dispatches (trace ++ more) ending t'' := by
  induction h' with
  | begins => rwa [List.append_nil]
  | event _ now hev ih =>
    rw [← List.append_assoc]
    exact .event ih now hev
  | aside _ same ih => exact .aside ih same

end Turn

/-- **How far a dispatch is**: what has shown of it, and where the worker is with the record. -/
inductive Course (plan : Plan) (record : RawRecord) (asked₀ : Bool) :
    List Moment → Nat → Stage → Bool → Prop
  | begins : Course plan record asked₀ [] 1 .key asked₀
  | goes {trace moments : List Moment} {n n' : Nat} {stage stage' : Stage} {asked asked' : Bool}
      (before : Course plan record asked₀ trace n stage asked)
      (step : Continues plan record n stage asked moments n' stage' asked') :
      Course plan record asked₀ (trace ++ moments) n' stage' asked'

namespace Turn

variable {t t' : Turn} {job : Job} {trace : List Moment} {ending : Option Ending}

/-- A record comes to hand. -/
theorem atHand_first (hactivity : t.worker.activity = .working job .key)
    (hfirst : job.attempt = 1) : t.AtHand job 1 .key t.worker.stopping t := by
  refine ⟨?_, rfl, rfl, rfl⟩
  rw [hactivity, ← hfirst]

/-- **What the dispatch of a record comes to**: the record is at hand, or the worker has
concluded. -/
inductive ComesTo (t : Turn) (job : Job) : List Moment → Option Ending → Turn → Prop
  | atHand {trace : List Moment} {n : Nat} {stage : Stage} {asked : Bool} {t' : Turn}
      (course : Course t.worker.plan job.record t.worker.stopping trace n stage asked)
      (atHand : t.AtHand job n stage asked t') : ComesTo t job trace none t'
  | concluded {trace moments : List Moment} {n : Nat} {stage : Stage} {asked : Bool} {e : Ending}
      {t₁ : Turn} (course : Course t.worker.plan job.record t.worker.stopping trace n stage asked)
      (step : Ends t.worker.plan job.record n stage asked moments e)
      (plan : t₁.worker.plan = t.worker.plan) (session : t₁.worker.session = t.worker.session) :
      ComesTo t job (trace ++ moments) (some e) (t₁.conclude job e)

theorem Advances.comesTo {n : Nat} {stage : Stage} {asked : Bool} {moments : List Moment}
    (h : t.Advances job n stage asked moments ending t')
    (course : Course t.worker.plan job.record t.worker.stopping trace n stage asked) :
    t.ComesTo job (trace ++ moments) ending t' := by
  cases h with
  | goes step atHand => exact .atHand (course.goes step) atHand
  | ends step plan session => exact .concluded course step plan session

/-- **Every course** comes to one of the two. -/
theorem Dispatches.comesTo (h : t.Dispatches trace ending t')
    (hactivity : t.worker.activity = .working job .key) (hfirst : job.attempt = 1) :
    t.ComesTo job trace ending t' := by
  induction h with
  | begins => exact .atHand .begins (atHand_first hactivity hfirst)
  | event _ now hev ih =>
    cases ih with
    | atHand course atHand => exact (atHand.apply now hev).comesTo course
  | aside _ same ih =>
    cases ih with
    | atHand course atHand =>
      refine .atHand course ⟨?_, ?_, ?_, ?_⟩ <;> rw [same]
      · exact atHand.activity
      · exact atHand.plan
      · exact atHand.session
      · exact atHand.stopping

end Turn

end StreamDispatch
