import StreamDispatch.Proofs.Delivery.ExactlyOnce
import StreamDispatch.Proofs.Worker.Books

/-!
# What the counters of workers show

The books of a worker (`StreamDispatch.Booked`) are kept throughout every history. What the worker
at a place has heard is listed along the history (`StreamDispatch.History.heardBy`), and so are the
events with which the broker refused one of its commits
(`StreamDispatch.History.refusedCommits`); both are read off the systems that the history leads
through, and not off any counter.

The counters are taken here as they are counted, in natural numbers. A status report shows their
lower words.

## Main statements

* `StreamDispatch.System.BookedAt.apply`: one more event keeps the books.
* `StreamDispatch.History.counters_balance`: what the counters of a worker show, throughout every
  history.
-/

namespace StreamDispatch

/-- Whether a worker is about to poll, or polls. -/
def Activity.isPolling : Activity → Bool
  | .ready => true
  | .polling _ _ => true
  | _ => false

namespace System

variable {D H : Type} {sys : System} {place : Nat} {heard : List Heard} {accepted : Prop}

/-- What the worker at a place hears with an event. -/
def heardAt (place : Nat) (sys : System) : Event D H → List Heard
  | .work actor ev =>
    if actor = place then ((sys.workers[place]?).bind (·.hears? ev)).toList else []
  | _ => []

/-- Whether the broker refuses a commit of the worker at a place with an event. -/
def refusesAt (place : Nat) (sys : System) : Event D H → Bool
  | .work actor ev =>
    decide (actor = place) &&
      decide ((sys.apply (.work actor ev : Event D H)).refusals ≠ sys.refusals)
  | _ => false

theorem heardAt_of_ne {e : Event D H} (h : ∀ ev, e ≠ .work place ev) :
    sys.heardAt place e = [] := by
  cases e with
  | work actor ev =>
    refine if_neg fun hplace => h ev ?_
    rw [hplace]
  | _ => rfl

theorem heardAt_of_none {e : Event D H} (h : sys.workers[place]? = none) :
    sys.heardAt place e = [] := by
  cases e with
  | work actor ev =>
    rw [heardAt, h]
    exact ite_self _
  | _ => rfl

/-- What is in the books of the worker at a place. As long as there is none, nothing was
heard. -/
def BookedAt (sys : System) (place : Nat) (heard : List Heard) (accepted : Prop) : Prop :=
  match sys.workers[place]? with
  | none => heard = []
  | some w => Booked w.plan.strategy w.metrics w.activity.post heard accepted

theorem BookedAt.booked {w : Worker} (h : sys.BookedAt place heard accepted)
    (hw : sys.workers[place]? = some w) :
    Booked w.plan.strategy w.metrics w.activity.post heard accepted := by
  rw [BookedAt, hw] at h
  exact h

/-- An event of a worker keeps its books. -/
theorem booked_turn {w : Worker} {ev : WorkerEvent} (hw : sys.workers[place]? = some w)
    (hc : Coherent w.plan w.activity.standing w.session)
    (hb : Booked w.plan.strategy w.metrics w.activity.post heard accepted) :
    (sys.apply (.work place ev : Event D H)).BookedAt place
      (heard ++ sys.heardAt place (.work place ev : Event D H))
      (accepted ∧ sys.refusesAt place (.work place ev : Event D H) = false) := by
  obtain ⟨marks, hwrites, hnotes⟩ := ev.notes sys.now (t := ⟨w, sys.broker, sys.samples⟩) hc
  have hheard : sys.heardAt place (.work place ev : Event D H) = (w.hears? ev).toList := by
    rw [heardAt, if_pos rfl, hw, Option.bind_some]
  rw [BookedAt, apply, workers_turn hw, if_pos rfl, hheard]
  simp only
  rw [hwrites.plan, hwrites.metrics]
  refine hb.step hnotes ?_
  rintro ⟨hbefore, hrefuses⟩
  refine ⟨hbefore, ?_⟩
  -- No refusal was sampled, so there is no mark of one.
  have hsame : (sys.turn place (ev.apply sys.now)).refusals = sys.refusals := by
    rw [refusesAt, decide_eq_true rfl, Bool.true_and] at hrefuses
    exact not_not.mp (of_decide_eq_false hrefuses)
  have hcount := hwrites.refusals
  rw [turn_eq hw] at hsame
  have hnone : marks.countP Mark.isRefused = 0 := by
    have heq : sys.refusals = sys.refusals + marks.countP Mark.isRefused := hsame.symm.trans hcount
    omega
  intro mark hmem
  exact Bool.eq_false_iff.mpr (List.countP_eq_zero.mp hnone mark hmem)

/-- **One more event keeps the books** of whoever is at a place. -/
theorem BookedAt.apply (h : sys.BookedAt place heard accepted) (hs : sys.Sound) (e : Event D H) :
    (sys.apply e).BookedAt place (heard ++ sys.heardAt place e)
      (accepted ∧ sys.refusesAt place e = false) := by
  cases hw' : (sys.apply e).workers[place]? with
  | none =>
    -- Workers stay where they are, so there was none before.
    have hw : sys.workers[place]? = none := by
      by_contra hsome
      obtain ⟨w, hw⟩ := Option.ne_none_iff_exists'.mp hsome
      obtain ⟨w', hsome', -⟩ := worker_apply hs e hw
      rw [hw'] at hsome'
      cases hsome'
    rw [BookedAt, hw] at h
    rw [BookedAt, hw', h, heardAt_of_none hw]
    rfl
  | some w' =>
    rcases becomes hs.settled e hw' with ⟨hw, hnew⟩ | ⟨w, hw, hkept, hother⟩ |
      ⟨w, ev, deed, rfl, hacts⟩
    · rw [BookedAt, hw] at h
      rw [BookedAt, hw', h, heardAt_of_none hw]
      simp only
      rw [hnew.metrics, hnew.activity]
      exact booked_new _ _
    · rw [BookedAt, hw', heardAt_of_ne hother, List.append_nil]
      simp only
      rw [hkept.plan, hkept.metrics, hkept.activity]
      exact (h.booked hw).mono And.left
    · exact booked_turn hacts.before (hs.coherent w (List.mem_of_getElem? hacts.before))
        (h.booked hacts.before)

end System

namespace History

variable {D H : Type}

/-- What the worker at a place has heard. -/
def heardBy (place : Nat) : List (Event D H) → List Heard := noted (System.heardAt place)

/-- The events with which a commit of the worker at a place was refused. -/
def refusedCommits (place : Nat) : List (Event D H) → List (Event D H) :=
  eventsWhere (System.refusesAt place)

theorem refusedCommits_concat (place : Nat) (events : List (Event D H)) (e : Event D H) :
    refusedCommits place (events ++ [e]) = [] ↔
      refusedCommits place events = [] ∧ (of events).system.refusesAt place e = false := by
  rw [refusedCommits, eventsWhere, noted_concat, List.append_eq_nil_iff]
  cases (of events).system.refusesAt place e <;> simp

/-- The books are kept throughout every history. -/
theorem bookedAt (place : Nat) (events : List (Event D H)) :
    (of events).system.BookedAt place (heardBy place events)
      (refusedCommits place events = []) := by
  induction events using List.reverseRecOn with
  | nil => rfl
  | append_singleton events e ih =>
    rw [system_concat, refusedCommits_concat, heardBy, noted_concat]
    exact ih.apply (sound events) e

/-- **What the counters of a worker show**, throughout every history. Every call of the handler
that has come back is timed, and was accepted or is a failure of the handler. A worker that is
about to poll has processed or skipped what it received, every failure was followed by another
attempt or a skipped record, and there were as many commits as the strategy asks for. Once a
worker is over, one failure more is counted if the policy told it to stop; of a worker in which a
decoder or the policy broke off nothing is said then. And a worker that ended by itself, without
a refused commit, has left records behind exactly if it was told to stop, or to try a record again
when it was to stop. -/
theorem counters_balance (events : List (Event D H)) {place : Nat} {w : Worker}
    (hw : (of events).system.workers[place]? = some w) :
    (w.metrics.latency.count = returns (heardBy place events) ∧
      returns (heardBy place events) = w.metrics.processed + exceptions (heardBy place events)) ∧
    (w.activity.isPolling = true →
      w.metrics.received = w.metrics.processed + w.metrics.skipped ∧
      w.metrics.failures = w.metrics.retries + w.metrics.skipped ∧
      w.metrics.commits =
        match w.plan.strategy with
        | .afterBatch => w.metrics.batches
        | .afterRecord => w.metrics.received
        | .auto => 0) ∧
    (w.activity.isOver = true → Heard.brokenOff ∉ heardBy place events →
      w.metrics.failures = w.metrics.retries + w.metrics.skipped +
        if lastDecision? (heardBy place events) = some .stop then 1 else 0) ∧
    (w.activity = .ended → refusedCommits place events = [] →
      w.metrics.processed + w.metrics.skipped ≤ w.metrics.received ∧
      (w.metrics.processed + w.metrics.skipped < w.metrics.received ↔
        StopsShort (heardBy place events))) := by
  have hbooked := (bookedAt place events).booked hw
  refine ⟨⟨hbooked.returned, hbooked.answered⟩, fun hpolling => ?_, fun hover hbroken => ?_,
    fun hended haccepted => ?_⟩
  · have hpost : w.activity.post = .polling := by
      cases hactivity : w.activity <;> simp_all [Activity.isPolling, Activity.post]
    rw [hpost] at hbooked
    obtain ⟨hreceived, hcommitted, hgoesOn⟩ := hbooked.ongoing 0 rfl
    have hfailed := hbooked.failed hgoesOn.unbroken
    rw [decide_eq_false hgoesOn.not_stop] at hfailed
    refine ⟨hreceived, hfailed, ?_⟩
    cases hstrategy : w.plan.strategy <;> rw [hstrategy] at hcommitted
    · exact hcommitted
    · exact hcommitted.symm
    · exact hcommitted.trans hreceived.symm
  · have hdeciding : w.activity.post.isDeciding = false := by
      cases hactivity : w.activity <;>
        simp_all [Activity.isOver, Activity.post, Post.isDeciding]
    have hfailed := hbooked.failed hbroken
    rw [hdeciding] at hfailed
    rw [hfailed]
    split <;> simp_all
  · rw [hended] at hbooked
    exact hbooked.left rfl haccepted

/-! ### A retry that is cut short -/

/-- A worker reads three records. It accepts the first, and is asked to stop while it waits to try
the second again. -/
def interruptedRetry : List (Event Unit Unit) :=
  [.createTopic "orders" ⟨2, 1, ∅⟩, .produce secondOrders ⟨none, none, 0, []⟩,
    .produce secondOrders ⟨none, none, 0, []⟩, .produce secondOrders ⟨none, none, 0, []⟩,
    .submit (orderReader "first"), .work 0 .start, .work 0 .poll] ++ accepts 0 ++
  [.work 0 (.keyDecoded (.ok ())), .work 0 (.valueDecoded (.ok ())),
    .work 0 (.handled 0 (.failed "busy")), .work 0 (.decided (.retry (.ofMillis 100))),
    .work 0 .requestStop, .work 0 .resume, .work 0 .close]

/-- The worker that takes over the partition is about to poll, and has committed three times; the
one that is interrupted leaves two of three records behind. -/
theorem counters_balance_interruptedRetry :
    (∃ w, (of handover).system.workers[1]? = some w ∧ w.activity.isPolling = true ∧
      w.metrics.commits = 3 ∧ w.metrics.received = w.metrics.processed + w.metrics.skipped) ∧
    ∃ w, (of interruptedRetry).system.workers[0]? = some w ∧ w.activity = .ended ∧
      w.metrics.latency.count = 2 ∧ w.metrics.failures = w.metrics.retries + w.metrics.skipped ∧
      w.metrics.processed + w.metrics.skipped < w.metrics.received := by
  have hreader : (of handover).system.workers[1]?.map (fun w =>
      (w.activity.isPolling, w.metrics.received, w.plan.strategy)) =
        some (true, 3, .afterRecord) := by decide +kernel
  have hinterrupted : (of interruptedRetry).system.workers[0]?.map (·.activity) =
      some .ended := by decide +kernel
  constructor
  · obtain ⟨w, hw, hview⟩ := Option.map_eq_some_iff.mp hreader
    obtain ⟨hpolling, hview⟩ := Prod.mk.inj hview
    obtain ⟨hcount, hstrategy⟩ := Prod.mk.inj hview
    obtain ⟨-, hpolls, -, -⟩ := counters_balance handover hw
    obtain ⟨hreceived, -, hcommits⟩ := hpolls hpolling
    rw [hstrategy] at hcommits
    exact ⟨w, hw, hpolling, hcommits.trans hcount, hreceived⟩
  · obtain ⟨w, hw, hended⟩ := Option.map_eq_some_iff.mp hinterrupted
    obtain ⟨⟨hcalls, -⟩, -, hover, hends⟩ := counters_balance interruptedRetry hw
    have hlast : lastDecision? (heardBy 0 interruptedRetry) = some (.retry (.ofMillis 100)) := by
      decide +kernel
    have hshort : StopsShort (heardBy 0 interruptedRetry) :=
      .inr ⟨⟨_, hlast⟩, by decide +kernel⟩
    have haccepted : refusedCommits 0 interruptedRetry = [] :=
      List.eq_nil_of_length_eq_zero (by decide +kernel)
    have hfailures := hover (by rw [hended]; rfl) (by decide +kernel)
    rw [hlast] at hfailures
    exact ⟨w, hw, hended, hcalls.trans (by decide +kernel), hfailures,
      (hends hended haccepted).2.mpr hshort⟩

end History

end StreamDispatch
