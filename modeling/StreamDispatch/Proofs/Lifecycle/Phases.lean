import StreamDispatch.Proofs.System.Event

/-!
# The phases of a worker

Two parties publish the phases of a worker. The worker itself says that it runs, unless it is
draining already, and it says how it ended, whatever it said before. Whoever holds it says
that it drains, or how it ended, unless a final phase is out. They do not wait for each other,
so every order of their steps has to be looked at.

What keeps the phases in order is that the worker's last word and the holder's last word
exclude each other: the worker publishes its final phase when it closes, no final phase is out
as long as a worker is about to close (`StreamDispatch.Worker.Settled.isOver`), and the holder
publishes one only for a worker that is over.

A worker is looked at here on its own. Its surroundings are left open: each of its steps
happens at some time and at some broker, and a broker may refuse to let it join.

## Main definitions

* `StreamDispatch.Occasion`, `StreamDispatch.Worker.after`: what can happen to a worker, and
  what comes of it.

## Main statements

* `StreamDispatch.Worker.phases_forward`: phases only move forward and nothing follows a final
  phase, for a worker on its own and for all workers of a system.
-/

namespace StreamDispatch

/-- What can happen to a worker, in whatever surroundings. -/
inductive Occasion
  /-- It starts, and this comes of joining the group. -/
  | started (broker : Broker) (joined : Except BrokerFault (Session × Broker))
  | event (now : Nat) (broker : Broker) (event : WorkerEvent)

/-- What comes of the worker. -/
def Occasion.apply : Occasion → Worker → Worker
  | .started broker joined, w => (Turn.startWith ⟨w, broker, []⟩ joined).worker
  | .event now broker ev, w => (ev.apply now ⟨w, broker, []⟩).worker

/-- Whether the worker is asked to stop. -/
def Occasion.asksToStop : Occasion → Bool
  | .started _ _ => false
  | .event _ _ ev => ev.asksToStop

/-- On any occasion a worker stays settled, and publishes what may follow its phase. -/
theorem Occasion.passes (occasion : Occasion) {w : Worker} (hs : w.Settled) :
    (occasion.apply w).Settled ∧ w.Announces occasion.asksToStop (occasion.apply w) := by
  cases occasion with
  | started broker joined =>
    have hpasses := Turn.passes_startWith (t := ⟨w, broker, []⟩) hs joined
    exact ⟨hpasses.settled, hpasses.announces⟩
  | event now broker ev =>
    have hpasses := ev.passes now (t := ⟨w, broker, []⟩) hs
    exact ⟨hpasses.settled, hpasses.announces⟩

namespace Worker

/-- What comes of a worker on one occasion after the other. -/
def after (w : Worker) (occasions : List Occasion) : Worker :=
  occasions.foldl (fun w occasion => occasion.apply w) w

theorem after_concat (w : Worker) (occasions : List Occasion) (occasion : Occasion) :
    w.after (occasions ++ [occasion]) = occasion.apply (w.after occasions) := by
  rw [after, List.foldl_append]
  rfl

theorem settled_ofPlan (plan : Plan) (session : Session) : (ofPlan plan session).Settled where
  isOver := nofun
  closing := nofun
  told := by rintro (hactivity | hactivity) <;> cases hactivity
  broken := nofun

/-- The phases of a worker stay in order, whatever happens to it, and it says at most as often
that it drains as it is asked to stop. -/
theorem inOrder_after (plan : Plan) (session : Session) (occasions : List Occasion) :
    ((ofPlan plan session).after occasions).Settled ∧
      ((ofPlan plan session).after occasions).InOrder ∧
      ((ofPlan plan session).after occasions).phases.count .draining ≤
        occasions.countP (·.asksToStop) := by
  induction occasions using List.reverseRecOn with
  | nil => exact ⟨settled_ofPlan plan session, List.pairwise_singleton _ _, Nat.le_refl _⟩
  | append_singleton occasions occasion ih =>
    obtain ⟨hsettled, horder, hcount⟩ := ih
    obtain ⟨hsettled', hannounces⟩ := occasion.passes hsettled
    rw [after_concat]
    refine ⟨hsettled', hannounces.inOrder horder, ?_⟩
    have hstep := hannounces.count_draining
    have hone : occasion.asksToStop.toNat = if occasion.asksToStop then 1 else 0 := by
      cases occasion.asksToStop <;> rfl
    rw [List.countP_append, List.countP_singleton]
    omega

/-- What the order says of any two phases and of each single one. -/
theorem InOrder.forward {w : Worker} (h : w.InOrder) :
    (w.phases.Pairwise fun p q => p.isTerminal = false ∧ p.Precedes q) ∧
      ∀ p ∈ w.phases, p.state ≠ .validating ∧ (p.failure?.isSome = true ↔ p.state = .failed) := by
  refine ⟨h.imp fun hpq => ⟨hpq.not_terminal, hpq⟩, fun p _ => ?_⟩
  cases p <;> simp [Phase.state, Phase.failure?]

/-- **The life of a worker moves forward.** Whatever happens to a worker, in whatever order and
surroundings, each of its phases is further on the way than all before it, and nothing is said
after a final phase. Only draining may be said again, by a worker that is asked to stop again.
No phase is validating, and a phase has a cause exactly if it is failed. The same is true of
each worker of a system, in every history. -/
theorem phases_forward :
    (∀ (plan : Plan) (session : Session) (occasions : List Occasion),
      (((ofPlan plan session).after occasions).phases.Pairwise fun p q =>
        p.isTerminal = false ∧ p.Precedes q) ∧
      (occasions.countP (·.asksToStop) ≤ 1 →
        ((ofPlan plan session).after occasions).phases.Pairwise fun p q =>
          p.state.rank < q.state.rank) ∧
      ∀ p ∈ ((ofPlan plan session).after occasions).phases,
        p.state ≠ .validating ∧ (p.failure?.isSome = true ↔ p.state = .failed)) ∧
    ∀ (D H : Type) (events : List (Event D H)), ∀ w ∈ (History.of events).system.workers,
      (w.phases.Pairwise fun p q => p.isTerminal = false ∧ p.Precedes q) ∧
      ∀ p ∈ w.phases, p.state ≠ .validating ∧ (p.failure?.isSome = true ↔ p.state = .failed) := by
  constructor
  · intro plan session occasions
    obtain ⟨-, horder, hcount⟩ := inOrder_after plan session occasions
    obtain ⟨hforward, hcauses⟩ := horder.forward
    exact ⟨hforward, fun honce => horder.strict (Nat.le_trans hcount honce), hcauses⟩
  · intro D H events w hw
    exact ((History.sound events).order w hw).forward

/-- A worker is asked to stop before it begins, the broker does not let it join, and somebody
waits for it in the end. -/
def refused : List Occasion :=
  [.event 0 .empty .requestStop, .started .empty (.error .notSubscribed),
    .event 0 .empty .close, .event 0 .empty .join]

/-- A worker is asked to stop before it begins and once more while it reads, ends, and is cut
off when it is over. -/
def stopsEarly : List (Event Unit Unit) :=
  [.createTopic "orders" ⟨2, 1, ∅⟩, .submit (History.orderReader "first"),
    .work 0 .requestStop, .work 0 .start, .requestStop, .work 0 .poll, .work 0 .close,
    .work 0 .abort]

/-- Neither of the two ever runs, as far as can be told from their phases. -/
theorem phases_forward_stopsEarly :
    (((ofPlan ⟨0, "first", ["orders"], .default, .afterRecord⟩ default).after
        refused).phases.map (·.state) = [.created, .draining, .failed] ∧
      refused.countP (·.asksToStop) = 1 ∧
      ((ofPlan ⟨0, "first", ["orders"], .default, .afterRecord⟩ default).after
        refused).phases.Pairwise fun p q => p.state.rank < q.state.rank) ∧
    ∃ w ∈ (History.of stopsEarly).system.workers,
      w.phases = [.created, .draining, .draining, .stopped] ∧
      (w.phases.Pairwise fun p q => p.isTerminal = false ∧ p.Precedes q) ∧
      ∀ p ∈ w.phases,
        p.state ≠ .validating ∧ (p.failure?.isSome = true ↔ p.state = .failed) := by
  obtain ⟨halone, hsystem⟩ := phases_forward
  have honce : refused.countP (·.asksToStop) = 1 := by decide
  have hphases : (History.of stopsEarly).system.workers.map Worker.phases =
      [[.created, .draining, .draining, .stopped]] := by decide +kernel
  obtain ⟨w, hworkers, hw⟩ := List.map_eq_singleton_iff.mp hphases
  have hmem : w ∈ (History.of stopsEarly).system.workers := by
    rw [hworkers]
    exact List.mem_singleton.mpr rfl
  obtain ⟨hforward, hcauses⟩ := hsystem Unit Unit stopsEarly w hmem
  exact ⟨⟨by decide +kernel, honce, (halone _ _ refused).2.1 (Nat.le_of_eq honce)⟩,
    w, hmem, hw, hforward, hcauses⟩

end Worker

end StreamDispatch
