import Mathlib.Data.List.Induction
import StreamDispatch.Proofs.System.Aside
import StreamDispatch.Proofs.Worker.Progress

/-!
# What one event does to a system

An event of a system is a step of one worker, or it happens aside from all of them
(`StreamDispatch.System.Aside`). A step of a worker is one of its moves, and what is known
about moves and phases is collected for it in `StreamDispatch.System.Acts`. From here on,
whatever is proved about histories is proved for these two kinds of events.

## Main statements

* `StreamDispatch.System.apply_cases`: an event happens aside, or one worker does something.
* `StreamDispatch.System.becomes`: the same, seen from the worker at a place.
* `StreamDispatch.History.sound`: the invariants of workers hold throughout every history.
-/

namespace StreamDispatch

namespace System

/-- The worker at a place, and nobody else, does something because of an event. -/
structure Acts (sys : System) (place : Nat) (w : Worker) (ev : WorkerEvent) (deed : Deed)
    (w' : Worker) (sys' : System) : Prop where
  before : sys.workers[place]? = some w
  after : ∀ i : Nat, sys'.workers[i]? = if i = place then some w' else sys.workers[i]?
  numbers : sys'.workers.map (·.session.member) = sys.workers.map (·.session.member)
  did : Turn.Did ⟨w, sys.broker, sys.samples⟩ deed ⟨w', sys'.broker, sys'.samples⟩
  coherent : Coherent w.plan w.activity.standing w.session →
    Coherent w'.plan w'.activity.standing w'.session
  resolved : deed.resolved? = w.resolves? ev
  cutOff : deed = .cutOff → w.isCutOffBy ev = true
  passes : w.Settled →
    Turn.Passes ev ⟨w, sys.broker, sys.samples⟩ ⟨w', sys'.broker, sys'.samples⟩

theorem Acts.move {sys sys' : System} {place : Nat} {w w' : Worker} {ev : WorkerEvent}
    {deed : Deed} (h : sys.Acts place w ev deed w' sys') :
    Move w.plan ⟨w.activity.standing, w.session, sys.broker⟩ deed
      ⟨w'.activity.standing, w'.session, sys'.broker⟩ := h.did.move

theorem acts_turn {sys : System} {place : Nat} {w : Worker}
    (hw : sys.workers[place]? = some w) (ev : WorkerEvent) :
    ∃ deed w', sys.Acts place w ev deed w' (sys.turn place (ev.apply sys.now)) := by
  obtain ⟨deed, hdid, hresolved, hcut⟩ := ev.did sys.now ⟨w, sys.broker, sys.samples⟩
  have hturn := turn_eq hw (ev.apply sys.now)
  refine ⟨deed, _, hw, workers_turn hw _, members_turn hw hdid.move.same.member, ?_, ?_,
    hresolved, hcut, fun hs => ?_⟩
  · rw [hturn]
    exact hdid
  · intro hc
    rw [hdid.plan]
    exact hdid.move.coherent hc
  · rw [hturn]
    exact ev.passes sys.now hs

/-- The worker that an event happens to, if there is one. -/
def actor? {D H : Type} (sys : System) : Event D H → Option Worker
  | .work place _ => sys.workers[place]?
  | _ => none

theorem resolution?_of_actor? {D H : Type} {sys : System} {e : Event D H}
    (h : sys.actor? e = none) : sys.resolution? e = none := by
  cases e with
  | work place ev =>
    rw [resolution?, show sys.workers[place]? = none from h]
    rfl
  | _ => rfl

/-- **An event happens aside, or one worker does something.** -/
theorem apply_cases {D H : Type} {sys : System} (hs : ∀ w ∈ sys.workers, w.Settled)
    (e : Event D H) :
    (sys.Aside (sys.apply e) ∧ sys.actor? e = none) ∨
      ∃ place w ev deed w', e = .work place ev ∧
        sys.Acts place w ev deed w' (sys.apply e) := by
  cases e with
  | wait millis => exact .inl ⟨.of_broker rfl rfl rfl (Nat.le_refl _), rfl⟩
  | createTopic topic description => exact .inl ⟨aside_createTopic sys topic description, rfl⟩
  | produce tp record =>
    refine .inl ⟨?_, rfl⟩
    rw [apply]
    split
    next offset b h =>
      refine .of_broker rfl (Broker.groups_produce h) (Broker.partitionsOf_produce h) ?_
      exact Nat.le_of_eq (Broker.nextMember_produce h).symm
    next => exact .refl sys
  | setFaults faults => exact .inl ⟨.of_broker rfl rfl rfl (Nat.le_refl _), rfl⟩
  | useSettings settings => exact .inl ⟨.of_broker rfl rfl rfl (Nat.le_refl _), rfl⟩
  | submit registration => exact .inl ⟨aside_submit registration hs, rfl⟩
  | requestStop => exact .inl ⟨aside_requestStop sys, rfl⟩
  | dropEngine => exact .inl ⟨aside_dropEngine sys, rfl⟩
  | renewEngine =>
    exact .inl ⟨(aside_dropEngine sys).trans (.of_broker rfl rfl rfl (Nat.le_refl _)), rfl⟩
  | work place ev =>
    cases hw : sys.workers[place]? with
    | none =>
      -- There is no worker at this place, and nothing happens.
      refine .inl ⟨?_, hw⟩
      rw [apply, turn_of_none hw]
      exact .refl sys
    | some w =>
      obtain ⟨deed, w', hacts⟩ := acts_turn hw ev
      exact .inr ⟨place, w, ev, deed, w', rfl, hacts⟩

/-! ### What holds throughout a history -/

/-- **What holds of every system**: all workers are coherent and settled, and their phases
are in order. -/
structure Sound (sys : System) : Prop where
  coherent : ∀ w ∈ sys.workers, Coherent w.plan w.activity.standing w.session
  settled : ∀ w ∈ sys.workers, w.Settled
  order : ∀ w ∈ sys.workers, w.InOrder

theorem sound_empty : Sound .empty where
  coherent _ hw := absurd hw List.not_mem_nil
  settled _ hw := absurd hw List.not_mem_nil
  order _ hw := absurd hw List.not_mem_nil

theorem Acts.mem_cases {sys sys' : System} {place : Nat} {w w' : Worker} {ev : WorkerEvent}
    {deed : Deed} (h : sys.Acts place w ev deed w' sys') {v : Worker} (hv : v ∈ sys'.workers) :
    v = w' ∨ v ∈ sys.workers := by
  obtain ⟨i, hi⟩ := List.mem_iff_getElem?.mp hv
  rw [h.after] at hi
  split at hi
  · exact .inl (Option.some.inj hi).symm
  · exact .inr (List.mem_of_getElem? hi)

theorem Aside.mem_cases {sys sys' : System} (h : sys.Aside sys') {v : Worker}
    (hv : v ∈ sys'.workers) : (∃ w ∈ sys.workers, w.Kept v) ∨ v.New := by
  obtain ⟨i, hi⟩ := List.mem_iff_getElem?.mp hv
  rcases h.fresh i v hi with ⟨w, hw, hkept⟩ | hnew
  · exact .inl ⟨w, List.mem_of_getElem? hw, hkept⟩
  · exact .inr hnew

/-- One more event keeps a system sound. -/
theorem Sound.apply {D H : Type} {sys : System} (h : sys.Sound) (e : Event D H) :
    (sys.apply e).Sound := by
  rcases apply_cases h.settled e with ⟨haside, -⟩ | ⟨place, w, ev, deed, w', -, hacts⟩
  · constructor
    · intro v hv
      rcases haside.mem_cases hv with ⟨w, hw, hkept⟩ | hnew
      · rw [hkept.plan, hkept.activity, hkept.session]
        exact h.coherent w hw
      · rw [hnew.activity]
        exact hnew.coherent
    · intro v hv
      rcases haside.mem_cases hv with ⟨w, hw, hkept⟩ | hnew
      · exact (h.settled w hw).kept hkept
      · exact hnew.settled
    · intro v hv
      rcases haside.mem_cases hv with ⟨w, hw, hkept⟩ | hnew
      · exact hkept.order (h.order w hw)
      · exact hnew.order
  · have hw := List.mem_of_getElem? hacts.before
    constructor
    · intro v hv
      rcases hacts.mem_cases hv with rfl | hv
      · exact hacts.coherent (h.coherent w hw)
      · exact h.coherent v hv
    · intro v hv
      rcases hacts.mem_cases hv with rfl | hv
      · exact (hacts.passes (h.settled w hw)).settled
      · exact h.settled v hv
    · intro v hv
      rcases hacts.mem_cases hv with rfl | hv
      · exact (hacts.passes (h.settled w hw)).announces.inOrder (h.order w hw)
      · exact h.order v hv

/-- **What becomes of the worker at a place**: it is new there, or it is left alone, or it does
something itself. -/
theorem becomes {D H : Type} {sys : System} (hs : ∀ w ∈ sys.workers, w.Settled) (e : Event D H)
    {place : Nat} {w' : Worker} (hw' : (sys.apply e).workers[place]? = some w') :
    (sys.workers[place]? = none ∧ w'.New) ∨
      (∃ w, sys.workers[place]? = some w ∧ w.Kept w' ∧ ∀ ev, e ≠ .work place ev) ∨
      ∃ w ev deed, e = .work place ev ∧ sys.Acts place w ev deed w' (sys.apply e) := by
  rcases apply_cases hs e with ⟨haside, hactor⟩ | ⟨actor, w, ev, deed, v, rfl, hacts⟩
  · cases hw : sys.workers[place]? with
    | none =>
      rcases haside.fresh place w' hw' with ⟨w, hold, -⟩ | hnew
      · rw [hw] at hold
        cases hold
      · exact .inl ⟨rfl, hnew⟩
    | some w =>
      obtain ⟨v, hv, hkept⟩ := haside.kept place w hw
      obtain rfl : v = w' := Option.some.inj (hv.symm.trans hw')
      refine .inr (.inl ⟨w, rfl, hkept, ?_⟩)
      rintro ev rfl
      rw [actor?, hw] at hactor
      cases hactor
  · rw [hacts.after] at hw'
    split at hw'
    next hplace =>
      subst hplace
      obtain rfl : v = w' := Option.some.inj hw'
      exact .inr (.inr ⟨w, ev, deed, rfl, hacts⟩)
    next hplace =>
      -- Somebody else acts, and this worker is where it was.
      refine .inr (.inl ⟨w', hw', .refl w', ?_⟩)
      rintro ev' heq
      cases heq
      exact hplace rfl

/-- A worker stays at its place, with the session it was created with. -/
theorem worker_apply {D H : Type} {sys : System} (h : sys.Sound) (e : Event D H) {i : Nat}
    {w : Worker} (hw : sys.workers[i]? = some w) :
    ∃ w', (sys.apply e).workers[i]? = some w' ∧ w.session.Same w'.session := by
  rcases apply_cases h.settled e with ⟨haside, -⟩ | ⟨place, v, ev, deed, v', -, hacts⟩
  · obtain ⟨w', hw', hkept⟩ := haside.kept i w hw
    exact ⟨w', hw', by rw [hkept.session]; exact .refl _⟩
  · rw [hacts.after]
    split
    next hi =>
      subst hi
      obtain rfl : v = w := Option.some.inj (hacts.before.symm.trans hw)
      exact ⟨v', rfl, hacts.move.same⟩
    next => exact ⟨w, hw, .refl _⟩

end System

/-- **Every history leads to a sound system.** -/
theorem History.sound {D H : Type} (events : List (Event D H)) : (of events).system.Sound := by
  induction events using List.reverseRecOn with
  | nil => exact System.sound_empty
  | append_singleton events e ih =>
    rw [of_concat]
    exact ih.apply e

/-- Whoever does not begin at the end has not done so before. -/
theorem History.FromStart.of_extend {D H : Type} {h : History} {group : String}
    (hsound : h.system.Sound) {e : Event D H} (hstart : (h.extend e).FromStart group) :
    h.FromStart group := by
  intro w hw hgroup
  obtain ⟨i, hi⟩ := List.mem_iff_getElem?.mp hw
  obtain ⟨w', hw', hsame⟩ := System.worker_apply hsound e hi
  rw [← hsame.startsAtEnd]
  exact hstart w' (List.mem_of_getElem? hw') (hsame.group.trans hgroup)

end StreamDispatch
