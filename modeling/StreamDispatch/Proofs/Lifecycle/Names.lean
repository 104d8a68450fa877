import StreamDispatch.Proofs.Lifecycle.Ended

/-!
# Names of registrations

Whether a name may be taken is decided by the first listener of that name alone, and by the
phases that its workers have published. Listeners are added in two places, when a registration
is launched and when its topics are rejected, and in both of them another listener of the name
may have been cleared away before. If two listeners ever had one name, the second could be
running when the first is at its end, and its name would be given away.

They never have (`StreamDispatch.System.Listed`), and so the first listener is the only one.
What submitting may do to the list is written down once
(`StreamDispatch.System.Amends`): only listeners of its own name come and go, and one goes only
when all its workers have published final phases.

## Main statements

* `StreamDispatch.System.amends_submit`: what submitting does to the list.
* `StreamDispatch.LifecycleState.aggregate_eq_failed_iff`: when a listener at its end has failed.
* `StreamDispatch.History.names_unique`: names are distinct, exactly the names of active
  listeners are taken, and no active listener is touched by any registration.
-/

namespace StreamDispatch

/-- Workers at their end have failed together exactly if one of them has. -/
theorem LifecycleState.aggregate_eq_failed_iff {states : List LifecycleState}
    (h : ∀ s ∈ states, s.isTerminal = true) : aggregate states = .failed ↔ .failed ∈ states := by
  rw [aggregate_of_terminal h, ← List.contains_iff_mem]
  split <;> simp_all

namespace System

variable {D H : Type} {sys sys' : System}

/-! ### States of listeners -/

theorem stateOf_eq_aggregate {l : Listener} (h : sys.workersOf l ≠ []) :
    sys.stateOf l = .aggregate ((sys.workersOf l).map (·.phase.state)) := by
  rw [stateOf]
  split
  next hnil => exact absurd hnil h
  next => rfl

/-- **The state of a listener with workers is that of its workers together**: it is at its end
exactly if all of them are, and then it has failed exactly if one of them has. -/
theorem stateOf_of_workers {l : Listener} (h : sys.workersOf l ≠ []) :
    ((sys.stateOf l).isTerminal = true ↔
        ∀ w ∈ sys.workersOf l, w.phase.isTerminal = true) ∧
      ((sys.stateOf l).isTerminal = true →
        (sys.stateOf l = .failed ↔ ∃ w ∈ sys.workersOf l, w.phase.state = .failed)) := by
  have hstates : (sys.stateOf l).isTerminal = true →
      ∀ s ∈ (sys.workersOf l).map (·.phase.state), s.isTerminal = true := by
    rw [stateOf_eq_aggregate h]
    exact LifecycleState.terminal_of_aggregate
  refine ⟨⟨terminal_of_stateOf, fun hall => ?_⟩, fun hterminal => ?_⟩
  · rw [stateOf_eq_aggregate h]
    refine LifecycleState.aggregate_terminal fun s hs => ?_
    obtain ⟨w, hw, rfl⟩ := List.mem_map.mp hs
    exact hall w hw
  · have hfailed := LifecycleState.aggregate_eq_failed_iff (hstates hterminal)
    rw [stateOf_eq_aggregate h, hfailed, List.mem_map]

/-- A listener is active if one of its workers has not published a final phase. -/
def Active (sys : System) (l : Listener) : Prop :=
  ∃ w ∈ sys.workersOf l, w.phase.isTerminal = false

/-- A listener is active exactly if it is not at its end. -/
theorem Listed.active_iff (h : sys.Listed) {e : Engine} (he : sys.engine = some e)
    {l : Listener} (hl : l ∈ e.listeners) :
    sys.Active l ↔ (sys.stateOf l).isTerminal = false := by
  rw [← Bool.not_eq_true, h.terminal_iff he hl]
  constructor
  · rintro ⟨w, hw, hphase⟩ hall
    obtain ⟨place, hplace, hget⟩ := mem_workersOf.mp hw
    rw [hall place hplace w hget] at hphase
    cases hphase
  · intro hnot
    by_contra hinactive
    refine hnot fun place hplace w hget => ?_
    by_contra hphase
    exact hinactive ⟨w, mem_workersOf.mpr ⟨place, hplace, hget⟩, Bool.not_eq_true _ ▸ hphase⟩

/-! ### What submitting does to the list -/

/-- Workers that are added later belong to no listener before. -/
theorem workersOf_append {more : List Worker} (h : sys'.workers = sys.workers ++ more)
    {l : Listener} (hplaces : ∀ place ∈ l.workers, place < sys.workers.length) :
    sys'.workersOf l = sys.workersOf l := by
  refine List.filterMap_congr fun place hplace => ?_
  rw [h, List.getElem?_append_left (hplaces place hplace)]

/-- What is reported of a listener depends on its workers alone. -/
theorem statusOf_congr {l : Listener} (h : sys'.workersOf l = sys.workersOf l) :
    sys'.statusOf l = sys.statusOf l := by
  rw [statusOf, statusOf, stateOf, stateOf, h]

/-- **What submitting a registration of a name may do**: listeners of that name are cleared
away if they are at their end, listeners of that name and workers are added, and that is all. -/
structure Amends (sys : System) (e : Engine) (name : String) (sys' : System) (e' : Engine) :
    Prop where
  before : sys.engine = some e
  after : sys'.engine = some e'
  workers : ∃ more, sys'.workers = sys.workers ++ more
  listeners : e'.listeners = e.listeners ∨
    (sys.Frees e name ∧ ∃ added : List Listener,
      e'.listeners = (e.without name).listeners ++ added ∧ ∀ l ∈ added, l.name = name)

theorem amends_submit (hs : ∀ w ∈ sys.workers, w.Settled) {e : Engine} (he : sys.engine = some e)
    (r : Registration D H) : ∃ e', sys.Amends e r.name (sys.submit r).2 e' := by
  have hsubmits := submits r hs he
  generalize sys.submit r = result at hsubmits ⊢
  cases hsubmits with
  | duplicate => exact ⟨e, he, he, ⟨[], (List.append_nil _).symm⟩, .inl rfl⟩
  | untaken hfrees =>
    exact ⟨_, he, rfl, ⟨[], (List.append_nil _).symm⟩,
      .inr ⟨hfrees, [], (List.append_nil _).symm, fun _ hl => absurd hl List.not_mem_nil⟩⟩
  | rejected hfrees =>
    refine ⟨_, he, rfl, ⟨[], (List.append_nil _).symm⟩, .inr ⟨hfrees, [_], rfl, fun l hl => ?_⟩⟩
    rw [List.mem_singleton.mp hl]
  | launched hfrees =>
    refine ⟨_, he, rfl, ⟨_, rfl⟩, .inr ⟨hfrees, [_], rfl, fun l hl => ?_⟩⟩
    rw [List.mem_singleton.mp hl]
    rfl

namespace Amends

variable {e e' : Engine} {name : String}

/-- The listeners of other names stay, in order. -/
theorem others (h : sys.Amends e name sys' e') (hlisted : sys.Listed) :
    e'.listeners.filter (·.name ≠ name) = e.listeners.filter (·.name ≠ name) := by
  rcases h.listeners with hsame | ⟨-, added, hlisteners, hadded⟩
  · rw [hsame]
  · have hnone : added.filter (·.name ≠ name) = [] := by
      rw [List.filter_eq_nil_iff]
      intro l hl
      simpa using hadded l hl
    rw [hlisteners, (hlisted e h.before).listeners_without, List.filter_append, hnone,
      List.append_nil, List.filter_filter]
    simp

/-- A listener of another name, or an active one, stays as it is. -/
theorem stays (h : sys.Amends e name sys' e') (hlisted : sys.Listed) {l : Listener}
    (hl : l ∈ e.listeners) (hkeep : l.name ≠ name ∨ sys.Active l) :
    l ∈ e'.listeners ∧ sys'.workersOf l = sys.workersOf l := by
  obtain ⟨more, hworkers⟩ := h.workers
  refine ⟨?_, workersOf_append hworkers ((hlisted e h.before).places l hl)⟩
  rcases h.listeners with hsame | ⟨hfrees, added, hlisteners, -⟩
  · rwa [hsame]
  · have hname : l.name ≠ name := by
      rintro rfl
      have hactive := hkeep.resolve_left fun hne => hne rfl
      rw [hlisted.active_iff h.before hl,
        hfrees l ((hlisted e h.before).find?_of_mem hl)] at hactive
      cases hactive
    rw [hlisteners, (hlisted e h.before).listeners_without]
    exact List.mem_append_left _ (List.mem_filter.mpr ⟨hl, by simpa using hname⟩)

end Amends

end System

namespace History

variable {D H : Type}

/-- **Names are unique and active listeners are protected.** Throughout every history, the
listeners of the engine have distinct names. A registration is refused as a duplicate exactly if
a listener of its name is active. Whatever comes of submitting it, the listeners of other names
stay as they are, in order, and so does an active listener, with all its workers. And the state
of a listener with workers is at its end exactly if all of them are, and then failed exactly if
one of them has failed. -/
theorem names_unique (events : List (Event D H)) {e : Engine}
    (he : (of events).system.engine = some e) :
    (e.listeners.map (·.name)).Nodup ∧
    (∀ (r : Registration D H) (name : String),
      ((of events).system.submit r).1 = some (.error (.duplicate name)) ↔
        name = r.name ∧ ∃ l ∈ e.listeners, l.name = r.name ∧ (of events).system.Active l) ∧
    (∀ r : Registration D H, ∃ e', ((of events).system.submit r).2.engine = some e' ∧
      e'.listeners.filter (·.name ≠ r.name) = e.listeners.filter (·.name ≠ r.name) ∧
      ∀ l ∈ e.listeners, l.name ≠ r.name ∨ (of events).system.Active l →
        l ∈ e'.listeners ∧
        ((of events).system.submit r).2.workersOf l = (of events).system.workersOf l ∧
        ((of events).system.submit r).2.statusOf l = (of events).system.statusOf l) ∧
    ∀ l, (of events).system.workersOf l ≠ [] →
      (((of events).system.stateOf l).isTerminal = true ↔
        ∀ w ∈ (of events).system.workersOf l, w.phase.isTerminal = true) ∧
      (((of events).system.stateOf l).isTerminal = true →
        ((of events).system.stateOf l = .failed ↔
          ∃ w ∈ (of events).system.workersOf l, w.phase.state = .failed)) := by
  have hlisted := listed events
  have hsettled := (sound events).settled
  refine ⟨(hlisted e he).names, fun r name => ?_, fun r => ?_,
    fun l hl => System.stateOf_of_workers hl⟩
  · constructor
    · intro hduplicate
      have hsubmits := System.submits r hsettled he
      generalize (of events).system.submit r = result at hsubmits hduplicate
      cases hsubmits with
      | @duplicate l hfound hactive =>
        cases hduplicate
        have hmem := List.mem_of_find?_eq_some hfound
        refine ⟨rfl, l, hmem, ?_, (hlisted.active_iff he hmem).mpr hactive⟩
        simpa using List.find?_some hfound
      | untaken => cases hduplicate
      | rejected => cases hduplicate
      | launched => cases hduplicate
    · rintro ⟨rfl, l, hl, hname, hactive⟩
      rw [hlisted.duplicate_iff he hl r hname.symm]
      exact (hlisted.active_iff he hl).mp hactive
  · obtain ⟨e', hamends⟩ := System.amends_submit hsettled he r
    refine ⟨e', hamends.after, hamends.others hlisted, fun l hl hkeep => ?_⟩
    obtain ⟨hl', hworkers⟩ := hamends.stays hlisted hl hkeep
    exact ⟨hl', hworkers, System.statusOf_congr hworkers⟩

/-! ### One registration has ended, and another is active -/

/-- The first registration has ended, and a second one is running. -/
def oneEnded : List (Event Unit Unit) :=
  topicOnly ++ [.submit (orderReader "first")] ++ runsOnce ++
    [.submit (orderReader "second"), .work 1 .start]

/-- The name of the active registration is taken, and that of the other one is not. -/
theorem names_unique_oneEnded :
    ∃ e, (of oneEnded).system.engine = some e ∧
      e.listeners = [⟨"first", none, 30000, [0]⟩, ⟨"second", none, 30000, [1]⟩] ∧
      ((of oneEnded).system.submit (orderReader "second")).1 =
        some (.error (.duplicate "second")) ∧
      ((of oneEnded).system.submit (orderReader "first")).1 ≠
        some (.error (.duplicate "first")) ∧
      ∃ e', ((of oneEnded).system.submit (orderReader "first")).2.engine = some e' ∧
        ⟨"second", none, 30000, [1]⟩ ∈ e'.listeners := by
  have hlisteners : (of oneEnded).system.engine.map (·.listeners) =
      some [⟨"first", none, 30000, [0]⟩, ⟨"second", none, 30000, [1]⟩] := by decide +kernel
  have hactive : ∃ w ∈ (of oneEnded).system.workersOf ⟨"second", none, 30000, [1]⟩,
      w.phase.isTerminal = false := by decide +kernel
  have hended : ¬ ∃ w ∈ (of oneEnded).system.workersOf ⟨"first", none, 30000, [0]⟩,
      w.phase.isTerminal = false := by decide +kernel
  obtain ⟨e, he, hlist⟩ := Option.map_eq_some_iff.mp hlisteners
  obtain ⟨-, hduplicate, hkeep, -⟩ := names_unique oneEnded he
  rw [hlist] at hduplicate
  refine ⟨e, he, hlist, (hduplicate _ _).mpr ⟨rfl, _, by simp, rfl, hactive⟩, fun hfirst => ?_, ?_⟩
  · obtain ⟨-, l, hl, hname, hl'⟩ := (hduplicate _ _).mp hfirst
    simp only [List.mem_cons, List.not_mem_nil, or_false] at hl
    rcases hl with rfl | rfl
    · exact hended hl'
    · exact absurd hname (by decide)
  · obtain ⟨e', he', -, hstays⟩ := hkeep (orderReader "first")
    exact ⟨e', he', (hstays _ (by rw [hlist]; simp) (.inr hactive)).1⟩

end History

end StreamDispatch
