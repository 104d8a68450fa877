import StreamDispatch.Proofs.System.Event

/-!
# What an engine lists

The listeners of an engine have distinct names, the workers of a listener exist, and only a
listener that was rejected has none (`StreamDispatch.System.Listed`). So a listener is found
by its name, and its state is that of its workers.

## Main statements

* `StreamDispatch.History.listed`: all this holds throughout every history.
* `StreamDispatch.System.Listed.terminal_iff`: a listener is at its end exactly when all its
  workers have published final phases.
* `StreamDispatch.System.Listed.duplicate_iff`: a registration is refused as a duplicate of
  a listener exactly when the listener is not at its end.
* `StreamDispatch.System.Listed.stays`: as long as the engine is not given up, a listener is
  listed until it is at its end.
-/

namespace StreamDispatch

/-- Whether an event is an act of the engine, or one upon it. -/
def Event.isEngines {D H : Type} : Event D H → Bool
  | .useSettings _ => true
  | .submit _ => true
  | .requestStop => true
  | .dropEngine => true
  | .renewEngine => true
  | _ => false

/-- Whether an event gives the engine up. -/
def Event.replacesEngine {D H : Type} : Event D H → Bool
  | .dropEngine => true
  | .renewEngine => true
  | _ => false

/-- What an engine lists: names are distinct, workers exist, and only a rejected listener has
none. -/
structure Engine.Lists (e : Engine) (workers : Nat) : Prop where
  names : (e.listeners.map (·.name)).Nodup
  places : ∀ l ∈ e.listeners, ∀ place ∈ l.workers, place < workers
  manned : ∀ l ∈ e.listeners, l.rejection = none → l.workers ≠ []

namespace Engine.Lists

variable {e : Engine} {workers workers' : Nat}

theorem of_listeners {e' : Engine} (h : e.Lists workers) (hlisteners : e'.listeners = e.listeners) :
    e'.Lists workers where
  names := by rw [hlisteners]; exact h.names
  places := by rw [hlisteners]; exact h.places
  manned := by rw [hlisteners]; exact h.manned

theorem of_nil (h : e.listeners = []) (workers : Nat) : e.Lists workers where
  names := by rw [h]; exact .nil
  places := by rw [h]; exact fun _ hl => absurd hl List.not_mem_nil
  manned := by rw [h]; exact fun _ hl => absurd hl List.not_mem_nil

theorem mono (h : e.Lists workers) (hle : workers ≤ workers') : e.Lists workers' where
  names := h.names
  places l hl place hplace := Nat.lt_of_lt_of_le (h.places l hl place hplace) hle
  manned := h.manned

theorem find?_of_mem (h : e.Lists workers) {l : Listener} (hl : l ∈ e.listeners) :
    e.find? l.name = some l := by
  have hnames := h.names
  rw [find?]
  generalize e.listeners = listeners at hl hnames
  induction listeners with
  | nil => cases hl
  | cons head rest ih =>
    rw [List.map_cons, List.nodup_cons] at hnames
    rcases List.mem_cons.mp hl with rfl | hl
    · rw [List.find?_cons_of_pos (by simp)]
    · have hne : head.name ≠ l.name := by
        intro heq
        exact hnames.1 (heq ▸ List.mem_map_of_mem hl)
      rw [List.find?_cons_of_neg (by simpa using hne)]
      exact ih hl hnames.2

/-- Without its first listener of a name, an engine lists no listener of that name. -/
theorem erase (h : e.Lists workers) (name : String) :
    (e.without name).Lists workers ∧ name ∉ (e.without name).listeners.map (·.name) := by
  have hsub : (e.listeners.eraseP (·.name == name)).Sublist e.listeners := List.eraseP_sublist
  refine ⟨⟨(hsub.map _).nodup h.names, fun l hl => h.places l (hsub.subset hl),
    fun l hl => h.manned l (hsub.subset hl)⟩, ?_⟩
  show name ∉ (e.listeners.eraseP (·.name == name)).map (·.name)
  have hnames := h.names
  generalize e.listeners = listeners at hnames
  induction listeners with
  | nil => exact List.not_mem_nil
  | cons head rest ih =>
    rw [List.map_cons, List.nodup_cons] at hnames
    by_cases hhead : head.name = name
    · rw [List.eraseP_cons_of_pos (by simpa using hhead), ← hhead]
      exact hnames.1
    · rw [List.eraseP_cons_of_neg (by simpa using hhead), List.map_cons, List.mem_cons]
      rintro (heq | hmem)
      · exact hhead heq.symm
      · exact ih hnames.2 hmem

/-- Clearing away the first listener of a name clears away all of them. -/
theorem listeners_without (h : e.Lists workers) (name : String) :
    (e.without name).listeners = e.listeners.filter (·.name ≠ name) := by
  show e.listeners.eraseP (·.name == name) = _
  have hnames := h.names
  generalize e.listeners = listeners at hnames
  induction listeners with
  | nil => rfl
  | cons head rest ih =>
    rw [List.map_cons, List.nodup_cons] at hnames
    by_cases hhead : head.name = name
    · have hrest : ∀ l ∈ rest, decide (l.name ≠ name) = true := fun l hl =>
        decide_eq_true fun hl' => hnames.1 (hhead.trans hl'.symm ▸ List.mem_map_of_mem hl)
      rw [List.eraseP_cons_of_pos (by simpa using hhead),
        List.filter_cons_of_neg (by simpa using hhead), List.filter_eq_self.mpr hrest]
    · rw [List.eraseP_cons_of_neg (by simpa using hhead),
        List.filter_cons_of_pos (by simpa using hhead), ih hnames.2]

/-- A listener of a new name may be added if its workers exist. -/
theorem add (h : e.Lists workers) {l : Listener} (hname : l.name ∉ e.listeners.map (·.name))
    (hplaces : ∀ place ∈ l.workers, place < workers)
    (hmanned : l.rejection = none → l.workers ≠ []) :
    ({ e with listeners := e.listeners ++ [l] } : Engine).Lists workers where
  names := by
    rw [List.map_append, List.nodup_append]
    refine ⟨h.names, List.nodup_cons.mpr ⟨List.not_mem_nil, .nil⟩, ?_⟩
    rintro name hmem name' hmem' rfl
    rw [List.mem_singleton.mp hmem'] at hmem
    exact hname hmem
  places l' hl' := by
    rcases List.mem_append.mp hl' with hl' | hl'
    · exact h.places l' hl'
    · rw [List.mem_singleton.mp hl']
      exact hplaces
  manned l' hl' := by
    rcases List.mem_append.mp hl' with hl' | hl'
    · exact h.manned l' hl'
    · rw [List.mem_singleton.mp hl']
      exact hmanned

end Engine.Lists

namespace System

/-- The engine of a system, if there is one, lists what it should. -/
def Listed (sys : System) : Prop :=
  ∀ e, sys.engine = some e → e.Lists sys.workers.length

variable {sys : System}

theorem listed_empty : Listed .empty := by
  intro e he
  cases he
  exact .of_nil rfl 0

/-! ### How the list changes -/

theorem engine_turn (sys : System) (place : Nat) (step : Turn → Turn) :
    (sys.turn place step).engine = sys.engine ∧
      (sys.turn place step).workers.length = sys.workers.length := by
  rw [turn]
  split
  · exact ⟨rfl, rfl⟩
  · exact ⟨rfl, List.length_set⟩

theorem engine_turns (sys : System) (places : List Nat) (step : Turn → Turn) :
    (sys.turns places step).engine = sys.engine ∧
      (sys.turns places step).workers.length = sys.workers.length := by
  induction places generalizing sys with
  | nil => exact ⟨rfl, rfl⟩
  | cons place rest ih =>
    obtain ⟨hengine, hlength⟩ := engine_turn sys place step
    obtain ⟨hengine', hlength'⟩ := ih (sys.turn place step)
    exact ⟨hengine'.trans hengine, hlength'.trans hlength⟩

theorem engine_requestStop (sys : System) :
    sys.requestStop.engine = sys.engine ∧
      sys.requestStop.workers.length = sys.workers.length := by
  rw [requestStop]
  split
  · exact engine_turns _ _ _
  · exact ⟨rfl, rfl⟩

/-- An event that is not the engine's leaves the engine alone, and adds no workers. -/
theorem engine_apply {D H : Type} (sys : System) {ev : Event D H} (hev : ev.isEngines = false) :
    (sys.apply ev).engine = sys.engine ∧
      (sys.apply ev).workers.length = sys.workers.length := by
  cases ev with
  | produce tp record =>
    rw [System.apply]
    split <;> exact ⟨rfl, rfl⟩
  | work place ev => exact engine_turn _ _ _
  | useSettings _ => cases hev
  | submit _ => cases hev
  | requestStop => cases hev
  | dropEngine => cases hev
  | renewEngine => cases hev
  | _ => exact ⟨rfl, rfl⟩

/-- **What an event does to the list of the engine**, and which workers it adds. -/
inductive Relists {D H : Type} (sys : System) (ev : Event D H) : Prop
  /-- There is no engine, or it is given up: if there is one now, it is new. -/
  | renewed (fresh : ∀ e', (sys.apply ev).engine = some e' → e'.listeners = [])
      (cause : sys.engine = none ∨ ev.replacesEngine = true)
  | same {e e' : Engine} (before : sys.engine = some e) (after : (sys.apply ev).engine = some e')
      (listeners : e'.listeners = e.listeners)
      (workers : (sys.apply ev).workers.length = sys.workers.length)
  /-- A listener at its end is cleared away. -/
  | cleared {e : Engine} {name : String} (before : sys.engine = some e)
      (frees : sys.Frees e name) (after : (sys.apply ev).engine = some (e.without name))
      (workers : (sys.apply ev).workers.length = sys.workers.length)
  /-- A registration is listed, after a listener of its name is cleared away. -/
  | listed {e e' : Engine} {r : Registration D H} {l : Listener} (event : ev = .submit r)
      (before : sys.engine = some e) (frees : sys.Frees e r.name)
      (after : (sys.apply ev).engine = some e')
      (listeners : e'.listeners = (e.without r.name).listeners ++ [l]) (name : l.name = r.name)
      (manned : l.rejection = none → l.workers ≠ [])
      (more : sys.workers.length ≤ (sys.apply ev).workers.length)
      (workers : ∀ place, place ∈ l.workers ↔
        sys.workers.length ≤ place ∧ place < (sys.apply ev).workers.length)

/-- The workers of a new listener come after all that were there before. -/
theorem mem_listenerFor {D H : Type} (r : Registration D H) (listener : ListenerConfig)
    (before count place : Nat) :
    place ∈ (listenerFor r listener before count).workers ↔
      before ≤ place ∧ place < before + count := by
  show place ∈ (List.range count).map (before + ·) ↔ _
  rw [List.mem_map]
  constructor
  · rintro ⟨i, hi, rfl⟩
    have := List.mem_range.mp hi
    omega
  · rintro ⟨hle, hlt⟩
    exact ⟨place - before, List.mem_range.mpr (by omega), by omega⟩

theorem relists_submit {D H : Type} (hs : ∀ w ∈ sys.workers, w.Settled) (r : Registration D H) :
    sys.Relists (.submit r) := by
  cases he : sys.engine with
  | none =>
    refine .renewed (fun e' he' => ?_) (.inl he)
    rw [System.apply, System.submit, he] at he'
    cases he'.symm.trans he
  | some e =>
    have hsubmits := submits r hs he
    obtain ⟨result, hresult⟩ : ∃ result, sys.submit r = result := ⟨_, rfl⟩
    have hafter : sys.apply (.submit r) = result.2 := by rw [System.apply, hresult]
    rw [hresult] at hsubmits
    cases hsubmits with
    | duplicate _ _ => exact .same he (by rw [hafter, he]) rfl (by rw [hafter])
    | untaken hfrees _ => exact .cleared he hfrees (by rw [hafter]) (by rw [hafter])
    | @rejected error _ hfrees =>
      refine .listed rfl he hfrees (by rw [hafter]; rfl) rfl rfl (fun h => by cases h)
        (by rw [hafter]; exact Nat.le_refl _) fun place => ?_
      rw [hafter]
      show place ∈ [] ↔ sys.workers.length ≤ place ∧ place < sys.workers.length
      exact ⟨fun h => absurd h List.not_mem_nil, fun h => absurd h.2 (Nat.not_lt.mpr h.1)⟩
    | @launched listener consumer sessions _ hfrees hinstances hlength _ _ =>
      have hcount : (sys.apply (.submit r)).workers.length =
          sys.workers.length + sessions.length := by
        rw [hafter]
        show (sys.workers ++ workersFor r listener consumer sessions).length = _
        rw [List.length_append, workersFor, List.length_mapIdx]
      refine .listed rfl he hfrees (by rw [hafter]; rfl) rfl rfl (fun _ => ?_) (by omega)
        fun place => by rw [hcount, mem_listenerFor]
      -- There is at least one session, and a worker for each.
      have hfirst : sys.workers.length ∈
          (listenerFor r listener sys.workers.length sessions.length).workers := by
        rw [mem_listenerFor]
        omega
      exact List.ne_nil_of_mem hfirst

theorem relists {D H : Type} (hs : ∀ w ∈ sys.workers, w.Settled) (ev : Event D H) :
    sys.Relists ev := by
  have hsame : (sys.apply ev).engine = sys.engine ∧
      (sys.apply ev).workers.length = sys.workers.length → sys.Relists ev := by
    rintro ⟨hengine, hlength⟩
    cases he : sys.engine with
    | none =>
      refine .renewed (fun e' he' => ?_) (.inl he)
      cases (he'.symm.trans hengine).trans he
    | some e => exact .same he (hengine.trans he) rfl hlength
  cases hev : ev.isEngines with
  | false => exact hsame (sys.engine_apply hev)
  | true =>
    cases ev with
    | useSettings settings =>
      cases he : sys.engine with
      | none =>
        refine .renewed (fun e' he' => ?_) (.inl he)
        rw [System.apply, he] at he'
        cases he'
      | some e =>
        have hafter : (sys.apply (.useSettings settings : Event D H)).engine =
            some { e with settings := some settings } := by
          rw [System.apply, he]
          rfl
        exact .same he hafter rfl rfl
    | submit r => exact relists_submit hs r
    | requestStop => exact hsame sys.engine_requestStop
    | dropEngine =>
      refine .renewed (fun e' he' => ?_) (.inr rfl)
      rw [System.apply, dropEngine] at he'
      split at he'
      next => cases he'
      next hnone => cases he'.symm.trans hnone
    | renewEngine =>
      refine .renewed (fun e' he' => ?_) (.inr rfl)
      cases he'
      rfl
    | _ => cases hev

/-- One more event keeps the engine's list in order: the name of a registration is free when
it is listed. -/
theorem Listed.apply {D H : Type} (h : sys.Listed) (hs : ∀ w ∈ sys.workers, w.Settled)
    (ev : Event D H) : (sys.apply ev).Listed := by
  intro e' he'
  cases relists hs ev with
  | renewed hfresh _ => exact .of_nil (hfresh e' he') _
  | @same e _ hbefore hafter hlisteners hworkers =>
    obtain rfl := Option.some.inj (hafter.symm.trans he')
    rw [hworkers]
    exact (h e hbefore).of_listeners hlisteners
  | @cleared e name hbefore _ hafter hworkers =>
    obtain rfl := Option.some.inj (hafter.symm.trans he')
    rw [hworkers]
    exact ((h e hbefore).erase name).1
  | @listed e _ r l _ hbefore _ hafter hlisteners hname hmanned hmore hworkers =>
    obtain rfl := Option.some.inj (hafter.symm.trans he')
    obtain ⟨hlists, hfree⟩ := (h e hbefore).erase r.name
    have hadd := (hlists.mono hmore).add (by rw [hname]; exact hfree)
      (fun place hplace => ((hworkers place).mp hplace).2) hmanned
    exact hadd.of_listeners hlisteners

/-! ### States of listeners -/

theorem workers_eq_nil {l : Listener} (hplaces : ∀ place ∈ l.workers, place < sys.workers.length)
    (hnil : sys.workersOf l = []) : l.workers = [] := by
  rw [workersOf, List.filterMap_eq_nil_iff] at hnil
  refine List.eq_nil_iff_forall_not_mem.mpr fun place hplace => ?_
  have hnone := hnil place hplace
  rw [List.getElem?_eq_none_iff] at hnone
  have := hplaces place hplace
  omega

/-- **The state of a listener is that of its workers**: it is at its end exactly when all of
them have published final phases. -/
theorem Listed.terminal_iff (h : sys.Listed) {e : Engine} (he : sys.engine = some e)
    {l : Listener} (hl : l ∈ e.listeners) :
    (sys.stateOf l).isTerminal = true ↔
      ∀ place ∈ l.workers, ∀ w, sys.workers[place]? = some w → w.phase.isTerminal = true := by
  constructor
  · intro hterminal place hplace w hw
    exact terminal_of_stateOf hterminal w (mem_workersOf.mpr ⟨place, hplace, hw⟩)
  · intro hall
    rw [stateOf]
    split
    next hnil =>
      -- Only a rejected listener is without workers, and its state is final.
      have hrejected : l.rejection ≠ none := fun hnone =>
        (h e he).manned l hl hnone (workers_eq_nil ((h e he).places l hl) hnil)
      rw [Option.ne_none_iff_isSome.mp hrejected]
      rfl
    next =>
      refine LifecycleState.aggregate_terminal fun s hs => ?_
      obtain ⟨w, hw, rfl⟩ := List.mem_map.mp hs
      obtain ⟨place, hplace, hget⟩ := mem_workersOf.mp hw
      exact hall place hplace w hget

/-- **A registration is refused as a duplicate of a listener exactly when the listener is not
at its end.** -/
theorem Listed.duplicate_iff {D H : Type} (h : sys.Listed) {e : Engine}
    (he : sys.engine = some e) {l : Listener} (hl : l ∈ e.listeners) (r : Registration D H)
    (hname : r.name = l.name) :
    (sys.submit r).1 = some (.error (.duplicate r.name)) ↔ (sys.stateOf l).isTerminal = false := by
  have hfound : e.find? r.name = some l := by rw [hname, (h e he).find?_of_mem hl]
  rw [System.submit, he]
  simp only [System.evict, hfound]
  cases hterminal : (sys.stateOf l).isTerminal with
  | false => simp
  | true =>
    simp only [if_true, Bool.true_eq_false, iff_false]
    -- Whatever goes wrong after the name is free is another error.
    split
    next => simp
    next =>
      split
      next => simp
      next =>
        rw [System.launch]
        split <;> simp

/-! ### Listeners that stay -/

/-- All workers of a listener have published final phases. -/
def Over (sys : System) (l : Listener) : Prop :=
  ∀ place ∈ l.workers, ∃ w, sys.workers[place]? = some w ∧ w.phase.isTerminal = true

/-- A listener at its end has workers that are over. -/
theorem Listed.over (h : sys.Listed) {e : Engine} (he : sys.engine = some e) {l : Listener}
    (hl : l ∈ e.listeners) (hterminal : (sys.stateOf l).isTerminal = true) : sys.Over l := by
  intro place hplace
  have hlt := (h e he).places l hl place hplace
  refine ⟨sys.workers[place], List.getElem?_eq_getElem hlt, ?_⟩
  exact (h.terminal_iff he hl).mp hterminal place hplace _ (List.getElem?_eq_getElem hlt)

/-- A listener whose name is free is not listed any more, or it is at its end. -/
theorem Listed.without_or_over (h : sys.Listed) {e : Engine} (he : sys.engine = some e)
    {name : String} (hfrees : sys.Frees e name) {l : Listener} (hl : l ∈ e.listeners) :
    l ∈ (e.without name).listeners ∨ sys.Over l := by
  by_cases hname : l.name = name
  · subst hname
    have hterminal := hfrees l ((h e he).find?_of_mem hl)
    exact .inr (h.over he hl hterminal)
  · refine .inl ?_
    show l ∈ e.listeners.eraseP (·.name == name)
    rw [List.mem_eraseP_of_neg (by simpa using hname)]
    exact hl

/-- **As long as the engine is not given up, a listener is listed until it is at its end.** -/
theorem Listed.stays {D H : Type} (h : sys.Listed) (hs : ∀ w ∈ sys.workers, w.Settled)
    {ev : Event D H} (hev : ev.replacesEngine = false) {e : Engine} (he : sys.engine = some e) :
    ∃ e', (sys.apply ev).engine = some e' ∧
      ∀ l ∈ e.listeners, l ∈ e'.listeners ∨ sys.Over l := by
  cases relists hs ev with
  | renewed _ hcause =>
    rcases hcause with hnone | hreplaces
    · cases hnone.symm.trans he
    · cases hreplaces.symm.trans hev
  | same hbefore hafter hlisteners _ =>
    obtain rfl := Option.some.inj (hbefore.symm.trans he)
    exact ⟨_, hafter, fun l hl => .inl (by rwa [hlisteners])⟩
  | cleared hbefore hfrees hafter _ =>
    obtain rfl := Option.some.inj (hbefore.symm.trans he)
    exact ⟨_, hafter, fun l hl => h.without_or_over he hfrees hl⟩
  | listed _ hbefore hfrees hafter hlisteners _ _ _ _ =>
    obtain rfl := Option.some.inj (hbefore.symm.trans he)
    refine ⟨_, hafter, fun l hl => ?_⟩
    rw [hlisteners]
    rcases h.without_or_over he hfrees hl with hl | hover
    · exact .inl (List.mem_append_left _ hl)
    · exact .inr hover

/-- As long as the engine is not given up, new workers belong to a listener. -/
theorem listed_of_new {D H : Type} (hs : ∀ w ∈ sys.workers, w.Settled) {ev : Event D H}
    (hev : ev.replacesEngine = false) {e e' : Engine} (he : sys.engine = some e)
    (he' : (sys.apply ev).engine = some e') {place : Nat} (hnew : sys.workers.length ≤ place)
    (hplace : place < (sys.apply ev).workers.length) : ∃ l ∈ e'.listeners, place ∈ l.workers := by
  cases relists hs ev with
  | renewed _ hcause =>
    rcases hcause with hnone | hreplaces
    · cases hnone.symm.trans he
    · cases hreplaces.symm.trans hev
  | same _ _ _ hworkers => omega
  | cleared _ _ _ hworkers => omega
  | listed _ _ _ hafter hlisteners _ _ _ hworkers =>
    obtain rfl := Option.some.inj (hafter.symm.trans he')
    refine ⟨_, ?_, (hworkers place).mpr ⟨hnew, hplace⟩⟩
    rw [hlisteners]
    exact List.mem_append_right _ (List.mem_singleton.mpr rfl)

end System

/-- What engines list is in order throughout every history. -/
theorem History.listed {D H : Type} (events : List (Event D H)) : (of events).system.Listed := by
  induction events using List.reverseRecOn with
  | nil => exact System.listed_empty
  | append_singleton events e ih =>
    rw [of_concat]
    exact ih.apply (sound events).settled e

end StreamDispatch
