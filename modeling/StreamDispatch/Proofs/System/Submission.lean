import StreamDispatch.Proofs.Worker.Front
import StreamDispatch.Proofs.Worker.Settled

/-!
# What submitting a registration does

A registration is taken, or rejected because of its topics, or neither, and first of all a
listener of its name that is at its end is cleared away. All that can come of it is listed in
`StreamDispatch.System.Submits`, and whatever has to be known about submitting is read off it.

Clearing away a listener cuts off its workers, and that could be more than tidying up. But
only a listener at its end is cleared away, its workers have published final phases then, and
such a worker is over (`StreamDispatch.Worker.Settled.isOver`), so that there is nothing left
to cut off.

## Main statements

* `StreamDispatch.System.evict_ok`: clearing away a listener touches no worker.
* `StreamDispatch.System.createSessions_eq`: creating sessions uses up numbers and does
  nothing else.
* `StreamDispatch.System.submits`: submitting does one of the things that are listed.
-/

namespace StreamDispatch

namespace System

/-! ### One turn -/

theorem turn_eq {sys : System} {place : Nat} {w : Worker} (h : sys.workers[place]? = some w)
    (step : Turn → Turn) :
    sys.turn place step =
      { sys with
        workers := sys.workers.set place (step ⟨w, sys.broker, sys.samples⟩).worker
        broker := (step ⟨w, sys.broker, sys.samples⟩).broker
        samples := (step ⟨w, sys.broker, sys.samples⟩).samples } := by
  rw [turn, h]

theorem turn_of_none {sys : System} {place : Nat} (h : sys.workers[place]? = none)
    (step : Turn → Turn) : sys.turn place step = sys := by
  rw [turn, h]

/-- A turn changes one worker. -/
theorem workers_turn {sys : System} {place : Nat} {w : Worker}
    (h : sys.workers[place]? = some w) (step : Turn → Turn) (i : Nat) :
    (sys.turn place step).workers[i]? =
      if i = place then some (step ⟨w, sys.broker, sys.samples⟩).worker
      else sys.workers[i]? := by
  have hplace : place < sys.workers.length := (List.getElem?_eq_some_iff.mp h).1
  rw [turn_eq h]
  by_cases hi : i = place
  · subst hi
    rw [if_pos rfl, List.getElem?_set_self hplace]
  · rw [if_neg hi, List.getElem?_set_ne (Ne.symm hi)]

/-- A turn that leaves the session's number alone changes no numbers. -/
theorem members_turn {sys : System} {place : Nat} {w : Worker}
    (h : sys.workers[place]? = some w) {step : Turn → Turn}
    (hmember : (step ⟨w, sys.broker, sys.samples⟩).worker.session.member = w.session.member) :
    (sys.turn place step).workers.map (·.session.member) =
      sys.workers.map (·.session.member) := by
  refine List.ext_getElem? fun i => ?_
  rw [List.getElem?_map, List.getElem?_map, workers_turn h]
  split
  next hi =>
    rw [hi, h, Option.map_some, Option.map_some, hmember]
  next => rfl

end System

/-! ### Clearing away a listener -/

theorem LifecycleState.terminal_of_aggregate {states : List LifecycleState}
    (h : (LifecycleState.aggregate states).isTerminal = true) :
    ∀ s ∈ states, s.isTerminal = true := by
  intro s hs
  rw [aggregate] at h
  split at h
  · cases h
  · split at h
    · cases h
    next hall =>
      cases hterminal : s.isTerminal with
      | true => rfl
      | false => exact absurd (List.any_eq_true.mpr ⟨s, hs, by rw [hterminal]; rfl⟩) hall

/-- Of workers at their end together it only matters whether one of them has failed. -/
theorem LifecycleState.aggregate_of_terminal {states : List LifecycleState}
    (h : ∀ s ∈ states, s.isTerminal = true) :
    aggregate states = if states.contains .failed then .failed else .stopped := by
  have hdraining : states.contains .draining = false := by
    rw [Bool.eq_false_iff]
    intro hmem
    cases h _ (List.contains_iff_mem.mp hmem)
  have hrunning : states.any (fun s => !s.isTerminal) = false := by
    rw [List.any_eq_false]
    intro s hs
    rw [h s hs]
    decide
  rw [aggregate, hdraining, hrunning]
  rfl

theorem LifecycleState.aggregate_terminal {states : List LifecycleState}
    (h : ∀ s ∈ states, s.isTerminal = true) :
    (LifecycleState.aggregate states).isTerminal = true := by
  rw [aggregate_of_terminal h]
  split <;> rfl

/-- There is nothing left to cut off of a worker that has published a final phase. -/
theorem Turn.abort_of_terminal {t : Turn} (hs : t.worker.Settled)
    (hphase : t.worker.phase.isTerminal = true) : t.abort = t := by
  have hover := hs.isOver hphase
  have hjoin : t.join = t := by
    rw [join]
    split
    · rw [reportEnd, if_pos hphase]
    · rfl
  rw [abort]
  split
  next p hactivity =>
    -- A worker that is about to close is not over yet.
    rw [hactivity] at hover
    cases hover
  next => rw [if_pos hover, hjoin]

namespace System

variable {sys sys' : System}

theorem mem_workersOf {l : Listener} {w : Worker} :
    w ∈ sys.workersOf l ↔ ∃ place ∈ l.workers, sys.workers[place]? = some w := by
  rw [workersOf, List.mem_filterMap]

/-- The workers of a listener at its end have published final phases. -/
theorem terminal_of_stateOf {l : Listener} (h : (sys.stateOf l).isTerminal = true) :
    ∀ w ∈ sys.workersOf l, w.phase.isTerminal = true := by
  intro w hw
  have hstate : sys.stateOf l =
      .aggregate ((sys.workersOf l).map (·.phase.state)) := by
    rw [stateOf]
    split
    next hnone =>
      rw [hnone] at hw
      cases hw
    next => rfl
  rw [hstate] at h
  exact LifecycleState.terminal_of_aggregate h _ (List.mem_map_of_mem hw)

theorem turn_abort (hs : ∀ w ∈ sys.workers, w.Settled) {place : Nat}
    (hphase : ∀ w, sys.workers[place]? = some w → w.phase.isTerminal = true) :
    sys.turn place Turn.abort = sys := by
  cases hw : sys.workers[place]? with
  | none => exact turn_of_none hw _
  | some w =>
    have habort : (⟨w, sys.broker, sys.samples⟩ : Turn).abort = ⟨w, sys.broker, sys.samples⟩ :=
      Turn.abort_of_terminal (hs w (List.mem_of_getElem? hw)) (hphase w hw)
    rw [turn_eq hw, habort]
    have hset : sys.workers.set place w = sys.workers := by
      refine List.ext_getElem? fun i => ?_
      by_cases hi : place = i
      · subst hi
        rw [hw, List.getElem?_set_self (List.getElem?_eq_some_iff.mp hw).1]
      · rw [List.getElem?_set_ne hi]
    rw [hset]

theorem turns_abort (hs : ∀ w ∈ sys.workers, w.Settled) {places : List Nat}
    (hphase : ∀ place ∈ places, ∀ w, sys.workers[place]? = some w →
      w.phase.isTerminal = true) : sys.turns places Turn.abort = sys := by
  induction places with
  | nil => rfl
  | cons place rest ih =>
    have hhead := turn_abort hs (hphase place List.mem_cons_self)
    rw [turns, List.foldl_cons, hhead]
    exact ih fun p hp => hphase p (List.mem_cons_of_mem place hp)

end System

/-- The engine without its listener of a name, if it has one. -/
def Engine.without (e : Engine) (name : String) : Engine :=
  { e with listeners := e.listeners.eraseP (·.name == name) }

theorem Engine.without_of_none {e : Engine} {name : String} (h : e.find? name = none) :
    e.without name = e := by
  rw [Engine.find?, List.find?_eq_none] at h
  rw [without, List.eraseP_of_forall_not h]

namespace System

variable {sys sys' : System}

/-- A name may be taken: at most a listener at its end has it. -/
def Frees (sys : System) (e : Engine) (name : String) : Prop :=
  ∀ l, e.find? name = some l → (sys.stateOf l).isTerminal = true

/-- Only a listener that is not at its end cannot be cleared away. -/
theorem evict_error {e : Engine} {name : String} {error : SubmitError}
    (h : sys.evict e name = .error error) :
    error = .duplicate name ∧
      ∃ l, e.find? name = some l ∧ (sys.stateOf l).isTerminal = false := by
  rw [evict] at h
  split at h
  · cases h
  next l hfound =>
    split at h
    · cases h
    next hactive =>
      cases h
      exact ⟨rfl, l, hfound, Bool.eq_false_iff.mpr hactive⟩

/-- Clearing away a listener leaves the engine without it, and is possible only if the name may
be taken. -/
theorem evict_without {e e' : Engine} {name : String} (h : sys.evict e name = .ok (sys', e')) :
    sys.Frees e name ∧ e' = e.without name := by
  rw [evict] at h
  split at h
  next hnone =>
    cases h
    refine ⟨fun l hl => ?_, (Engine.without_of_none hnone).symm⟩
    rw [hnone] at hl
    cases hl
  next l hfound =>
    split at h
    next hterminal =>
      cases h
      refine ⟨fun l' hl' => ?_, rfl⟩
      obtain rfl : l = l' := Option.some.inj (hfound.symm.trans hl')
      exact hterminal
    next => cases h

/-- **Clearing away a listener touches no worker**: only the list of listeners changes. -/
theorem evict_ok (hs : ∀ w ∈ sys.workers, w.Settled) {e e' : Engine} (he : sys.engine = some e)
    {name : String} (h : sys.evict e name = .ok (sys', e')) :
    sys.Frees e name ∧ e' = e.without name ∧ sys' = { sys with engine := some e' } := by
  obtain ⟨hfrees, hwithout⟩ := evict_without h
  refine ⟨hfrees, hwithout, ?_⟩
  rw [evict] at h
  split at h
  next =>
    cases h
    rw [← he]
  next l hfound =>
    have hterminal := hfrees l hfound
    have hturns : sys.turns l.workers Turn.abort = sys := by
      refine turns_abort hs fun place hplace w hw => ?_
      exact terminal_of_stateOf hterminal w (mem_workersOf.mpr ⟨place, hplace, hw⟩)
    rw [if_pos hterminal, hturns] at h
    cases h
    rfl

/-! ### Topics and sessions -/

/-- Asking for topics changes nothing but how often that was done. -/
theorem describe_eq (b : Broker) (topic : String) :
    (b.describe topic).2 = { b with describeCalls := b.describeCalls + 1 } := by
  rw [Broker.describe]
  split <;> rfl

theorem compareTopicsFrom_eq (expected : List TopicExpectation) (check : Broker.TopicCheck)
    (b : Broker) :
    ∃ calls, (Broker.compareTopicsFrom check expected b).2 = { b with describeCalls := calls } := by
  induction expected generalizing check b with
  | nil => exact ⟨b.describeCalls, rfl⟩
  | cons t rest ih =>
    have hdescribe := describe_eq b t.topicName
    rw [Broker.compareTopicsFrom]
    split
    next fault b' heq =>
      rw [heq] at hdescribe
      exact ⟨_, hdescribe⟩
    next actual b' heq =>
      rw [heq] at hdescribe
      obtain rfl : b' = _ := hdescribe
      exact ih _ _

theorem checkTopics_eq {D H : Type} (sys : System) (r : Registration D H) :
    ∃ calls, (sys.checkTopics r).2 =
      { sys with broker := { sys.broker with describeCalls := calls } } := by
  rw [checkTopics]
  split
  · exact ⟨sys.broker.describeCalls, rfl⟩
  · obtain ⟨calls, hcalls⟩ := compareTopicsFrom_eq r.topics ⟨0, []⟩ sys.broker
    refine ⟨calls, ?_⟩
    split
    next fault b heq =>
      rw [Broker.compareTopics] at heq
      rw [heq] at hcalls
      obtain rfl : b = _ := hcalls
      rfl
    next check b heq =>
      rw [Broker.compareTopics] at heq
      rw [heq] at hcalls
      obtain rfl : b = _ := hcalls
      rfl

/-- A session that has not joined its group. -/
structure Unjoined (config : ConsumerConfig) (s : Session) : Prop where
  group : s.group = config.groupId
  autoCommit : s.autoCommit = config.commitStrategy.isAuto
  subscribed : s.subscribed = false
  assigned : s.assigned = []
  positions : s.positions = ∅
  stored : s.stored = ∅

theorem Unjoined.coherent {config : ConsumerConfig} {s : Session} (h : Unjoined config s)
    {plan : Plan} (hplan : plan.strategy = config.commitStrategy) :
    Coherent plan .outside s where
  tidy :=
    { positions := fun tp => by rw [h.assigned, h.positions]; exact ⟨nofun, nofun⟩
      stored := fun tp c hc => by rw [h.stored] at hc; cases hc }
  run := nofun
  only _ _ := rfl
  owed tp c hc := by
    rw [Standing.owes?, h.stored] at hc
    cases hc
  stores _ tp := by rw [h.stored]; rfl
  batches _ _ := rfl
  auto := by rw [h.autoCommit, hplan]
  subscribed := h.subscribed
  away _ := h.positions

/-- Creating sessions uses up numbers, and each session gets one of its own. -/
theorem createSessions_eq (config : ConsumerConfig) (count first : Nat) (b : Broker) :
    ∃ next, b.nextMember ≤ next ∧
      (createSessions config count first b).2 = { b with nextMember := next } ∧
      ∀ sessions, (createSessions config count first b).1 = .ok sessions →
        sessions.length = count ∧ (∀ s ∈ sessions, Unjoined config s) ∧
          sessions.map (·.member) = List.range' b.nextMember count ∧
          next = b.nextMember + count := by
  induction count generalizing first b with
  | zero =>
    refine ⟨b.nextMember, Nat.le_refl _, rfl, fun sessions h => ?_⟩
    cases h
    exact ⟨rfl, fun _ hs => absurd hs List.not_mem_nil, rfl, rfl⟩
  | succ count ih =>
    rw [createSessions]
    split
    next fault _ => exact ⟨b.nextMember, Nat.le_refl _, rfl, fun _ h => by cases h⟩
    next s b₁ hcreate =>
      rw [Session.create] at hcreate
      split at hcreate
      · cases hcreate
      · cases hcreate
        obtain ⟨next, hle, hbroker, hsessions⟩ :=
          ih (first + 1) { b with nextMember := b.nextMember + 1 }
        have hle : b.nextMember + 1 ≤ next := hle
        split
        next fault b₂ heq =>
          -- A later session is refused: the number that this one got is used up all the same.
          rw [heq] at hbroker
          exact ⟨next, by omega, hbroker, fun _ h => by cases h⟩
        next rest b₂ heq =>
          rw [heq] at hbroker hsessions
          refine ⟨next, by omega, hbroker, fun sessions h => ?_⟩
          cases h
          obtain ⟨hlength, hall, hnumbers, hnext⟩ := hsessions rest rfl
          refine ⟨by rw [List.length_cons, hlength], ?_, ?_, ?_⟩
          · intro s hs
            rcases List.mem_cons.mp hs with rfl | hs
            · exact ⟨rfl, rfl, rfl, rfl, rfl, rfl⟩
            · exact hall s hs
          · rw [List.map_cons, hnumbers, List.range'_succ]
          · rw [hnext]
            show b.nextMember + 1 + count = b.nextMember + (count + 1)
            omega

section Submit

variable {D H : Type} (r : Registration D H) (listener : ListenerConfig)
  (consumer : ConsumerConfig)

theorem mem_workersFor {sessions : List Session} {w : Worker}
    (h : w ∈ workersFor r listener consumer sessions) :
    ∃ id, ∃ s ∈ sessions,
      w = .ofPlan ⟨id, r.name, r.topicNames, listener, consumer.commitStrategy⟩ s := by
  obtain ⟨i, hi, rfl⟩ := List.mem_mapIdx.mp h
  exact ⟨i, _, List.getElem_mem hi, rfl⟩

theorem members_workersFor (sessions : List Session) :
    (workersFor r listener consumer sessions).map (·.session.member) =
      sessions.map (·.member) := by
  refine List.ext_getElem? fun i => ?_
  simp [workersFor, Worker.ofPlan, Option.map_map, Function.comp_def]

/-- A registration that obeys its rules has a worker. -/
theorem maxInstances_of_resolve {e : Engine} (h : e.resolve r = .ok (listener, consumer)) :
    1 ≤ listener.maxInstances := by
  rw [Engine.resolve] at h
  cases hlistener : e.resolveListener r.listener with
  | error err =>
    rw [hlistener] at h
    cases h
  | ok l =>
    cases hconsumer : e.resolveConsumer r.consumer with
    | error err =>
      rw [hlistener, hconsumer] at h
      cases h
    | ok c =>
      rw [hlistener, hconsumer] at h
      cases hrules : l.violations with
      | cons broken rest =>
        simp only [bind, Except.bind, hrules, Engine.checkRules] at h
        cases h
      | nil =>
        simp only [bind, Except.bind, hrules, Engine.checkRules] at h
        split at h
        · cases h
        · cases h
          exact (ListenerConfig.violations_eq_nil_iff.mp hrules).1

/-! ### Submitting -/

/-- The listener of a registration whose workers come after so many others. -/
def listenerFor (listener : ListenerConfig) (before count : Nat) : Listener :=
  ⟨r.name, none, listener.shutdownTimeoutMs, (List.range count).map (before + ·)⟩

/-- **What comes of submitting a registration**: the answer, and the system afterwards. -/
inductive Submits (sys : System) (e : Engine) (r : Registration D H) :
    Option (Except SubmitError Listener) × System → Prop
  /-- A listener of its name is not at its end. -/
  | duplicate {l : Listener} (found : e.find? r.name = some l)
      (active : (sys.stateOf l).isTerminal = false) :
      Submits sys e r (some (.error (.duplicate r.name)), sys)
  /-- Something else goes wrong, when numbers may be used up already: its name is free. -/
  | untaken {error : Error} {calls next : Nat} (frees : sys.Frees e r.name)
      (numbers : sys.broker.nextMember ≤ next) :
      Submits sys e r (some (.error (.error error)),
        { sys with
          engine := some (e.without r.name)
          broker := { sys.broker with describeCalls := calls, nextMember := next } })
  /-- Its topics are not as expected: that is listed, without workers. -/
  | rejected {error : Error} {calls : Nat} (frees : sys.Frees e r.name) :
      Submits sys e r (some (.error (.error error)),
        addListener { sys with broker := { sys.broker with describeCalls := calls } }
          (e.without r.name) ⟨r.name, some error.message, 0, []⟩)
  /-- It is taken: its sessions are created, and there is a worker for each of them. -/
  | launched {listener : ListenerConfig} {consumer : ConsumerConfig} {sessions : List Session}
      {calls : Nat} (frees : sys.Frees e r.name) (instances : 1 ≤ listener.maxInstances)
      (length : sessions.length = listener.maxInstances)
      (unjoined : ∀ s ∈ sessions, Unjoined consumer s)
      (numbers : sessions.map (·.member) =
        List.range' sys.broker.nextMember listener.maxInstances) :
      Submits sys e r
        (some (.ok (listenerFor r listener sys.workers.length sessions.length)),
          addListener
            { sys with
              broker :=
                { sys.broker with
                  describeCalls := calls
                  nextMember := sys.broker.nextMember + listener.maxInstances }
              workers := sys.workers ++ workersFor r listener consumer sessions }
            (e.without r.name) (listenerFor r listener sys.workers.length sessions.length))

/-- **Submitting does one of the things that are listed.** -/
theorem submits (hs : ∀ w ∈ sys.workers, w.Settled) {e : Engine} (he : sys.engine = some e) :
    Submits sys e r (sys.submit r) := by
  simp only [submit, he]
  split
  next error hevict =>
    obtain ⟨rfl, l, hfound, hactive⟩ := evict_error hevict
    exact .duplicate hfound hactive
  next sys₁ e₁ hevict =>
    obtain ⟨hfrees, rfl, rfl⟩ := evict_ok hs he hevict
    split
    next => exact .untaken hfrees (Nat.le_refl _)
    next listener consumer hresolve =>
      obtain ⟨calls, hcalls⟩ := checkTopics_eq { sys with engine := some (e.without r.name) } r
      split
      next error sys₂ heq =>
        rw [heq] at hcalls
        obtain rfl : sys₂ = _ := hcalls
        exact .rejected hfrees
      next sys₂ heq =>
        rw [heq] at hcalls
        obtain rfl : sys₂ = _ := hcalls
        obtain ⟨next, hle, hbroker, hsessions⟩ := createSessions_eq consumer
          listener.maxInstances 0 { sys.broker with describeCalls := calls }
        rw [launch]
        split
        next fault b heq =>
          rw [heq] at hbroker
          obtain rfl : b = _ := hbroker
          exact .untaken hfrees hle
        next sessions b heq =>
          rw [heq] at hbroker hsessions
          obtain rfl : b = _ := hbroker
          obtain ⟨hlength, hunjoined, hnumbers, rfl⟩ := hsessions sessions rfl
          exact .launched hfrees (maxInstances_of_resolve r _ _ hresolve) hlength hunjoined
            hnumbers

end Submit

end System

end StreamDispatch
