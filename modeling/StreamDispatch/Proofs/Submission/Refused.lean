import StreamDispatch.Proofs.Lifecycle.Names
import StreamDispatch.Proofs.Submission.Gate

/-!
# Registrations that are not taken

Submitting goes through several phases, and each of them can fail when others have already done
something: a listener has been cleared away, topics have been asked for, some of the sessions
have been created. None of that may be noticed by anybody else.

It is not. Clearing away a listener that is at its end touches no worker, asking for topics is
only counted, and a session that is created uses up a number and does nothing until it joins.
What is left is the list of the engine, and that depends on the phase: only a check of the
topics that does not pass is listed. Which phase it was can be told from the error, since no two
phases have an error in common (`StreamDispatch.Error.OfTopics`).

## Main statements

* `StreamDispatch.System.checkTopics_error`, `StreamDispatch.Engine.resolve_error`,
  `StreamDispatch.System.createSessions_error`: the errors of each phase.
* `StreamDispatch.History.refused_submit`: what is left of a registration that is not taken.
-/

namespace StreamDispatch

/-! ### The errors of each phase -/

/-- The errors of a check of topics: there are differences, or a topic cannot be described. -/
def Error.OfTopics (cause : Error) : Prop :=
  (∃ mismatches, cause = .topicMismatch mismatches) ∨ cause = .broker (.injected .describeTopic)

namespace Engine

variable {D H : Type} {e : Engine}

theorem loaded_error {kind : ConfigKind} {name : String} {cause : Error}
    (h : e.loaded kind name = .error cause) : ¬ cause.OfTopics := by
  rw [loaded] at h
  split at h <;> cases h
  rintro (⟨_, h⟩ | h) <;> cases h

theorem find_error {α : Type} {kind : ConfigKind} {entries : Dict String α} {name : String}
    {cause : Error} (h : Settings.find kind entries name = .error cause) : ¬ cause.OfTopics := by
  rw [Settings.find] at h
  split at h <;> cases h
  rintro (⟨_, h⟩ | h) <;> cases h

theorem checkRules_error {kind : ConfigKind} {broken : List Violation} {cause : Error}
    (h : checkRules kind broken = .error cause) : ¬ cause.OfTopics := by
  rw [checkRules.eq_def] at h
  split at h <;> cases h
  rintro (⟨_, h⟩ | h) <;> cases h

/-- Of two things in turn one has failed. -/
theorem bind_error {α β : Type} {x : Except Error α} {f : α → Except Error β} {cause : Error}
    (h : x >>= f = .error cause) (hx : ∀ error, x = .error error → ¬ error.OfTopics)
    (hf : ∀ a error, f a = .error error → ¬ error.OfTopics) : ¬ cause.OfTopics := by
  cases x with
  | error error =>
    cases h
    exact hx cause rfl
  | ok a => exact hf a cause h

/-- A configuration that is looked up can be missing, and so can the settings. -/
theorem resolveRef_error {α : Type} {kind : ConfigKind} {ref : ConfigRef α}
    {find : Settings → String → Except Error α} {cause : Error}
    (hfind : ∀ s name error, find s name = .error error → ¬ error.OfTopics)
    (h : (ref.resolve fun name => do find (← e.loaded kind name) name) = .error cause) :
    ¬ cause.OfTopics := by
  cases ref with
  | given config => cases h
  | named name => exact bind_error h (fun _ h => loaded_error h) fun s error h => hfind s name error h

/-- Configurations that cannot be resolved have nothing to do with the live topics. -/
theorem resolve_error {r : Registration D H} {cause : Error} (h : e.resolve r = .error cause) :
    ¬ cause.OfTopics := by
  refine bind_error h (fun error h => ?_) fun listener error h => ?_
  · exact resolveRef_error (fun _ _ _ h => find_error h) h
  refine bind_error h (fun error h => ?_) fun consumer error h => ?_
  · refine bind_error h (fun error h => ?_) fun c error h => ?_
    · refine resolveRef_error (fun s name error h => ?_) h
      rw [Settings.consumer] at h
      cases hfind : Settings.find .consumer s.consumers name with
      | error error =>
        rw [hfind] at h
        cases h
        exact find_error hfind
      | ok found =>
        rw [hfind] at h
        cases h
    · split at h <;> cases h
  refine bind_error h (fun error h => checkRules_error h) fun _ error h => ?_
  exact bind_error h (fun error h => checkRules_error h) fun _ error h => by cases h

end Engine

namespace System

variable {D H : Type}

theorem createSessions_error {config : ConsumerConfig} {count first : Nat} {b : Broker}
    {fault : BrokerFault} (h : (createSessions config count first b).1 = .error fault) :
    fault = .injected .createConsumer := by
  induction count generalizing first b with
  | zero => cases h
  | succ count ih =>
    rw [createSessions] at h
    split at h
    next fault' hcreate =>
      cases h
      rw [Session.create] at hcreate
      split at hcreate <;> cases hcreate
      rfl
    next s b' hcreate =>
      split at h
      next fault' b'' hrest =>
        cases h
        exact ih (congrArg Prod.fst hrest)
      next => cases h

theorem compareTopicsFrom_error {expected : List TopicExpectation} {check : Broker.TopicCheck}
    {b : Broker} {fault : BrokerFault}
    (h : (Broker.compareTopicsFrom check expected b).1 = .error fault) :
    fault = .injected .describeTopic := by
  induction expected generalizing check b with
  | nil => cases h
  | cons t rest ih =>
    rw [Broker.compareTopicsFrom] at h
    split at h
    next fault' b' hdescribe =>
      cases h
      rw [Broker.describe] at hdescribe
      split at hdescribe <;> cases hdescribe
      rfl
    next => exact ih h

theorem checkTopics_error {sys : System} {r : Registration D H} {cause : Error}
    (h : (sys.checkTopics r).1 = .error cause) : cause.OfTopics := by
  rw [checkTopics] at h
  split at h
  · cases h
  split at h
  next fault b hcompare =>
    cases h
    rw [Broker.compareTopics] at hcompare
    rw [compareTopicsFrom_error (congrArg Prod.fst hcompare)]
    exact .inr rfl
  next check b hcompare =>
    rw [Broker.TopicCheck.result] at h
    split at h <;> cases h
    exact .inl ⟨_, rfl⟩

/-! ### How a registration is refused -/

variable {sys : System}

/-- The check of the topics refuses a registration, whose configurations are resolved, for this
cause. -/
def RefusesTopics (sys : System) (e : Engine) (r : Registration D H) (cause : Error) : Prop :=
  (∃ configs, e.resolve r = .ok configs) ∧ (sys.checkTopics r).1 = .error cause

/-- What the check refuses can be told from the error. -/
theorem RefusesTopics.ofTopics {e : Engine} {r : Registration D H} {cause : Error}
    (h : sys.RefusesTopics e r cause) : cause.OfTopics := checkTopics_error h.2

/-- **How a registration is refused**, and what becomes of the system. -/
inductive Refuses (sys : System) (e : Engine) (r : Registration D H) :
    SubmitError → System → Prop
  /-- A listener of its name is not at its end. -/
  | duplicate {l : Listener} (found : e.find? r.name = some l)
      (active : (sys.stateOf l).isTerminal = false) : Refuses sys e r (.duplicate r.name) sys
  /-- It cannot be prepared, or sessions cannot be created: that is not listed. -/
  | untaken {cause : Error} {calls next : Nat} (frees : sys.Frees e r.name)
      (other : ¬ cause.OfTopics) :
      Refuses sys e r (.error cause)
        { sys with
          engine := some (e.without r.name)
          broker := { sys.broker with describeCalls := calls, nextMember := next } }
  /-- Its topics are refused: that is listed. -/
  | rejected {cause : Error} {calls : Nat} (frees : sys.Frees e r.name)
      (refused : sys.RefusesTopics e r cause) :
      Refuses sys e r (.error cause)
        (addListener { sys with broker := { sys.broker with describeCalls := calls } }
          (e.without r.name) ⟨r.name, some cause.message, 0, []⟩)

theorem kept_checkTopics {r : Registration D H} {answer : Except Error Unit} {b : Broker}
    (h : Collaborators.inMemory.checkTopics r sys.broker = (answer, b)) :
    (sys.checkTopics r).1 = answer ∧
      ∃ calls, b = { sys.broker with describeCalls := calls } := by
  obtain ⟨calls, hcalls⟩ := checkTopics_eq sys r
  rw [Collaborators.checkTopics_inMemory, h] at hcalls ⊢
  exact ⟨rfl, calls, congrArg System.broker hcalls⟩

theorem kept_createSessions {config : ConsumerConfig} {count : Nat} {b b' : Broker}
    {cause : Error}
    (h : Collaborators.inMemory.createSessions config count 0 b = (.error cause, b')) :
    cause = .broker (.injected .createConsumer) ∧ ∃ next, b' = { b with nextMember := next } := by
  obtain ⟨next, -, hbroker, -⟩ := createSessions_eq config count 0 b
  rw [Collaborators.createSessions_inMemory] at h
  obtain ⟨hanswer, rfl⟩ := Prod.mk.inj h
  refine ⟨?_, next, hbroker⟩
  cases hcreate : (createSessions config count 0 b).1 with
  | error fault =>
    rw [hcreate] at hanswer
    cases hanswer
    rw [createSessions_error hcreate]
  | ok sessions =>
    rw [hcreate] at hanswer
    cases hanswer

/-- **A registration is refused in one of these ways.** -/
theorem refuses (hs : ∀ w ∈ sys.workers, w.Settled) {e : Engine} (he : sys.engine = some e)
    {r : Registration D H} {error : SubmitError} (h : (sys.submit r).1 = some (.error error)) :
    sys.Refuses e r error (sys.submit r).2 := by
  rw [Collaborators.submit_eq hs] at h ⊢
  have hsubmits := Collaborators.inMemory.submits he r sys.broker
  generalize Collaborators.inMemory.submit sys r sys.broker = out at hsubmits h ⊢
  cases hsubmits with
  | duplicate found active =>
    cases h
    exact .duplicate found active
  | unresolved cleared unresolved =>
    cases h
    obtain ⟨hfrees, -, rfl⟩ := evict_ok hs he cleared
    exact .untaken hfrees (Engine.resolve_error unresolved)
  | rejected cleared resolved refused =>
    cases h
    obtain ⟨hfrees, -, rfl⟩ := evict_ok hs he cleared
    obtain ⟨hanswer, calls, rfl⟩ := kept_checkTopics refused
    exact .rejected hfrees ⟨⟨_, resolved⟩, hanswer⟩
  | uncreated cleared resolved passed refused =>
    cases h
    obtain ⟨hfrees, -, rfl⟩ := evict_ok hs he cleared
    obtain ⟨-, calls, rfl⟩ := kept_checkTopics passed
    obtain ⟨rfl, next, rfl⟩ := kept_createSessions refused
    refine .untaken hfrees ?_
    rintro (⟨_, h⟩ | h) <;> cases h
  | launched => cases h

end System

namespace History

variable {D H : Type}

/-- **What is left of a registration that is not taken.** Throughout every history, and whatever
the broker holds, if a registration is refused, then the system is as before but for the list of
the engine, how often topics were described and the number of the next session: no worker and no
session has changed, and neither has any topic, group or commit. A duplicate leaves all as it
was. Otherwise all listeners of its name are at their end, and they are cleared away; the others
stay as they are, in order. If the topics were refused, which is so exactly if the error is one
of theirs, then one listener of its name is added, failed, without workers, and with the text of
the error; else none is. -/
theorem refused_submit (events : List (Event D H)) (b : Broker) (r : Registration D H)
    (error : SubmitError) :
    let sys := { (of events).system with broker := b }
    (sys.submit r).1 = some (.error error) →
    ∃ e e' calls next, sys.engine = some e ∧
      (sys.submit r).2 =
        { sys with
          engine := some e'
          broker := { b with describeCalls := calls, nextMember := next } } ∧
      match error with
      | .duplicate name => name = r.name ∧ (sys.submit r).2 = sys
      | .error cause =>
        e'.settings = e.settings ∧
        (∀ l ∈ e.listeners, l.name = r.name → (sys.stateOf l).isTerminal = true) ∧
        (sys.RefusesTopics e r cause ↔ cause.OfTopics) ∧
        ((cause.OfTopics ∧ ∃ l, e'.listeners = e.listeners.filter (·.name ≠ r.name) ++ [l] ∧
            (sys.submit r).2.statusOf l = ⟨r.name, .failed, some cause.message, []⟩) ∨
          (¬ cause.OfTopics ∧ e'.listeners = e.listeners.filter (·.name ≠ r.name))) := by
  intro sys h
  cases he : sys.engine with
  | none =>
    rw [System.submit, he] at h
    cases h
  | some e =>
    have hlists : e.Lists sys.workers.length := listed events e he
    have hends : sys.Frees e r.name →
        ∀ l ∈ e.listeners, l.name = r.name → (sys.stateOf l).isTerminal = true := by
      intro hfrees l hl hname
      exact hfrees l (hname ▸ hlists.find?_of_mem hl)
    have hsettled : ∀ w ∈ sys.workers, w.Settled := (sound events).settled
    have hrefuses : sys.Refuses e r error (sys.submit r).2 := System.refuses hsettled he h
    generalize (sys.submit r).2 = sys' at hrefuses ⊢
    cases hrefuses with
    | duplicate found active => exact ⟨e, e, _, _, rfl, by rw [← he], rfl, rfl⟩
    | @untaken cause calls next hfrees hother =>
      refine ⟨e, e.without r.name, calls, next, rfl, rfl, rfl, hends hfrees, ?_, ?_⟩
      · exact ⟨fun hrefused => hrefused.ofTopics, fun hof => absurd hof hother⟩
      · exact .inr ⟨hother, hlists.listeners_without r.name⟩
    | @rejected cause calls hfrees hrefused =>
      refine ⟨e, { e.without r.name with
        listeners := (e.without r.name).listeners ++ [⟨r.name, some cause.message, 0, []⟩] },
        calls, _, rfl, rfl, rfl, hends hfrees, ?_, ?_⟩
      · exact ⟨fun _ => hrefused.ofTopics, fun _ => hrefused⟩
      · refine .inl ⟨hrefused.ofTopics, ⟨r.name, some cause.message, 0, []⟩, ?_, rfl⟩
        rw [← hlists.listeners_without r.name]

/-! ### A registration that has ended is refused -/

/-- When the first registration comes again and expects another topic, the entry of its end
makes room for that of its refusal. -/
theorem refused_submit_oneEnded :
    ((of oneEnded).system.submit Collaborators.strictReader).1 =
      some (.error (.error (.topicMismatch
        [.partitionCount "orders" 3 2, .missingTopic "payments"]))) ∧
    ∃ e e' l, (of oneEnded).system.engine = some e ∧
      ((of oneEnded).system.submit Collaborators.strictReader).2.engine = some e' ∧
      e.listeners.map (·.name) = ["first", "second"] ∧
      e'.listeners = e.listeners.filter (·.name ≠ "first") ++ [l] ∧
      ((of oneEnded).system.submit Collaborators.strictReader).2.statusOf l =
        ⟨"first", .failed,
          some (Error.message (.topicMismatch
            [.partitionCount "orders" 3 2, .missingTopic "payments"])), []⟩ := by
  have hrefused : ((of oneEnded).system.submit Collaborators.strictReader).1 =
      some (.error (.error (.topicMismatch
        [.partitionCount "orders" 3 2, .missingTopic "payments"]))) := rfl
  obtain ⟨e, e', calls, next, he, hafter, -, -, -, hlist⟩ :=
    refused_submit oneEnded (of oneEnded).system.broker Collaborators.strictReader _ hrefused
  have hnames : (of oneEnded).system.engine.map (fun e => e.listeners.map (·.name)) =
      some ["first", "second"] := by decide +kernel
  rw [he, Option.map_some, Option.some.injEq] at hnames
  rcases hlist with ⟨-, l, hl, hstatus⟩ | ⟨hother, -⟩
  · exact ⟨hrefused, e, e', l, he, by rw [hafter], hnames, hl, hstatus⟩
  · exact absurd (.inl ⟨_, rfl⟩) hother

end History

end StreamDispatch
