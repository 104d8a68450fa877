import StreamDispatch.Proofs.System.Submission

/-!
# Submitting with collaborators

When a registration is submitted, the engine talks to two others: one describes topics, and
one creates sessions. The engine does not know who they are. Each of them may keep what it
likes, may answer differently each time, and may refuse for any reason, and the broker is only
one example of such a pair (`StreamDispatch.Collaborators.inMemory`).

Here submitting is written down for any pair of collaborators
(`StreamDispatch.Collaborators.submit`), phase by phase as it is for the broker, and with the
broker for a collaborator it is what a system does. Two things are gained. What is said about
the questions that the engine asks can be said for whoever answers them. And there is one list
of all ways in which submitting can come out, with the phase that each of them ends in
(`StreamDispatch.Collaborators.Submits`), from which refusals are read off.

## Main definitions

* `StreamDispatch.Collaborators`, `StreamDispatch.Collaborators.submit`.

## Main statements

* `StreamDispatch.Collaborators.submit_eq`: submitting to a system is submitting with the
  broker for a collaborator.
* `StreamDispatch.Collaborators.submits`: submitting comes out in one of the ways on the list.
-/

namespace StreamDispatch

/-- Whoever describes topics and whoever creates sessions, with what they keep. -/
structure Collaborators (σ : Type) where
  describe : String → σ → Except Error (Option TopicDescription) × σ
  /-- A session for a consumer, under the name of a client. -/
  create : ConsumerConfig → String → σ → Except Error Session × σ

/-- What comes of submitting a registration: the answer, the system, and what the collaborators
keep. The system's own broker is not looked at. -/
structure Outcome (σ : Type) where
  answer : Option (Except SubmitError Listener)
  system : System
  kept : σ

namespace Collaborators

variable {σ D H : Type} (c : Collaborators σ)

/-! ### The phases -/

/-- Compares expectations with the described topics in turn, adding to what came out so far;
the first refusal ends it. -/
def compareFrom (check : Broker.TopicCheck) :
    List TopicExpectation → σ → Except Error Broker.TopicCheck × σ
  | [], s => (.ok check, s)
  | t :: rest, s =>
    match c.describe t.topicName s with
    | (.error error, s) => (.error error, s)
    | (.ok actual, s) =>
      compareFrom ⟨check.checked + 1, check.mismatches ++ t.compare actual⟩ rest s

/-- Compares the described topics with what a registration expects, if it says so. -/
def checkTopics (r : Registration D H) (s : σ) : Except Error Unit × σ :=
  if !r.checksTopics then (.ok (), s)
  else
    match c.compareFrom ⟨0, []⟩ r.topics s with
    | (.error error, s) => (.error error, s)
    | (.ok check, s) => (check.result, s)

/-- Sessions for workers number `first`, `first + 1` and so on. -/
def createSessions (config : ConsumerConfig) :
    (count first : Nat) → σ → Except Error (List Session) × σ
  | 0, _, s => (.ok [], s)
  | count + 1, first, s =>
    match c.create config (config.clientId first) s with
    | (.error error, s) => (.error error, s)
    | (.ok session, s) =>
      match createSessions config count (first + 1) s with
      | (.error error, s) => (.error error, s)
      | (.ok sessions, s) => (.ok (session :: sessions), s)

/-- Submits a registration. -/
def submit (sys : System) (r : Registration D H) (s : σ) : Outcome σ :=
  match sys.engine with
  | none => ⟨none, sys, s⟩
  | some e =>
    match sys.evict e r.name with
    | .error error => ⟨some (.error error), sys, s⟩
    | .ok (sys, e) =>
      match e.resolve r with
      | .error error => ⟨some (.error (.error error)), sys, s⟩
      | .ok (listener, consumer) =>
        match c.checkTopics r s with
        | (.error error, s) =>
          ⟨some (.error (.error error)),
            sys.addListener e ⟨r.name, some error.message, 0, []⟩, s⟩
        | (.ok _, s) =>
          match c.createSessions consumer listener.maxInstances 0 s with
          | (.error error, s) => ⟨some (.error (.error error)), sys, s⟩
          | (.ok sessions, s) =>
            let l := System.listenerFor r listener sys.workers.length sessions.length
            ⟨some (.ok l),
              { sys with workers := sys.workers ++ workersFor r listener consumer sessions
                }.addListener e l, s⟩

/-! ### The broker as a collaborator -/

/-- The broker describes topics and creates sessions. -/
def inMemory : Collaborators Broker where
  describe topic b := ((b.describe topic).1.mapError .broker, (b.describe topic).2)
  create config client b :=
    match Session.create b config client with
    | .error fault => (.error (.broker fault), b)
    | .ok (session, b) => (.ok session, b)

theorem compareFrom_inMemory (check : Broker.TopicCheck) (expected : List TopicExpectation)
    (b : Broker) :
    inMemory.compareFrom check expected b =
      ((Broker.compareTopicsFrom check expected b).1.mapError .broker,
        (Broker.compareTopicsFrom check expected b).2) := by
  induction expected generalizing check b with
  | nil => rfl
  | cons t rest ih =>
    rw [compareFrom, Broker.compareTopicsFrom]
    simp only [inMemory]
    cases hdescribe : b.describe t.topicName with
    | mk answer b' =>
      cases answer with
      | error fault => rfl
      | ok actual => exact ih _ _

theorem checkTopics_inMemory (sys : System) (r : Registration D H) :
    sys.checkTopics r =
      ((inMemory.checkTopics r sys.broker).1,
        { sys with broker := (inMemory.checkTopics r sys.broker).2 }) := by
  rw [System.checkTopics, checkTopics]
  split
  · rfl
  · rw [compareFrom_inMemory, Broker.compareTopics]
    cases Broker.compareTopicsFrom ⟨0, []⟩ r.topics sys.broker with
    | mk answer b => cases answer <;> rfl

theorem createSessions_inMemory (config : ConsumerConfig) (count first : Nat) (b : Broker) :
    inMemory.createSessions config count first b =
      ((StreamDispatch.createSessions config count first b).1.mapError .broker,
        (StreamDispatch.createSessions config count first b).2) := by
  induction count generalizing first b with
  | zero => rfl
  | succ count ih =>
    rw [createSessions, StreamDispatch.createSessions]
    simp only [inMemory]
    cases hcreate : Session.create b config (config.clientId first) with
    | error fault => rfl
    | ok created =>
      obtain ⟨session, b'⟩ := created
      have hrest := ih (first + 1) b'
      rw [inMemory] at hrest
      simp only [hrest]
      cases StreamDispatch.createSessions config count (first + 1) b' with
      | mk answer b'' => cases answer <;> rfl

/-- **Submitting to a system is submitting with the broker for a collaborator.** -/
theorem submit_eq {sys : System} (hs : ∀ w ∈ sys.workers, w.Settled) (r : Registration D H) :
    sys.submit r =
      ((inMemory.submit sys r sys.broker).answer,
        { (inMemory.submit sys r sys.broker).system with
          broker := (inMemory.submit sys r sys.broker).kept }) := by
  cases he : sys.engine with
  | none =>
    simp only [System.submit, submit, he]
    rw [← he]
  | some e =>
    simp only [System.submit, submit, he]
    cases hevict : sys.evict e r.name with
    | error error => rfl
    | ok cleared =>
      obtain ⟨sys', e'⟩ := cleared
      obtain ⟨-, -, hcleared⟩ := System.evict_ok hs he hevict
      have hbroker : sys'.broker = sys.broker := by rw [hcleared]
      simp only
      rw [← hbroker]
      cases e'.resolve r with
      | error error => rfl
      | ok configs =>
        obtain ⟨listener, consumer⟩ := configs
        simp only [checkTopics_inMemory, System.launch]
        cases inMemory.checkTopics r sys'.broker with
        | mk verdict b =>
          cases verdict with
          | error error => rfl
          | ok _ =>
            simp only [createSessions_inMemory]
            cases StreamDispatch.createSessions consumer listener.maxInstances 0 b with
            | mk answer b' => cases answer <;> rfl

/-! ### How submitting comes out -/

/-- **How submitting a registration comes out**, by the phase that ends it. -/
inductive Submits (sys : System) (e : Engine) (r : Registration D H) (s : σ) : Outcome σ → Prop
  /-- A listener of its name is not at its end. -/
  | duplicate {l : Listener} (found : e.find? r.name = some l)
      (active : (sys.stateOf l).isTerminal = false) :
      Submits sys e r s ⟨some (.error (.duplicate r.name)), sys, s⟩
  /-- Its configurations cannot be resolved. -/
  | unresolved {sys' : System} {cause : Error}
      (cleared : sys.evict e r.name = .ok (sys', e.without r.name))
      (unresolved : e.resolve r = .error cause) :
      Submits sys e r s ⟨some (.error (.error cause)), sys', s⟩
  /-- Its topics are not as expected, or cannot be asked for: that is listed. -/
  | rejected {sys' : System} {configs : ListenerConfig × ConsumerConfig} {cause : Error} {s' : σ}
      (cleared : sys.evict e r.name = .ok (sys', e.without r.name))
      (resolved : e.resolve r = .ok configs)
      (refused : c.checkTopics r s = (.error cause, s')) :
      Submits sys e r s
        ⟨some (.error (.error cause)),
          sys'.addListener (e.without r.name) ⟨r.name, some cause.message, 0, []⟩, s'⟩
  /-- A session cannot be created. -/
  | uncreated {sys' : System} {listener : ListenerConfig} {consumer : ConsumerConfig}
      {cause : Error} {s₁ s₂ : σ}
      (cleared : sys.evict e r.name = .ok (sys', e.without r.name))
      (resolved : e.resolve r = .ok (listener, consumer))
      (passed : c.checkTopics r s = (.ok (), s₁))
      (refused : c.createSessions consumer listener.maxInstances 0 s₁ = (.error cause, s₂)) :
      Submits sys e r s ⟨some (.error (.error cause)), sys', s₂⟩
  /-- It is taken. -/
  | launched {sys' : System} {listener : ListenerConfig} {consumer : ConsumerConfig}
      {sessions : List Session} {s₁ s₂ : σ}
      (cleared : sys.evict e r.name = .ok (sys', e.without r.name))
      (resolved : e.resolve r = .ok (listener, consumer))
      (passed : c.checkTopics r s = (.ok (), s₁))
      (created : c.createSessions consumer listener.maxInstances 0 s₁ = (.ok sessions, s₂)) :
      Submits sys e r s
        ⟨some (.ok (System.listenerFor r listener sys'.workers.length sessions.length)),
          { sys' with workers := sys'.workers ++ workersFor r listener consumer sessions
            }.addListener (e.without r.name)
              (System.listenerFor r listener sys'.workers.length sessions.length), s₂⟩

/-- **Submitting comes out in one of these ways.** -/
theorem submits {sys : System} {e : Engine} (he : sys.engine = some e) (r : Registration D H)
    (s : σ) : c.Submits sys e r s (c.submit sys r s) := by
  simp only [submit, he]
  split
  next error hevict =>
    obtain ⟨rfl, l, hfound, hactive⟩ := System.evict_error hevict
    exact .duplicate hfound hactive
  next sys' e' hevict =>
    obtain ⟨-, rfl⟩ := System.evict_without hevict
    split
    next cause hresolve => exact .unresolved hevict hresolve
    next listener consumer hresolve =>
      split
      next cause s' hcheck => exact .rejected hevict hresolve hcheck
      next s₁ hcheck =>
        split
        next cause s₂ hcreate => exact .uncreated hevict hresolve hcheck hcreate
        next sessions s₂ hcreate => exact .launched hevict hresolve hcheck hcreate

end Collaborators

end StreamDispatch
