import StreamDispatch.Engine

/-!
# Submitting a registration

A registration is taken in this order, and the first thing that goes wrong ends it:

1. a listener of the same name has to be at its end, and is then removed;
2. the configurations are resolved, names against the settings, the consumer is completed
   with the shared properties, and both have to obey their rules;
3. if the registration says so, the live topics are compared with what is expected; if they
   differ, or cannot be asked for, that is kept as a listener without workers;
4. there is one session for each worker, and only when all of them exist the workers are
   started.

## Main definitions

* `Engine.resolve`: the configurations of a registration.
* `System.submit`.
-/

namespace StreamDispatch

namespace Engine

/-- The settings, which are needed to find a configuration by name. -/
def loaded (e : Engine) (kind : ConfigKind) (name : String) : Except Error Settings :=
  match e.settings with
  | some s => .ok s
  | none => .error (.misconfigured (.settingsMissing kind name))

/-- The listener's configuration. -/
def resolveListener (e : Engine) (ref : ConfigRef ListenerConfig) :
    Except Error ListenerConfig :=
  ref.resolve fun name => do (← e.loaded .listener name).listener name

/-- The consumer's configuration, with the shared properties and the brokers. -/
def resolveConsumer (e : Engine) (ref : ConfigRef ConsumerConfig) :
    Except Error ConsumerConfig := do
  let c ← ref.resolve fun name => do (← e.loaded .consumer name).consumer name
  match e.settings with
  | some s => .ok (s.applyConnection c)
  | none => .ok c

/-- A configuration obeys its rules. -/
def checkRules (kind : ConfigKind) : List Violation → Except Error Unit
  | [] => .ok ()
  | broken => .error (.invalidField kind.field (.violations broken))

/-- The configurations of a registration. -/
def resolve {D H : Type} (e : Engine) (r : Registration D H) :
    Except Error (ListenerConfig × ConsumerConfig) := do
  let listener ← e.resolveListener r.listener
  let consumer ← e.resolveConsumer r.consumer
  checkRules .listener listener.violations
  checkRules .consumer consumer.violations
  .ok (listener, consumer)

end Engine

/-- Sessions for workers number `first`, `first + 1` and so on. -/
def createSessions (config : ConsumerConfig) :
    (count first : Nat) → Broker → Except BrokerFault (List Session) × Broker
  | 0, _, b => (.ok [], b)
  | count + 1, first, b =>
    match Session.create b config (config.clientId first) with
    | .error fault => (.error fault, b)
    | .ok (s, b) =>
      match createSessions config count (first + 1) b with
      | (.error fault, b) => (.error fault, b)
      | (.ok sessions, b) => (.ok (s :: sessions), b)

/-- One worker for each session. -/
def workersFor {D H : Type} (r : Registration D H) (listener : ListenerConfig)
    (consumer : ConsumerConfig) (sessions : List Session) : List Worker :=
  sessions.mapIdx fun id s =>
    .ofPlan ⟨id, r.name, r.topicNames, listener, consumer.commitStrategy⟩ s

namespace System

/-- Removes the listener of a name if it is at its end; what is left of its workers is
cleared away. -/
def evict (sys : System) (e : Engine) (name : String) :
    Except SubmitError (System × Engine) :=
  match e.find? name with
  | none => .ok (sys, e)
  | some l =>
    if (sys.stateOf l).isTerminal then
      let e := { e with listeners := e.listeners.eraseP (·.name == name) }
      -- All workers of a listener at its end are over, and aborting them changes nothing.
      .ok ({ sys.turns l.workers Turn.abort with engine := some e }, e)
    else .error (.duplicate name)

/-- Compares the live topics with what a registration expects, if it says so. -/
def checkTopics {D H : Type} (sys : System) (r : Registration D H) :
    Except Error Unit × System :=
  if !r.checksTopics then (.ok (), sys)
  else
    match sys.broker.compareTopics r.topics with
    | (.error fault, b) => (.error (.broker fault), { sys with broker := b })
    | (.ok check, b) => (check.result, { sys with broker := b })

/-- Adds a listener. -/
def addListener (sys : System) (e : Engine) (l : Listener) : System :=
  { sys with engine := some { e with listeners := e.listeners ++ [l] } }

/-- Starts the workers of a registration whose configurations are resolved. -/
def launch {D H : Type} (sys : System) (e : Engine) (r : Registration D H)
    (listener : ListenerConfig) (consumer : ConsumerConfig) :
    Except SubmitError Listener × System :=
  match createSessions consumer listener.maxInstances 0 sys.broker with
  | (.error fault, b) => (.error (.error (.broker fault)), { sys with broker := b })
  | (.ok sessions, b) =>
    -- The new workers come after all that were ever started.
    let first := sys.workers.length
    let l : Listener :=
      ⟨r.name, none, listener.shutdownTimeoutMs,
        (List.range sessions.length).map (first + ·)⟩
    let sys := { sys with
      broker := b
      workers := sys.workers ++ workersFor r listener consumer sessions }
    (.ok l, sys.addListener e l)

/-- Takes a registration: the answer is its listener, or why it was not taken. Without an
engine nothing happens, and there is no answer. -/
def submit {D H : Type} (sys : System) (r : Registration D H) :
    Option (Except SubmitError Listener) × System :=
  match sys.engine with
  | none => (none, sys)
  | some e =>
    match sys.evict e r.name with
    | .error error => (some (.error error), sys)
    | .ok (sys, e) =>
      match e.resolve r with
      | .error error => (some (.error (.error error)), sys)
      | .ok (listener, consumer) =>
        match sys.checkTopics r with
        | (.error error, sys) =>
          -- The name is taken by the rejection until the registration is submitted again.
          (some (.error (.error error)),
            sys.addListener e ⟨r.name, some error.message, 0, []⟩)
        | (.ok _, sys) =>
          let (answer, sys) := sys.launch e r listener consumer
          (some answer, sys)

end System

end StreamDispatch
