import StreamDispatch.Broker.Session

/-!
# Sessions by hand

A `Stand` is a broker with labelled sessions and a clock, worked by hand, one request after
the other. Time moves only while a poll waits. What happens meanwhile is given as a list
of actions, each after a delay, and they are all carried out, also those that come after
the poll has returned.

## Main definitions

* `Stand`, `Stand.openSession`, `Stand.close`, `Stand.drop`.
* `Stand.poll`, `PollReport`.
-/

namespace StreamDispatch

/-- A broker with labelled sessions and a clock. -/
structure Stand where
  now : Nat
  broker : Broker
  sessions : Dict String Session

namespace Stand

/-- A broker without topics, and no sessions. -/
def empty : Stand := ⟨0, .empty, ∅⟩

/-- Drops a session, which leaves its group; also whether it was there. -/
def drop (st : Stand) (label : String) : Bool × Stand :=
  match st.sessions.get? label with
  | none => (false, st)
  | some s =>
    (true,
      { st with broker := (s.leave st.broker).2, sessions := st.sessions.erase label })

/-- Opens a session under a label, and drops the one that was there before. -/
def openSession (st : Stand) (label client : String) (config : ConsumerConfig) :
    Except BrokerFault Session × Stand :=
  match Session.create st.broker config client with
  | .error fault => (.error fault, st)
  | .ok (s, b) =>
    let st := ({ st with broker := b }.drop label).2
    (.ok s, { st with sessions := st.sessions.insert label s })

/-- Changes a session; `none` if there is none. -/
def change {α : Type} (st : Stand) (label : String)
    (f : Session → Broker → α × Session × Broker) : Option (α × Stand) :=
  (st.sessions.get? label).map fun s =>
    let (a, s, b) := f s st.broker
    (a, { st with broker := b, sessions := st.sessions.insert label s })

/-- What came of a poll. -/
structure PollReport (α : Type) where
  result : Except BrokerFault (List RawRecord)
  /-- How long it took. -/
  waited : Nat
  /-- The partitions of the session afterwards. -/
  assigned : List TopicPartition
  /-- What came of the actions meanwhile. -/
  meanwhile : List α

/-- An action after a delay. -/
abbrev Action (α : Type) := Nat × (Stand → α × Stand)

/-- Carries out actions, each after its delay. -/
def carryOut {α : Type} : List (Action α) → Stand → List α × Stand
  | [], st => ([], st)
  | (delay, act) :: rest, st =>
    let (a, st) := act { st with now := st.now + delay }
    let (as, st) := carryOut rest st
    (a :: as, st)

/-- A poll that has returned: the actions that are left are carried out, and the session is
put back. -/
def pollDone {α : Type} (label : String) (start : Nat) (s : Session)
    (result : Except BrokerFault (List RawRecord)) (rest : List (Action α)) (st : Stand) :
    PollReport α × Stand :=
  let waited := st.now - start
  let (meanwhile, st) := carryOut rest st
  (⟨result, waited, s.assigned, meanwhile⟩,
    { st with sessions := st.sessions.insert label s })

/-- One fetch of a poll: it returns unless it finds nothing before the deadline. The second
case is the session that goes on waiting. -/
def attempt (s : Session) (maxRecords deadline : Nat) (st : Stand) :
    (Except BrokerFault (List RawRecord) ⊕ Unit) × Session × Stand :=
  match s.fetch maxRecords st.broker with
  | .error fault => (.inl (.error fault), s, st)
  | .ok (records, s, b) =>
    let st := { st with broker := b }
    if records.isEmpty && decide (st.now < deadline) then (.inr (), s, st)
    else (.inl (.ok records), s, st)

/-- Waits for records; `seen` are the signals before the last fetch. -/
def waitFrom {α : Type} (label : String) (start maxRecords deadline seen : Nat) (s : Session) :
    List (Action α) → Stand → PollReport α × Stand
  | [], st =>
    let st := { st with now := max st.now deadline }
    match attempt s maxRecords deadline st with
    | (.inl result, s, st) => pollDone label start s result [] st
    | (.inr _, s, st) => pollDone label start s (.ok []) [] st
  | (delay, act) :: rest, st =>
    if deadline ≤ st.now + delay then
      let left := st.now + delay - deadline
      let st := { st with now := max st.now deadline }
      match attempt s maxRecords deadline st with
      | (.inl result, s, st) => pollDone label start s result ((left, act) :: rest) st
      | (.inr _, s, st) => pollDone label start s (.ok []) ((left, act) :: rest) st
    else
      let (a, st) := act { st with now := st.now + delay }
      let record (r : PollReport α × Stand) : PollReport α × Stand :=
        ({ r.1 with meanwhile := a :: r.1.meanwhile }, r.2)
      if st.broker.signals = seen then
        record (waitFrom label start maxRecords deadline seen s rest st)
      else
        match attempt s maxRecords deadline st with
        | (.inl result, s, st) => record (pollDone label start s result rest st)
        | (.inr _, s, st) =>
          record (waitFrom label start maxRecords deadline st.broker.signals s rest st)

/-- Polls a session, while actions go on; `none` if there is no such session. -/
def poll {α : Type} (st : Stand) (label : String) (timeoutMs maxRecords : Nat)
    (meanwhile : List (Action α)) : Option (PollReport α × Stand) :=
  (st.sessions.get? label).map fun s =>
    let st' := { st with sessions := st.sessions.erase label }
    let deadline := st.now + timeoutMs
    match attempt s maxRecords deadline st' with
    | (.inl result, s, st) => pollDone label st.now s result meanwhile st
    | (.inr _, s, st) =>
      waitFrom label st.now maxRecords deadline st.broker.signals s meanwhile st

end Stand

end StreamDispatch
