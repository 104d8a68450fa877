import StreamDispatch.Engine.Submit

/-!
# Histories

A history is any sequence of events of a system that begins with an empty broker and a new
engine. Nothing is assumed about the order of the events or about who causes them: topics
appear and records arrive at any time, requests are made to fail and to succeed again,
registrations are submitted, engines are given up and renewed, and each worker takes its
steps whenever it likes. What the application does is part of the events: how the key and
the value were decoded, how the handler came out, what the policy decided, and that a
decoder or a policy broke down. An event that does not fit what a worker is doing changes
nothing, so every list of events is a history.

## What is resolved

A record is *resolved* when the handler accepts it, or when the policy decides to skip it
(`StreamDispatch.Worker.resolves?`). This is read off the worker and the event alone, and
not off anything that the worker does about it; whether progress follows what is resolved
is what the files on delivery are about.

## Main definitions

* `StreamDispatch.WorkerEvent`, `StreamDispatch.Event`: what can happen.
* `StreamDispatch.System.apply`: what an event does.
* `StreamDispatch.History`, `StreamDispatch.History.of`: a system, and what its workers have
  resolved on the way there.
* `StreamDispatch.History.noted`: whatever else is to be noted along a history.
-/

namespace StreamDispatch

/-! ### Events -/

/-- What can happen to one worker. -/
inductive WorkerEvent
  | start
  | poll
  | keyDecoded (result : Except String Unit)
  | valueDecoded (result : Except String Unit)
  | handled (millis : Float) (result : HandlerResult)
  | decided (decision : Decision)
  | resume
  | close
  /-- A decoder or the policy breaks down. -/
  | crash (message : String)
  | requestStop
  | abandon
  | join
  | abort

/-- What an event does to a worker and its surroundings, at a certain time. -/
def WorkerEvent.apply (now : Nat) : WorkerEvent → Turn → Turn
  | .start, t => t.start
  | .poll, t => t.poll now
  | .keyDecoded result, t => t.keyDecoded result
  | .valueDecoded result, t => t.valueDecoded result
  | .handled millis result, t => t.handled millis result
  | .decided decision, t => t.decided now decision
  | .resume, t => t.resume now
  | .close, t => t.close
  | .crash message, t => t.crash message
  | .requestStop, t => t.requestStop
  | .abandon, t => t.abandon
  | .join, t => t.join
  | .abort, t => t.abort

/-- What can happen to a system. -/
inductive Event (D H : Type)
  /-- Time passes. -/
  | wait (millis : Nat)
  | createTopic (topic : String) (description : TopicDescription)
  | produce (tp : TopicPartition) (record : StoredRecord)
  /-- From now on these requests fail. -/
  | setFaults (faults : BrokerFaults)
  /-- The engine is given settings. -/
  | useSettings (settings : Settings)
  | submit (registration : Registration D H)
  /-- All workers of the engine are asked to stop. -/
  | requestStop
  | dropEngine
  | renewEngine
  /-- Something happens to the worker at a place. -/
  | work (place : Nat) (event : WorkerEvent)

variable {D H : Type}

/-- What an event does. -/
def System.apply (sys : System) : Event D H → System
  | .wait millis => { sys with now := sys.now + millis }
  | .createTopic topic description =>
    { sys with broker := sys.broker.createTopic topic description }
  | .produce tp record =>
    match sys.broker.produce tp record with
    | .ok (_, b) => { sys with broker := b }
    | .error _ => sys
  | .setFaults faults => { sys with broker := { sys.broker with faults := faults } }
  | .useSettings settings =>
    { sys with engine := sys.engine.map fun e => { e with settings := some settings } }
  | .submit registration => (sys.submit registration).2
  | .requestStop => sys.requestStop
  | .dropEngine => sys.dropEngine
  | .renewEngine => sys.renewEngine
  | .work place event => sys.turn place (event.apply sys.now)

/-! ### What is resolved -/

/-- The record that an event resolves: the handler accepts it, or the policy decides to skip
it. -/
def Worker.resolves? (w : Worker) : WorkerEvent → Option RawRecord
  | .handled _ result =>
    match w.activity, result with
    | .working job .handler, .accepted => some job.record
    | _, _ => none
  | .decided .proceed =>
    match w.activity with
    | .working job (.deciding _) => some job.record
    | _ => none
  | _ => none

/-- Whether an event ends a worker in the middle of something: a decoder or the policy breaks
down, or the worker is cut off before it is done. -/
def Worker.isCutOffBy (w : Worker) : WorkerEvent → Bool
  | .crash _ => Turn.runsApplication w.activity
  | .abort =>
    match w.activity with
    | .closing _ => false
    | a => !a.isOver
  | _ => false

/-- That a worker has resolved a record for its group. -/
structure Resolution where
  /-- The place of the worker in the system. -/
  worker : Nat
  group : String
  partition : TopicPartition
  offset : Int
  deriving DecidableEq, Repr

/-- What an event of a system resolves. -/
def System.resolution? (sys : System) : Event D H → Option Resolution
  | .work place event =>
    (sys.workers[place]?).bind fun w =>
      (w.resolves? event).map fun r =>
        ⟨place, w.session.group, r.topicPartition, r.offset⟩
  | _ => none

/-! ### Histories -/

/-- A system together with what its workers have resolved so far, in order. -/
structure History where
  system : System
  resolved : List Resolution

namespace History

/-- Nothing has happened. -/
def empty : History := ⟨.empty, []⟩

/-- One more event happens. -/
def extend (h : History) (e : Event D H) : History :=
  ⟨h.system.apply e, h.resolved ++ (h.system.resolution? e).toList⟩

theorem system_extend (h : History) (e : Event D H) :
    (h.extend e).system = h.system.apply e := rfl

/-- What comes of a list of events. -/
def of (events : List (Event D H)) : History := events.foldl extend empty

@[simp] theorem of_nil : of ([] : List (Event D H)) = empty := rfl

@[simp] theorem of_concat (events : List (Event D H)) (e : Event D H) :
    of (events ++ [e]) = (of events).extend e := by
  rw [of, List.foldl_append]
  rfl

theorem system_concat (events : List (Event D H)) (e : Event D H) :
    (of (events ++ [e])).system = (of events).system.apply e := by
  rw [of_concat, system_extend]

/-- What is resolved in one partition for one group: the offsets, in order. -/
def resolvedIn (h : History) (group : String) (tp : TopicPartition) : List Int :=
  (h.resolved.filter fun r => r.group = group ∧ r.partition = tp).map (·.offset)

/-- No session of a group begins at the end of a partition without progress. -/
def FromStart (h : History) (group : String) : Prop :=
  ∀ w ∈ h.system.workers, w.session.group = group → w.session.startsAtEnd = false

instance (h : History) (group : String) : Decidable (h.FromStart group) :=
  inferInstanceAs (Decidable (∀ w ∈ h.system.workers, _ → _))

/-! ### What is noted along the way -/

/-- Whatever the events of a list give to note, in order, each at the system that it happens
to. -/
def noted {α : Type} (note : System → Event D H → List α) (events : List (Event D H)) : List α :=
  (events.foldl
    (fun (seen : System × List α) e => (seen.1.apply e, seen.2 ++ note seen.1 e))
    (.empty, [])).2

@[simp] theorem noted_nil {α : Type} (note : System → Event D H → List α) :
    noted note [] = [] := rfl

@[simp] theorem noted_concat {α : Type} (note : System → Event D H → List α)
    (events : List (Event D H)) (e : Event D H) :
    noted note (events ++ [e]) = noted note events ++ note (of events).system e := by
  have hsystem : ∀ (events : List (Event D H)) (h : History) (notes : List α),
      (events.foldl
        (fun (seen : System × List α) e => (seen.1.apply e, seen.2 ++ note seen.1 e))
        (h.system, notes)).1 = (events.foldl extend h).system := by
    intro events
    induction events with
    | nil => exact fun _ _ => rfl
    | cons e rest ih => exact fun h notes => ih (h.extend e) _
  rw [noted, List.foldl_append, of, ← hsystem events empty []]
  rfl

/-- The events of a list for which something holds, each at the system that it happens to. -/
def eventsWhere (p : System → Event D H → Bool) : List (Event D H) → List (Event D H) :=
  noted fun sys e => if p sys e then [e] else []

/-! ### A partition changes hands -/

/-- A registration of one worker that reads the orders and commits after each record. -/
def orderReader (name : String) : Registration Unit Unit where
  name := name
  topics := [.named "orders"]
  checksTopics := false
  listener := .given .default
  consumer := .given { ConsumerConfig.default with commitStrategy := .afterRecord }
  keyDecoder := ()
  valueDecoder := ()
  handler := ()
  policy := .stop

/-- The partition that changes hands. -/
def secondOrders : TopicPartition := ⟨"orders", 1⟩

/-- The worker at a place takes the record at hand through its attempt, and accepts it. -/
def accepts (place : Nat) : List (Event Unit Unit) :=
  [.work place (.keyDecoded (.ok ())), .work place (.valueDecoded (.ok ())),
    .work place (.handled 0 .accepted)]

/-- A worker reads three records of a partition. Before it gets to the first of them another
worker joins the group, takes the partition over, and accepts all three. -/
def handover : List (Event Unit Unit) :=
  [.createTopic "orders" ⟨2, 1, ∅⟩, .produce secondOrders ⟨none, none, 0, []⟩,
    .produce secondOrders ⟨none, none, 0, []⟩, .produce secondOrders ⟨none, none, 0, []⟩,
    .submit (orderReader "first"), .work 0 .start, .work 0 .poll,
    .submit (orderReader "second"), .work 1 .start, .work 1 .poll] ++
    accepts 1 ++ accepts 1 ++ accepts 1

end History

end StreamDispatch
