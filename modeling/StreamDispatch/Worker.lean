import StreamDispatch.Broker.Session
import StreamDispatch.Config.Listener
import StreamDispatch.Failure
import StreamDispatch.Worker.Lifecycle
import StreamDispatch.Worker.Metrics

/-!
# Workers

A worker owns one session. It polls for records and takes each record of a batch through
its attempts: the key is decoded, then the value, then the handler is called, and if one of
these fails the error policy decides. A worker is held here as a machine that is always in
one `Activity`; what makes it go on, and what it does then, is described in
`StreamDispatch.Worker.Step`.

## Main definitions

* `Plan`: what a worker was started for.
* `Job`, `Stage`: the batch at hand and how far its first record is.
* `Activity`, `Worker`.
-/

namespace StreamDispatch

/-- What a worker was started for. -/
structure Plan where
  /-- Its number within the registration. -/
  id : Nat
  /-- The name of the registration. -/
  registration : String
  topics : List String
  listener : ListenerConfig
  strategy : CommitStrategy
  deriving DecidableEq

/-- The part of a batch that is not done. -/
structure Job where
  /-- The record at hand. -/
  record : RawRecord
  /-- The records after it. -/
  rest : List RawRecord
  /-- The number of the attempt at the record. -/
  attempt : Nat
  /-- The last resolved offset of each partition that is still to be committed. -/
  resolved : Dict TopicPartition Int
  deriving DecidableEq

/-- How far an attempt is. -/
inductive Stage
  /-- The key is being decoded. -/
  | key
  /-- The value is being decoded. -/
  | value
  /-- The handler is running. -/
  | handler
  /-- The error policy is asked about a failure. -/
  | deciding (failure : RecordFailure)
  /-- The record is tried again at a certain time. -/
  | backoff (deadline : Nat)
  deriving DecidableEq

/-- What a worker is doing. -/
inductive Activity
  /-- It has not begun. -/
  | unstarted
  /-- It is about to poll. -/
  | ready
  /-- It waits for records, until a deadline or a signal after the ones it has seen. -/
  | polling (seen deadline : Nat)
  /-- It works on a batch. -/
  | working (job : Job) (stage : Stage)
  /-- It is done, and is about to leave its group and to publish a final phase. -/
  | closing (phase : Phase)
  /-- It has ended by itself. -/
  | ended
  /-- It was cut off. -/
  | cancelled
  /-- It broke down with a message. -/
  | panicked (message : String)
  deriving DecidableEq

/-- Whether a worker does nothing any more. -/
def Activity.isOver : Activity → Bool
  | .ended => true
  | .cancelled => true
  | .panicked _ => true
  | _ => false

/-- A worker. -/
structure Worker where
  plan : Plan
  session : Session
  /-- The phases that it has published, the latest first. -/
  published : List Phase
  metrics : WorkerMetrics
  /-- Whether it was asked to stop, or nobody holds it any more. -/
  stopping : Bool
  activity : Activity

namespace Worker

/-- A worker that has not begun. -/
def ofPlan (plan : Plan) (session : Session) : Worker where
  plan := plan
  session := session
  published := []
  metrics := .empty
  stopping := false
  activity := .unstarted

/-- The phase of a worker is the one that it published last; one that has published nothing is
created. -/
def phase (w : Worker) : Phase := w.published.headD .created

/-- The name under which a worker joins its group. -/
def client (w : Worker) : String := w.session.client

end Worker

end StreamDispatch
