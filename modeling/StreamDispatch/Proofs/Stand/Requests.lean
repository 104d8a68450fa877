import StreamDispatch.Proofs.Session.Operations
import StreamDispatch.Rehearsal.Sessions

/-!
# Any number of sessions

What can be asked of a broker, by whomever: topics are created, records are written, requests
are made to fail and to succeed again, and any number of sessions are opened, subscribe and
subscribe again, fetch, commit, store, close and are dropped, in any order. A request that
does not fit changes nothing, so every list of requests has a stand that comes of it
(`StreamDispatch.Stand.of`). Workers are one kind of user of all this; here nothing is assumed
about what a session is used for.

A *poll* is not one request but several. It fetches, and as long as it finds nothing it waits
and fetches again, while others go on; it returns with the first fetch that finds something,
or with the last one before its time is up, and it may be given up whenever it waits. Nothing
happens to the session between two fetches of a poll, so a poll is the fetches that it has
made, with the requests of others in between (`StreamDispatch.Stand.poll_requests`), and a
poll that was given up is no different from one that found nothing.

## Main definitions

* `StreamDispatch.SessionRequest`, `StreamDispatch.Request`: what can be asked for.
* `StreamDispatch.Stand.apply`, `StreamDispatch.Stand.of`: what comes of it.

## Main statements

* `StreamDispatch.Stand.session_apply`: what a request does to the session of a label.
-/

namespace StreamDispatch

/-- What can be asked of a session. -/
inductive SessionRequest
  | subscribe (topics : List String)
  /-- One fetch of a poll for at most so many records. -/
  | fetch (room : Nat)
  | commit (offsets : List CommitOffset) (mode : CommitMode)
  | store (offsets : List CommitOffset)
  | close

/-- What a request does to the session and the broker; one that is refused changes nothing. -/
def SessionRequest.apply : SessionRequest → Session → Broker → Session × Broker
  | .subscribe topics, s, b => s.subscribe topics b
  | .fetch room, s, b =>
    match s.fetch room b with
    | .ok (_, s', b') => (s', b')
    | .error _ => (s, b)
  | .commit offsets mode, s, b =>
    match s.commit offsets mode b with
    | .ok b' => (s, b')
    | .error _ => (s, b)
  -- The offsets before one that is refused stay stored.
  | .store offsets, s, b => ((s.store offsets).2, b)
  | .close, s, b => s.leave b

/-- What can be asked for. -/
inductive Request
  /-- Time passes. -/
  | wait (millis : Nat)
  | createTopic (topic : String) (description : TopicDescription)
  | produce (tp : TopicPartition) (record : StoredRecord)
  | describe (topic : String)
  /-- From now on these requests fail. -/
  | setFaults (faults : BrokerFaults)
  /-- A session is opened under a label, and takes the place of the one that has it. -/
  | openSession (label client : String) (config : ConsumerConfig)
  /-- Something is asked of the session of a label. -/
  | ask (label : String) (request : SessionRequest)
  | drop (label : String)

/-- The label of the session that a request is about. -/
def Request.label? : Request → Option String
  | .openSession label _ _ => some label
  | .ask label _ => some label
  | .drop label => some label
  | _ => none

namespace Stand

/-- What a request does. -/
def apply (st : Stand) : Request → Stand
  | .wait millis => { st with now := st.now + millis }
  | .createTopic topic description =>
    { st with broker := st.broker.createTopic topic description }
  | .produce tp record =>
    match st.broker.produce tp record with
    | .ok (_, b) => { st with broker := b }
    | .error _ => st
  | .describe topic => { st with broker := (st.broker.describe topic).2 }
  | .setFaults faults => { st with broker := { st.broker with faults := faults } }
  | .openSession label client config => (st.openSession label client config).2
  | .ask label request =>
    match st.change label fun s b => ((), request.apply s b) with
    | some ((), st') => st'
    | none => st
  | .drop label => (st.drop label).2

/-- What comes of a list of requests. -/
def of (requests : List Request) : Stand := requests.foldl apply empty

@[simp] theorem of_nil : of [] = empty := rfl

theorem of_append (requests more : List Request) :
    of (requests ++ more) = more.foldl apply (of requests) := List.foldl_append

@[simp] theorem of_concat (requests : List Request) (request : Request) :
    of (requests ++ [request]) = (of requests).apply request := by
  rw [of_append]
  rfl

/-! ### One session at a time -/

variable {st : Stand} {label : String} {s : Session}

/-- A session under a label. -/
def put (st : Stand) (label : String) (s : Session) : Stand :=
  { st with sessions := st.sessions.insert label s }

theorem session_put (st : Stand) (label other : String) (s : Session) :
    (st.put label s).sessions.get? other =
      if other = label then some s else st.sessions.get? other :=
  Dict.get?_insert st.sessions label other s

/-- What is asked of a session changes the session and the broker. -/
theorem apply_ask (hs : st.sessions.get? label = some s) (request : SessionRequest) :
    st.apply (.ask label request) =
      { st with broker := (request.apply s st.broker).2 }.put label
        (request.apply s st.broker).1 := by
  rw [apply, change, hs]
  rfl

theorem apply_ask_of_none (hs : st.sessions.get? label = none) (request : SessionRequest) :
    st.apply (.ask label request) = st := by
  rw [apply, change, hs]
  rfl

/-- The records that a fetch by the session of a label returns; `none` if there is no such
session, or if its fetch is refused. -/
def fetched? (st : Stand) (label : String) (room : Nat) : Option (List RawRecord) :=
  (st.sessions.get? label).bind fun s => (s.fetch room st.broker).toOption.map (·.1)

theorem fetched?_eq_some {room : Nat} {records : List RawRecord} :
    st.fetched? label room = some records ↔
      ∃ s s' b', st.sessions.get? label = some s ∧
        s.fetch room st.broker = .ok (records, s', b') := by
  rw [fetched?, Option.bind_eq_some_iff]
  constructor
  · rintro ⟨s, hs, hrecords⟩
    cases hfetch : s.fetch room st.broker with
    | error fault =>
      rw [hfetch] at hrecords
      cases hrecords
    | ok out =>
      obtain ⟨_, s', b'⟩ := out
      rw [hfetch] at hrecords
      cases hrecords
      exact ⟨s, s', b', hs, hfetch⟩
  · rintro ⟨s, s', b', hs, hfetch⟩
    exact ⟨s, hs, by rw [hfetch]; rfl⟩

theorem apply_fetch (hs : st.sessions.get? label = some s) {room : Nat}
    {records : List RawRecord} {s' : Session} {b' : Broker}
    (hfetch : s.fetch room st.broker = .ok (records, s', b')) :
    st.apply (.ask label (.fetch room)) = { st with broker := b' }.put label s' := by
  rw [apply_ask hs, SessionRequest.apply, hfetch]

/-- A session that is dropped leaves its group, and is forgotten. -/
theorem drop_eq (hs : st.sessions.get? label = some s) :
    (st.drop label).2 =
      { st with
        broker := (s.leave st.broker).2
        sessions := st.sessions.erase label } := by
  rw [drop, hs]

theorem drop_of_none (hs : st.sessions.get? label = none) : (st.drop label).2 = st := by
  rw [drop, hs]

theorem session_drop (st : Stand) (label other : String) :
    (st.drop label).2.sessions.get? other =
      if other = label then none else st.sessions.get? other := by
  cases hs : st.sessions.get? label with
  | none =>
    rw [drop_of_none hs]
    split
    next h => rw [h, hs]
    next => rfl
  | some s =>
    rw [drop_eq hs]
    exact Dict.get?_erase st.sessions label other

theorem nextMember_drop (st : Stand) (label : String) :
    (st.drop label).2.broker.nextMember = st.broker.nextMember := by
  cases hs : st.sessions.get? label with
  | none => rw [drop_of_none hs]
  | some s =>
    rw [drop_eq hs]
    exact (s.sameBut_leave st.broker).nextMember

/-- A session is opened in the place of the one before, or the broker refuses it. -/
theorem openSession_cases (st : Stand) (label client : String) (config : ConsumerConfig) :
    (st.openSession label client config).2 = st ∨
      ∃ s b, Session.create st.broker config client = .ok (s, b) ∧
        (st.openSession label client config).2 =
          ({ st with broker := b }.drop label).2.put label s := by
  rw [openSession]
  split
  next => exact .inl rfl
  next s b hcreate => exact .inr ⟨s, b, hcreate, rfl⟩

/-- **A request leaves alone all sessions but the one that it is about.** -/
theorem session_apply (st : Stand) {request : Request} (h : request.label? ≠ some label) :
    (st.apply request).sessions.get? label = st.sessions.get? label := by
  cases request with
  | wait _ => rfl
  | createTopic _ _ => rfl
  | produce tp record =>
    rw [apply]
    split <;> rfl
  | describe _ => rfl
  | setFaults _ => rfl
  | openSession other client config =>
    have hne : label ≠ other := fun heq => h (congrArg some heq.symm)
    rw [apply]
    rcases openSession_cases st other client config with heq | ⟨s, b, -, heq⟩
    · rw [heq]
    · rw [heq, session_put, if_neg hne, session_drop, if_neg hne]
  | ask other request =>
    have hne : label ≠ other := fun heq => h (congrArg some heq.symm)
    cases hs : st.sessions.get? other with
    | none => rw [apply_ask_of_none hs]
    | some s => rw [apply_ask hs, session_put, if_neg hne]
  | drop other =>
    have hne : label ≠ other := fun heq => h (congrArg some heq.symm)
    rw [apply, session_drop, if_neg hne]

end Stand

end StreamDispatch
