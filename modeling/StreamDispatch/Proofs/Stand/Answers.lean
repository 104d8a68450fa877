import StreamDispatch.Proofs.Session.Alike
import StreamDispatch.Proofs.Stand.Requests

/-!
# What requests are answered

Whoever asks for something is answered: with the records of a fetch, the offset of a record,
the shape of a topic, or a refusal. `StreamDispatch.Stand.apply` says what a request does, and
`StreamDispatch.Stand.answer` what it is answered. The answers to a list of requests, each
beside its request, are its *transcript*.

A session that asks for the same at two brokers that are alike to its group is answered alike
(`StreamDispatch.SessionRequest.alike`), and goes on alike.

## Main definitions

* `StreamDispatch.Answer`, `StreamDispatch.Stand.answer`, `StreamDispatch.Stand.transcript`.

## Main statements

* `StreamDispatch.SessionRequest.alike`: whatever a session asks for.
-/

namespace StreamDispatch

/-- What a request is answered. -/
inductive Answer
  /-- It is done, and there is nothing to tell. -/
  | done
  | fetched (records : List RawRecord)
  | written (offset : Int)
  | shape (description : Option TopicDescription)
  | refused (fault : BrokerFault)
  /-- There is no session under the label. -/
  | nobody
  deriving DecidableEq

/-- An answer without the times of records. -/
def Answer.undated : Answer → Answer
  | .fetched records => .fetched (records.map RawRecord.undated)
  | answer => answer

/-- An answer that has nothing to tell if all goes well. -/
def Answer.ofExcept {α : Type} : Except BrokerFault α → Answer
  | .ok _ => .done
  | .error fault => .refused fault

namespace SessionRequest

/-- What a session is answered. -/
def answer : SessionRequest → Session → Broker → Answer
  | .subscribe _, _, _ => .done
  | .fetch room, s, b =>
    match s.fetch room b with
    | .ok (records, _, _) => .fetched records
    | .error fault => .refused fault
  | .commit offsets mode, s, b => .ofExcept (s.commit offsets mode b)
  | .store offsets, s, _ => .ofExcept (s.store offsets).1
  | .close, _, _ => .done

variable {ν : ℕ ↪o ℕ} {s : Session} {b b' : Broker}

/-- **Whatever a session asks for**, at two brokers that are alike to its group it goes on
alike, leaves them alike, and is answered the same apart from the times of records. -/
theorem alike (request : SessionRequest) (h : b.Alike s.group ν b') :
    (request.apply (s.renumber ν) b').1 = (request.apply s b).1.renumber ν ∧
      (request.apply s b).2.Alike s.group ν (request.apply (s.renumber ν) b').2 ∧
      (request.answer (s.renumber ν) b').undated = (request.answer s b).undated := by
  cases request with
  | subscribe topics =>
    obtain ⟨hsession, hbroker⟩ := Session.subscribe_alike h topics
    exact ⟨hsession, hbroker, rfl⟩
  | fetch room =>
    simp only [apply, answer]
    rcases Session.fetch_alike h room with
      ⟨fault, hs, hs'⟩ | ⟨records, records', t, c, c', hs, hs', hrecords, hbroker⟩
    · rw [hs, hs']
      exact ⟨rfl, h, rfl⟩
    · rw [hs, hs']
      exact ⟨rfl, hbroker, congrArg Answer.fetched hrecords⟩
  | commit offsets mode =>
    simp only [apply, answer]
    rcases Session.commit_alike h offsets mode with
      ⟨fault, hs, hs'⟩ | ⟨c, c', hs, hs', hbroker⟩
    · rw [hs, hs']
      exact ⟨rfl, h, rfl⟩
    · rw [hs, hs']
      exact ⟨rfl, hbroker, rfl⟩
  | store offsets =>
    have hstore := Session.store_alike ν s offsets
    exact ⟨congrArg Prod.snd hstore, h, by rw [answer, hstore, answer]⟩
  | close =>
    obtain ⟨hsession, hbroker⟩ := Session.leave_alike h
    exact ⟨hsession, hbroker, rfl⟩

end SessionRequest

namespace Stand

/-- What a request is answered. -/
def answer (st : Stand) : Request → Answer
  | .wait _ => .done
  | .createTopic _ _ => .done
  | .produce tp record =>
    match st.broker.produce tp record with
    | .ok (offset, _) => .written offset
    | .error fault => .refused fault
  | .describe topic =>
    match (st.broker.describe topic).1 with
    | .ok description => .shape description
    | .error fault => .refused fault
  | .setFaults _ => .done
  | .openSession label client config => .ofExcept (st.openSession label client config).1
  | .ask label request =>
    match st.sessions.get? label with
    | some s => request.answer s st.broker
    | none => .nobody
  | .drop label => if (st.drop label).1 then .done else .nobody

/-- A list of requests with what each of them is answered. -/
def transcript : Stand → List Request → List (Request × Answer)
  | _, [] => []
  | st, request :: rest => (request, st.answer request) :: (st.apply request).transcript rest

end Stand

end StreamDispatch
