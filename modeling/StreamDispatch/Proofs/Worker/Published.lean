import Mathlib.Data.List.Basic
import StreamDispatch.Proofs.History

/-!
# What a worker publishes

A worker is created, and from then on it is what it has published last. Publishing is in
order when every phase is further on the way than all phases before it, from created over
running and draining to the end (`StreamDispatch.Phase.Precedes`). Draining alone may come
twice in a row, since a worker may be asked to stop more than once. The end is as far as it
goes, so nothing comes after a final phase.

The order of a whole life follows from the order of any two phases next to each other, and so
it is enough to look at one step of a worker: it publishes nothing, or one phase that may
follow the present one, and draining only if the worker is asked to stop
(`StreamDispatch.Worker.Announces`).

## Main statements

* `StreamDispatch.Worker.Announces.inOrder`: such a step keeps the phases of a worker in order.
* `StreamDispatch.Worker.Announces.published_eq`: after a final phase it publishes nothing.
-/

namespace StreamDispatch

/-! ### The order of phases -/

/-- How far a state is on the way from created to the end. -/
def LifecycleState.rank : LifecycleState → Nat
  | .created => 0
  | .validating => 1
  | .running => 2
  | .draining => 3
  | .stopped => 4
  | .failed => 4

theorem LifecycleState.rank_le (s : LifecycleState) : s.rank ≤ 4 := by
  cases s <;> decide

/-- The final states are those at the end of the way. -/
theorem LifecycleState.isTerminal_iff_rank {s : LifecycleState} :
    s.isTerminal = true ↔ s.rank = 4 := by
  cases s <;> decide

namespace Phase

/-- **A phase may be published after another one**: it is further on the way, or a worker that
drains is asked to stop once more. -/
def Precedes (p q : Phase) : Prop :=
  p.state.rank < q.state.rank ∨ p = .draining ∧ q = .draining

variable {p q r : Phase}

theorem Precedes.trans (h : p.Precedes q) (h' : q.Precedes r) : p.Precedes r := by
  rcases h with hlt | ⟨rfl, rfl⟩
  · rcases h' with hlt' | ⟨rfl, rfl⟩
    · exact .inl (Nat.lt_trans hlt hlt')
    · exact .inl hlt
  · exact h'

/-- Nothing is further on the way than a final phase. -/
theorem Precedes.not_terminal (h : p.Precedes q) : p.isTerminal = false := by
  rcases h with hlt | ⟨rfl, rfl⟩
  · rw [isTerminal, Bool.eq_false_iff, ne_eq, LifecycleState.isTerminal_iff_rank]
    have := q.state.rank_le
    omega
  · rfl

theorem precedes_of_terminal (hp : p.isTerminal = false) (hq : q.isTerminal = true) :
    p.Precedes q := by
  rw [isTerminal, Bool.eq_false_iff, ne_eq, LifecycleState.isTerminal_iff_rank] at hp
  rw [isTerminal, LifecycleState.isTerminal_iff_rank] at hq
  have := p.state.rank_le
  exact .inl (by omega)

theorem precedes_draining (hp : p.isTerminal = false) : p.Precedes .draining := by
  cases p with
  | created => exact .inl (by decide)
  | running => exact .inl (by decide)
  | draining => exact .inr ⟨rfl, rfl⟩
  | stopped => cases hp
  | failed cause => cases hp

/-- Draining is not the end. -/
theorem ne_draining (hp : p.isTerminal = true) : p ≠ .draining := by
  rintro rfl
  cases hp

end Phase

namespace Worker

/-! ### One step -/

/-- **What a step of a worker publishes**: nothing, or one phase that may follow the present
one. Only a worker that is asked to stop says that it drains. -/
inductive Announces (asked : Bool) (w w' : Worker) : Prop
  | nothing (published : w'.published = w.published)
  | next (p : Phase) (follows : w.phase.Precedes p) (drains : p = .draining → asked = true)
      (published : w'.published = p :: w.published)

variable {asked : Bool} {u w w' : Worker}

/-- What else changes does not matter. -/
theorem Announces.of_published (h : u.Announces asked w')
    (hpublished : u.published = w.published) : w.Announces asked w' := by
  cases h with
  | nothing h => exact .nothing (h.trans hpublished)
  | next p hp hdrains h =>
    have hphase : u.phase = w.phase := by rw [phase, phase, hpublished]
    exact .next p (hphase ▸ hp) hdrains (by rw [h, hpublished])

/-- Being asked to stop allows for more. -/
theorem Announces.of_unasked (h : w.Announces false w') : w.Announces asked w' := by
  cases h with
  | nothing h => exact .nothing h
  | next p hp hdrains h =>
    refine .next p hp (fun hdraining => ?_) h
    cases hdrains hdraining

/-- **After a final phase nothing is published.** -/
theorem Announces.published_eq (h : w.Announces asked w') (hphase : w.phase.isTerminal = true) :
    w'.published = w.published := by
  cases h with
  | nothing h => exact h
  | next p hp _ _ =>
    rw [hp.not_terminal] at hphase
    cases hphase

/-- A final phase stays. -/
theorem Announces.final (h : w.Announces asked w') (hphase : w.phase.isTerminal = true) :
    w'.phase = w.phase := by
  rw [phase, phase, h.published_eq hphase]

/-! ### A whole life -/

/-- The phases of a worker so far: it was created, and then it was whatever it published. -/
def phases (w : Worker) : List Phase := .created :: w.published.reverse

/-- The present phase is the last one. -/
theorem phases_eq (w : Worker) : ∃ before, w.phases = before ++ [w.phase] := by
  rw [phases, phase]
  cases w.published with
  | nil => exact ⟨[], rfl⟩
  | cons p rest => exact ⟨.created :: rest.reverse, by simp⟩

/-- The phases of a worker are in order. -/
def InOrder (w : Worker) : Prop := w.phases.Pairwise Phase.Precedes

/-- **Phases stay in order** if each one may follow the one before. -/
theorem Announces.inOrder (h : w.Announces asked w') (horder : w.InOrder) : w'.InOrder := by
  cases h with
  | nothing hpublished => rwa [InOrder, phases, hpublished]
  | next p hp _ hpublished =>
    have hphases : w'.phases = w.phases ++ [p] := by simp [phases, hpublished]
    obtain ⟨before, hbefore⟩ := w.phases_eq
    rw [InOrder, hphases, List.pairwise_append]
    refine ⟨horder, List.pairwise_singleton _ _, fun q hq r hr => ?_⟩
    rw [List.mem_singleton.mp hr]
    -- Whatever came before the present phase comes before the next one.
    rw [InOrder, hbefore, List.pairwise_append] at horder
    rw [hbefore, List.mem_append, List.mem_singleton] at hq
    rcases hq with hq | rfl
    · exact (horder.2.2 q hq w.phase List.mem_cons_self).trans hp
    · exact hp

/-- A worker says once more that it drains only if it is asked to stop. -/
theorem Announces.count_draining (h : w.Announces asked w') :
    w'.phases.count .draining ≤ w.phases.count .draining + asked.toNat := by
  cases h with
  | nothing hpublished =>
    rw [phases, phases, hpublished]
    exact Nat.le_add_right _ _
  | next p _ hdrains hpublished =>
    have hphases : w'.phases = w.phases ++ [p] := by simp [phases, hpublished]
    rw [hphases, List.count_append, List.count_singleton]
    by_cases hp : p = .draining
    · rw [hdrains hp, if_pos (beq_iff_eq.mpr hp)]
      exact Nat.le_refl _
    · rw [if_neg (by simpa using hp)]
      exact Nat.le_add_right _ _

/-- **A worker that says at most once that it drains is further on the way with every phase.** -/
theorem InOrder.strict (h : w.InOrder) (honce : w.phases.count .draining ≤ 1) :
    w.phases.Pairwise fun p q => p.state.rank < q.state.rank := by
  rw [InOrder] at h
  generalize w.phases = phases at h honce
  induction phases with
  | nil => exact .nil
  | cons p rest ih =>
    rw [List.pairwise_cons] at h ⊢
    obtain ⟨hp, hrest⟩ := h
    rw [List.count_cons] at honce
    refine ⟨fun q hq => ?_, ih hrest (by omega)⟩
    rcases hp q hq with hlt | ⟨rfl, rfl⟩
    · exact hlt
    · -- Draining would come twice.
      have hpos := List.count_pos_iff.mpr hq
      rw [if_pos (beq_self_eq_true _)] at honce
      omega

end Worker

end StreamDispatch
