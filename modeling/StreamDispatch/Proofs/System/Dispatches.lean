import StreamDispatch.Proofs.System.Batches
import StreamDispatch.Proofs.Worker.Dispatch

/-!
# Dispatches in a history

The dispatch of a record is about one worker and its turns, and in a history this worker is one
of many. The others, the engine and whoever writes to the broker do nothing to it but ask it to
stop (`StreamDispatch.System.OnlyAsks`). So what happens in a history while a worker has a record
at hand is a course of its dispatch, until the dispatch ends or the worker is cut off
(`StreamDispatch.History.dispatches`), and what is said of all courses is said of all histories.

## Main definitions

* `StreamDispatch.System.OnlyAsks`: nothing happens to a worker, except that it is asked to stop.

## Main statements

* `StreamDispatch.System.onlyAsks_apply`: what others can do to a worker.
* `StreamDispatch.History.dispatches`: what happens with a record at hand is its dispatch.
-/

namespace StreamDispatch

namespace System

variable {D H : Type} {sys sys₁ sys' : System} {place : Nat} {w : Worker}

/-! ### What others do -/

/-- **Nothing happens to the worker at a place**, except that it is asked to stop: a course of
whatever it has at hand, in which nothing else shows. -/
def OnlyAsks (place : Nat) (sys sys' : System) : Prop :=
  ∀ w, sys.workers[place]? = some w → ∃ w' trace, sys'.workers[place]? = some w' ∧
    (w.turnIn sys).Dispatches trace none (w'.turnIn sys') ∧ ∀ moment ∈ trace, moment = .asked

theorem OnlyAsks.of_eq (h : sys'.workers[place]? = sys.workers[place]?) :
    OnlyAsks place sys sys' := fun w hw =>
  ⟨w, [], h.trans hw, .aside .begins rfl, fun _ hmem => absurd hmem List.not_mem_nil⟩

theorem OnlyAsks.trans (h : OnlyAsks place sys sys₁) (h' : OnlyAsks place sys₁ sys') :
    OnlyAsks place sys sys' := by
  intro w hw
  obtain ⟨w₁, trace, hw₁, hcourse, htrace⟩ := h w hw
  obtain ⟨w', more, hw', hcourse', hmore⟩ := h' w₁ hw₁
  exact ⟨w', trace ++ more, hw', hcourse.trans hcourse', fun moment hmem =>
    (List.mem_append.mp hmem).elim (htrace moment) (hmore moment)⟩

/-- Somebody else's turn. -/
theorem onlyAsks_of_ne {actor : Nat} (hactor : place ≠ actor) (step : Turn → Turn) :
    OnlyAsks place sys (sys.turn actor step) := by
  cases hw : sys.workers[actor]? with
  | none =>
    rw [turn_of_none hw]
    exact .of_eq rfl
  | some w => exact .of_eq (by rw [workers_turn hw, if_neg hactor])

/-- A worker is asked to stop, or let go of. -/
theorem onlyAsks_turn {ev : WorkerEvent} (hev : ev = .requestStop ∨ ev = .abandon) (now : Nat)
    (sys : System) (place actor : Nat) : OnlyAsks place sys (sys.turn actor (ev.apply now)) := by
  by_cases hactor : place = actor
  swap
  · exact onlyAsks_of_ne hactor _
  subst hactor
  intro w hw
  have hasked : w.moments now ev = [.asked] ∧ w.ending? ev = none ∧ w.isCutOffBy ev = false := by
    rcases hev with rfl | rfl <;> cases hactivity : w.activity <;>
      simp [Worker.moments, Worker.ending?, Worker.isCutOffBy, hactivity]
  obtain ⟨hmoments, hending, hcut⟩ := hasked
  have hcourse := (Turn.Dispatches.begins (t := w.turnIn sys)).event now hcut
  rw [Worker.turnIn, hmoments, hending] at hcourse
  refine ⟨(ev.apply now (w.turnIn sys)).worker, [.asked], ?_, ?_, by simp⟩
  · rw [workers_turn hw, if_pos rfl]
    rfl
  · rw [turn_eq hw]
    exact hcourse

theorem onlyAsks_turns {ev : WorkerEvent} (hev : ev = .requestStop ∨ ev = .abandon) (now : Nat)
    (sys : System) (place : Nat) (places : List Nat) :
    OnlyAsks place sys (sys.turns places (ev.apply now)) := by
  induction places generalizing sys with
  | nil => exact .of_eq rfl
  | cons actor rest ih => exact (onlyAsks_turn hev now sys place actor).trans (ih _)

theorem onlyAsks_dropEngine (sys : System) (place : Nat) : OnlyAsks place sys sys.dropEngine := by
  rw [dropEngine]
  split
  · exact (onlyAsks_turns (.inr rfl) 0 sys place _).trans (.of_eq rfl)
  · exact .of_eq rfl

/-- New workers come after the others. -/
theorem onlyAsks_submit (r : Registration D H) (hs : ∀ w ∈ sys.workers, w.Settled)
    (place : Nat) : OnlyAsks place sys (sys.submit r).2 := by
  cases he : sys.engine with
  | none =>
    simp only [submit, he]
    exact .of_eq rfl
  | some e =>
    have hsubmits := submits r hs he
    generalize sys.submit r = result at hsubmits
    cases hsubmits with
    | launched =>
      intro w hw
      have hplace : place < sys.workers.length := (List.getElem?_eq_some_iff.mp hw).1
      exact OnlyAsks.of_eq (List.getElem?_append_left hplace) w hw
    | _ => exact .of_eq rfl

/-- **What others can do to a worker** is to ask it to stop. -/
theorem onlyAsks_apply (hs : ∀ w ∈ sys.workers, w.Settled) {e : Event D H}
    (hothers : ∀ ev, e ≠ .work place ev) : OnlyAsks place sys (sys.apply e) := by
  cases e with
  | produce tp record =>
    rw [apply]
    split <;> exact .of_eq rfl
  | submit r => exact onlyAsks_submit r hs place
  | requestStop =>
    rw [apply, requestStop]
    split
    · exact onlyAsks_turns (.inl rfl) 0 sys place _
    · exact .of_eq rfl
  | dropEngine => exact onlyAsks_dropEngine sys place
  | renewEngine => exact (onlyAsks_dropEngine sys place).trans (.of_eq rfl)
  | work actor ev =>
    refine onlyAsks_of_ne (fun hactor => ?_) _
    exact hothers ev (congrArg (Event.work · ev) hactor.symm)
  | _ => exact .of_eq rfl

/-! ### What happens to a worker -/

/-- **One more event of a history** takes a dispatch on its course, unless it cuts the worker
off. -/
theorem dispatches_apply (hs : ∀ w ∈ sys.workers, w.Settled) {t : Turn} {trace : List Moment}
    (hw : sys.workers[place]? = some w) (hcourse : t.Dispatches trace none (w.turnIn sys))
    {e : Event D H} (hcut : ∀ ev, e = .work place ev → w.isCutOffBy ev = false) :
    ∃ more ending w', (sys.apply e).workers[place]? = some w' ∧
      t.Dispatches (trace ++ more) ending (w'.turnIn (sys.apply e)) := by
  by_cases hown : ∃ ev, e = .work place ev
  · obtain ⟨ev, rfl⟩ := hown
    refine ⟨w.moments sys.now ev, w.ending? ev, (ev.apply sys.now (w.turnIn sys)).worker, ?_, ?_⟩
    · rw [apply, workers_turn hw, if_pos rfl]
      rfl
    · rw [apply, turn_eq hw]
      exact hcourse.event sys.now (hcut ev rfl)
  · obtain ⟨w', more, hw', haside, -⟩ :=
      onlyAsks_apply hs (fun ev heq => hown ⟨ev, heq⟩) w hw
    exact ⟨more, none, w', hw', hcourse.trans haside⟩

end System

/-- **What happens in a history is the dispatch** of the record that a worker has at hand: all of
what happens, or as much as it takes to end the dispatch. -/
theorem History.dispatches {D H : Type} (events more : List (Event D H)) {place : Nat} {w : Worker}
    (hw : (of events).system.workers[place]? = some w)
    (hcut : ∀ before ev after v, more = before ++ .work place ev :: after →
      (of (events ++ before)).system.workers[place]? = some v → v.isCutOffBy ev = false) :
    ∃ before after trace ending w', more = before ++ after ∧
      (of (events ++ before)).system.workers[place]? = some w' ∧
      (w.turnIn (of events).system).Dispatches trace ending
        (w'.turnIn (of (events ++ before)).system) ∧
      (ending = none → after = []) := by
  induction more using List.reverseRecOn with
  | nil =>
    refine ⟨[], [], [], none, w, rfl, ?_, ?_, fun _ => rfl⟩ <;> rw [List.append_nil]
    · exact hw
    · exact .begins
  | append_singleton more e ih =>
    obtain ⟨before, after, trace, ending, v, rfl, hv, hcourse, hall⟩ :=
      ih fun before ev after v hmore =>
        hcut before ev (after ++ [e]) v (by rw [hmore, List.append_assoc]; rfl)
    cases ending with
    | some ending =>
      exact ⟨before, after ++ [e], trace, some ending, v, List.append_assoc .., hv, hcourse,
        fun heq => by cases heq⟩
    | none =>
      obtain rfl := hall rfl
      rw [List.append_nil] at hcut ⊢
      obtain ⟨further, ending, w', hw', hcourse'⟩ :=
        System.dispatches_apply (sound (events ++ before)).settled hv hcourse
          (fun ev heq => hcut before ev [] v (heq ▸ rfl) hv)
      rw [← system_concat, List.append_assoc] at hw' hcourse'
      exact ⟨before ++ [e], [], trace ++ further, ending, w', (List.append_nil _).symm, hw',
        hcourse', fun _ => rfl⟩

end StreamDispatch
