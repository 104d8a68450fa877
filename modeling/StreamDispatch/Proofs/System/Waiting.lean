import StreamDispatch.Proofs.Lifecycle.Listing
import StreamDispatch.Proofs.System.Gone

/-!
# While an engine waits

An engine that is shut down waits for one worker after the other, and while it waits it does
nothing itself: everything else goes on, in any order and for any length of time
(`StreamDispatch.System.GoesOn`). Since the engine has no part in it, it keeps its listeners,
no worker is added, and whoever has come to an end keeps it (`StreamDispatch.System.Remains`).

An engine is shut down in one of two ways. Either it asks all workers to stop, and then waits
for each of them until it is over or its time is up, and cuts it off in the latter case
(`StreamDispatch.System.ShutsDown`). Or it cuts off one worker after the other at once
(`StreamDispatch.System.ShutsDownNow`). When exactly a worker's time is up is left open, since
what is known of shutting down does not depend on it.

## Main definitions

* `StreamDispatch.System.GoesOn`: what may happen while an engine waits.
* `StreamDispatch.System.ShutsDown`, `StreamDispatch.System.ShutsDownNow`: the system and the
  reports after an engine was shut down.

## Main statements

* `StreamDispatch.System.Regular`: all that holds of a system throughout every history.
* `StreamDispatch.System.GoesOn.regular`: it still holds when the engine has waited.
* `StreamDispatch.System.GoesOn.remains`: what does not change meanwhile.
* `StreamDispatch.System.Collects.isTerminal`: whoever was waited for has a final phase.
-/

namespace StreamDispatch

namespace System

/-- **What holds of a system throughout every history.** -/
structure Regular (sys : System) : Prop where
  sound : sys.Sound
  enrolled : sys.Enrolled
  staffed : sys.Staffed
  listed : sys.Listed

theorem Regular.apply {D H : Type} {sys : System} (h : sys.Regular) (ev : Event D H) :
    (sys.apply ev).Regular where
  sound := h.sound.apply ev
  enrolled := h.enrolled.apply h.sound ev
  staffed := h.staffed.apply h.sound h.enrolled ev
  listed := h.listed.apply h.sound.settled ev

end System

theorem History.regular {D H : Type} (events : List (Event D H)) : (of events).system.Regular :=
  ⟨sound events, enrolled events, staffed events, listed events⟩

namespace System

/-! ### What does not change -/

/-- **What does not change without the engine**: the engine, how many workers there are, and
the ends that they have come to. -/
structure Remains (sys sys' : System) : Prop where
  engine : sys'.engine = sys.engine
  length : sys'.workers.length = sys.workers.length
  later : ∀ (place : Nat) (w : Worker), sys.workers[place]? = some w →
    ∃ w', sys'.workers[place]? = some w' ∧ w.Later w'

namespace Remains

variable {a b c : System}

theorem refl (sys : System) : sys.Remains sys := ⟨rfl, rfl, fun _ w hw => ⟨w, hw, .refl w⟩⟩

theorem trans (h : a.Remains b) (h' : b.Remains c) : a.Remains c where
  engine := h'.engine.trans h.engine
  length := h'.length.trans h.length
  later place w hw := by
    obtain ⟨w₁, hw₁, hlater⟩ := h.later place w hw
    obtain ⟨w₂, hw₂, hlater'⟩ := h'.later place w₁ hw₁
    exact ⟨w₂, hw₂, hlater.trans hlater'⟩

/-- A final phase remains. -/
theorem isTerminal (h : a.Remains b) {place : Nat}
    (hphase : ∀ w, a.workers[place]? = some w → w.phase.isTerminal = true) {w' : Worker}
    (hw' : b.workers[place]? = some w') : w'.phase.isTerminal = true := by
  have hlt : place < a.workers.length := by
    rw [← h.length]
    exact (List.getElem?_eq_some_iff.mp hw').1
  have hw := List.getElem?_eq_getElem hlt
  obtain ⟨w₁, hw₁, hlater⟩ := h.later place _ hw
  obtain rfl : w₁ = w' := Option.some.inj (hw₁.symm.trans hw')
  exact hlater.isTerminal (hphase _ hw)

end Remains

/-- An event that is not the engine's leaves the engine alone. -/
theorem Regular.remains {D H : Type} {sys : System} (h : sys.Regular) {ev : Event D H}
    (hev : ev.isEngines = false) : sys.Remains (sys.apply ev) := by
  obtain ⟨hengine, hlength⟩ := sys.engine_apply hev
  exact ⟨hengine, hlength, fun _ _ hw => later_apply h.sound ev hw⟩

/-- A stop request does not touch the list of the engine. -/
theorem Regular.remains_requestStop {sys : System} (h : sys.Regular) :
    sys.Remains sys.requestStop := by
  obtain ⟨hengine, hlength⟩ := sys.engine_requestStop
  exact ⟨hengine, hlength,
    fun _ _ hw => later_apply h.sound (.requestStop : Event Unit Unit) hw⟩

/-! ### Waiting -/

/-- **The engine waits** while other things happen, if anything does. What applications are
made of does not matter, since nothing is submitted. -/
inductive GoesOn (sys : System) : System → Prop
  | refl : sys.GoesOn sys
  | step {sys' : System} (h : sys.GoesOn sys') (ev : Event Unit Unit)
      (hev : ev.isEngines = false) : sys.GoesOn (sys'.apply ev)

namespace GoesOn

variable {a b c : System}

theorem trans (h : a.GoesOn b) (h' : b.GoesOn c) : a.GoesOn c := by
  induction h' with
  | refl => exact h
  | step _ ev hev ih => exact ih.step ev hev

/-- One of the workers does something. -/
theorem turn (sys : System) (place : Nat) (ev : WorkerEvent) :
    sys.GoesOn (sys.turn place (ev.apply sys.now)) :=
  .step .refl (.work place ev) rfl

theorem engine (h : a.GoesOn b) : b.engine = a.engine := by
  induction h with
  | refl => rfl
  | @step b _ _ hev ih => exact (b.engine_apply hev).1.trans ih

/-- **The system is regular when the engine has waited.** -/
theorem regular (h : a.GoesOn b) (hr : a.Regular) : b.Regular := by
  induction h with
  | refl => exact hr
  | step _ ev _ ih => exact ih.apply ev

/-- **The engine, its workers and their ends remain.** -/
theorem remains (h : a.GoesOn b) (hr : a.Regular) : a.Remains b := by
  induction h with
  | refl => exact .refl a
  | step h _ hev ih => exact ih.trans ((h.regular hr).remains hev)

end GoesOn

end System

/-! ### Waiting for workers -/

/-- The end of waiting for a worker: if it is over, note is taken of that, and if its time is
up, it is cut off. -/
def Turn.await (t : Turn) : Turn := if t.worker.activity.isOver then t.join else t.abort

/-- Cutting off a worker that is over takes note of it as well. -/
theorem Turn.await_eq_abort : Turn.await = Turn.abort := by
  funext t
  rw [await]
  split
  next hover =>
    rw [abort]
    split
    next p hactivity =>
      rw [hactivity] at hover
      cases hover
    next => rw [if_pos hover]
  next => rfl

namespace System

/-- **The engine deals with workers one after the other**: each time it waits first, and then
does this step. It may go on waiting after the last one. -/
inductive Collects (step : Turn → Turn) : List Nat → System → System → Prop
  | nil {sys sys' : System} (waits : sys.GoesOn sys') : Collects step [] sys sys'
  | cons {place : Nat} {rest : List Nat} {sys sys₁ sys' : System} (waits : sys.GoesOn sys₁)
      (others : Collects step rest (sys₁.turn place step) sys') :
      Collects step (place :: rest) sys sys'

/-- The engine deals with its listeners one after the other: it cuts off their workers, and
takes their status. -/
inductive CutsOff : List Listener → System → List ListenerStatus → System → Prop
  | nil {sys : System} : CutsOff [] sys [] sys
  | cons {l : Listener} {rest : List Listener} {reports : List ListenerStatus}
      {sys sys₁ sys' : System} (cutOff : Collects Turn.abort l.workers sys sys₁)
      (others : CutsOff rest sys₁ reports sys') :
      CutsOff (l :: rest) sys (sys₁.statusOf l :: reports) sys'

/-- **The engine is shut down**: all its workers are asked to stop, it waits for them, and
reports what has become of them. -/
def ShutsDown (sys : System) (reports : List ListenerStatus) (sys' : System) : Prop :=
  ∃ e sys₁, sys.engine = some e ∧
    Collects Turn.await (e.listeners.flatMap (·.workers)) sys.requestStop sys₁ ∧
    reports = sys₁.status ∧ sys' = { sys₁ with engine := none }

/-- **The engine is shut down at once**: its workers are cut off, listener by listener. -/
def ShutsDownNow (sys : System) (reports : List ListenerStatus) (sys' : System) : Prop :=
  ∃ e sys₁, sys.engine = some e ∧ CutsOff e.listeners sys reports sys₁ ∧
    sys' = { sys₁ with engine := none }

namespace Collects

variable {step : Turn → Turn} {places more : List Nat} {a b c : System}

/-- The engine may have waited before. -/
theorem after (h : Collects step places b c) (hwaits : a.GoesOn b) :
    Collects step places a c := by
  cases h with
  | nil hwaits' => exact .nil (hwaits.trans hwaits')
  | cons hwaits' hothers => exact .cons (hwaits.trans hwaits') hothers

theorem append (h : Collects step places a b) (h' : Collects step more b c) :
    Collects step (places ++ more) a c := by
  induction h with
  | nil hwaits => exact h'.after hwaits
  | cons hwaits _ ih => exact .cons hwaits (ih h')

/-- Cutting off a worker is one of the things that happen. -/
theorem goesOn (h : Collects Turn.abort places a b) : a.GoesOn b := by
  induction h with
  | nil hwaits => exact hwaits
  | @cons place _ _ sys₁ _ hwaits _ ih => exact (hwaits.trans (.turn sys₁ place .abort)).trans ih

/-- **Whoever was cut off has a final phase** in the end. -/
theorem isTerminal (h : Collects Turn.abort places a b) (hr : a.Regular) :
    ∀ place ∈ places, ∀ w, b.workers[place]? = some w → w.phase.isTerminal = true := by
  induction h with
  | nil _ => exact fun place hplace => absurd hplace List.not_mem_nil
  | @cons first rest sys sys₁ sys' hwaits hothers ih =>
    have hregular := hwaits.regular hr
    have hcut : sys₁.GoesOn (sys₁.turn first Turn.abort) := .turn sys₁ first .abort
    intro place hplace w hw
    rcases List.mem_cons.mp hplace with rfl | hplace
    · -- It has a final phase when it is cut off, and keeps it.
      refine (hothers.goesOn.remains (hcut.regular hregular)).isTerminal (fun v hv => ?_) hw
      cases hu : sys₁.workers[place]? with
      | none =>
        rw [turn_of_none hu, hu] at hv
        cases hv
      | some u =>
        rw [workers_turn hu, if_pos rfl] at hv
        rw [← Option.some.inj hv]
        exact Turn.isTerminal_abort (hregular.sound.settled u (List.mem_of_getElem? hu))
    · exact ih (hcut.regular hregular) place hplace w hw

end Collects

end System

end StreamDispatch
