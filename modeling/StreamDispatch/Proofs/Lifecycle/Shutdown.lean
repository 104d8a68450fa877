import Mathlib.Data.List.Forall2
import StreamDispatch.Proofs.Lifecycle.Registered
import StreamDispatch.Proofs.Rehearsal.Waiting

/-!
# What is left when an engine is shut down

Nothing is left. However long it takes until a worker is waited for, and whatever it does in
the meantime, it has a final phase when the engine is done with it, and no worker gets rid of
its final phase. There is one report for each registration, in the order in which they were
submitted, and in each report all workers are at their ends
(`StreamDispatch.Listener.Reported`).

Not all workers of an engine are on its list: a registration that was submitted again has
pushed the one before off it. But whatever is not listed is over
(`StreamDispatch.History.listed_or_terminal`), so of all that was started since the engine was
new, nothing is a member of a group in the end (`StreamDispatch.System.ShutDown`).

## Main statements

* `StreamDispatch.System.ShutsDown.shutDown`, `StreamDispatch.System.ShutsDownNow.shutDown`:
  both ways of shutting an engine down are complete.
* `StreamDispatch.History.shutdown_complete`: so they are in every history, and however they
  are rehearsed.
-/

namespace StreamDispatch

/-- **What is reported of a worker** in the end, when it has become another one. A worker that
broke down at any time has failed with a cause, and one that had failed before keeps its
cause. -/
structure Worker.Reported (w w' : Worker) (report : WorkerStatus) : Prop where
  id : report.id = w.plan.id
  client : report.client = w.client
  phase : report.phase = w'.phase
  isTerminal : report.phase.isTerminal = true
  panicked : ∀ message, w.activity = .panicked message ∨ w'.activity = .panicked message →
    report.phase = .failed (Turn.breakdownText message)
  failed : ∀ cause, w.phase = .failed cause → report.phase = .failed cause

/-- A worker that has a final phase and does not change any more is reported as it is. -/
theorem Worker.reported_status {u v w : Worker} (hs : v.Settled) (h : u.Later v)
    (h' : v.Later w) (hphase : v.phase.isTerminal = true) : u.Reported w v.status := by
  have hover := hs.isOver hphase
  refine ⟨congrArg Plan.id h.plan, h.session.client, (h'.final hphase).symm, hphase, ?_, ?_⟩
  · intro message hpanicked
    have hv : v.activity = .panicked message := by
      rcases hpanicked with hu | hw
      · rw [h.isOver (by rw [hu]; rfl), hu]
      · rw [← h'.isOver hover, hw]
    exact hs.broken message hv hphase
  · intro cause hfailed
    show v.phase = _
    rw [h.final (by rw [hfailed]; rfl), hfailed]

/-- **What is reported of a listener**: it is at its end, and so is each of its workers, which
were others before. -/
structure Listener.Reported (before after : List Worker) (l : Listener)
    (report : ListenerStatus) : Prop where
  name : report.name = l.name
  failure : report.failure = l.rejection
  isTerminal : report.state.isTerminal = true
  workers : List.Forall₂ (fun (place : Nat) (r : WorkerStatus) =>
    ∃ w w', before[place]? = some w ∧ after[place]? = some w' ∧ w.Reported w' r)
    l.workers report.workers

namespace System

/-- **The engine is completely shut down**: each of its listeners is reported in turn, whoever
was started since so many workers were there is over and out of its group, and all members of
groups were started before. -/
structure ShutDown (first : Nat) (sys : System) (e : Engine) (reports : List ListenerStatus)
    (sys' : System) : Prop where
  engine : sys'.engine = none
  reports : List.Forall₂ (Listener.Reported sys.workers sys'.workers) e.listeners reports
  isOver : ∀ (place : Nat) (w : Worker), first ≤ place → sys'.workers[place]? = some w →
    w.phase.isTerminal = true ∧ w.activity.isOver = true ∧ w.session.subscribed = false
  members : ∀ name m topics, (sys'.broker.group name).members.get? m = some topics →
    ∃ (place : Nat) (w : Worker), place < first ∧ sys'.workers[place]? = some w ∧
      w.session.group = name ∧ w.session.member = m

/-! ### Reports -/

/-- If each element has an image that is related to it, a list is related to its images. -/
theorem forall₂_filterMap {α β : Type} {f : α → Option β} {R : α → β → Prop} {l : List α}
    (h : ∀ a ∈ l, ∃ b, f a = some b ∧ R a b) : List.Forall₂ R l (l.filterMap f) := by
  induction l with
  | nil => exact .nil
  | cons a rest ih =>
    obtain ⟨b, hb, hR⟩ := h a List.mem_cons_self
    rw [List.filterMap_cons_some hb]
    exact .cons hR (ih fun a ha => h a (List.mem_cons_of_mem _ ha))

variable {a b c : System} {e : Engine}

/-- The status of a listener whose workers have final phases is a report of what becomes of
them. -/
theorem reported_statusOf (hr : b.Regular) (hab : a.Remains b) (hbc : b.Remains c)
    (he : b.engine = some e) {l : Listener} (hl : l ∈ e.listeners)
    (hphase : ∀ place ∈ l.workers, ∀ w, b.workers[place]? = some w → w.phase.isTerminal = true) :
    l.Reported a.workers c.workers (b.statusOf l) where
  name := rfl
  failure := rfl
  isTerminal := (hr.listed.terminal_iff he hl).mpr hphase
  workers := by
    show List.Forall₂ _ l.workers ((b.workersOf l).map Worker.status)
    rw [List.forall₂_map_right_iff, workersOf]
    refine forall₂_filterMap fun place hplace => ?_
    have hlt := (hr.listed e he).places l hl place hplace
    have hv := List.getElem?_eq_getElem hlt
    have hu := List.getElem?_eq_getElem (hab.length ▸ hlt)
    obtain ⟨v, hv', huv⟩ := hab.later place _ hu
    obtain rfl := Option.some.inj (hv'.symm.trans hv)
    obtain ⟨w, hw, hvw⟩ := hbc.later place _ hv
    have hsettled := hr.sound.settled _ (List.mem_of_getElem? hv)
    exact ⟨_, hv, _, w, hu, hw, Worker.reported_status hsettled huv hvw (hphase place hplace _ hv)⟩

/-! ### Nothing is left -/

/-- When all listed workers have final phases, nothing is left of what is listed or over. -/
theorem Regular.nothing_left {first : Nat} (hr : b.Regular)
    (hphase : ∀ (place : Nat) (w : Worker), first ≤ place → b.workers[place]? = some w →
      w.phase.isTerminal = true) :
    (∀ (place : Nat) (w : Worker), first ≤ place → b.workers[place]? = some w →
      w.phase.isTerminal = true ∧ w.activity.isOver = true ∧ w.session.subscribed = false) ∧
    ∀ name m topics, (b.broker.group name).members.get? m = some topics →
      ∃ (place : Nat) (w : Worker), place < first ∧ b.workers[place]? = some w ∧
        w.session.group = name ∧ w.session.member = m := by
  have hover : ∀ (place : Nat) (w : Worker), first ≤ place → b.workers[place]? = some w →
      w.activity.isOver = true := fun place w hle hw =>
    (hr.sound.settled w (List.mem_of_getElem? hw)).isOver (hphase place w hle hw)
  constructor
  · intro place w hle hw
    refine ⟨hphase place w hle hw, hover place w hle hw, ?_⟩
    rw [(hr.sound.coherent w (List.mem_of_getElem? hw)).subscribed,
      Activity.isOver_iff.mp (hover place w hle hw)]
    rfl
  · -- Members read or are about to close, so they were started before.
    intro name m topics hm
    obtain ⟨place, w, hw, hgroup, hnumber, hmember⟩ := hr.staffed name m topics hm
    refine ⟨place, w, ?_, hw, hgroup, hnumber⟩
    by_contra hle
    rw [Activity.isOver_iff.mp (hover place w (Nat.le_of_not_lt hle) hw)] at hmember
    cases hmember

/-- Whoever was listed or had a final phase has one when all listed workers have. -/
theorem Remains.phases {first : Nat} (hab : a.Remains b)
    (hfirst : ∀ (place : Nat) (w : Worker), first ≤ place → a.workers[place]? = some w →
      (∃ l ∈ e.listeners, place ∈ l.workers) ∨ w.phase.isTerminal = true)
    (hlisted : ∀ l ∈ e.listeners, ∀ place ∈ l.workers, ∀ w, b.workers[place]? = some w →
      w.phase.isTerminal = true) :
    ∀ (place : Nat) (w : Worker), first ≤ place → b.workers[place]? = some w →
      w.phase.isTerminal = true := by
  intro place w hle hw
  by_cases hplace : ∃ l ∈ e.listeners, place ∈ l.workers
  · obtain ⟨l, hl, hplace⟩ := hplace
    exact hlisted l hl place hplace w hw
  · exact hab.isTerminal (fun v hv => (hfirst place v hle hv).resolve_left hplace) hw

/-! ### Both ways -/

variable {first : Nat} {reports : List ListenerStatus} {sys' : System}

/-- **Whoever waits for its workers is left with none.** -/
theorem ShutsDown.shutDown (h : ShutsDown a reports sys') (hr : a.Regular)
    (he : a.engine = some e)
    (hfirst : ∀ (place : Nat) (w : Worker), first ≤ place → a.workers[place]? = some w →
      (∃ l ∈ e.listeners, place ∈ l.workers) ∨ w.phase.isTerminal = true) :
    ShutDown first a e reports sys' := by
  obtain ⟨e₀, b, he₀, hcollects, rfl, rfl⟩ := h
  obtain rfl := Option.some.inj (he.symm.trans he₀)
  have hasked : a.requestStop.Regular := hr.apply (.requestStop : Event Unit Unit)
  rw [Turn.await_eq_abort] at hcollects
  have hbr : b.Regular := hcollects.goesOn.regular hasked
  have hab : a.Remains b := hr.remains_requestStop.trans (hcollects.goesOn.remains hasked)
  have hbe : b.engine = some e := hab.engine.trans he
  have hlisted : ∀ l ∈ e.listeners, ∀ place ∈ l.workers, ∀ w, b.workers[place]? = some w →
      w.phase.isTerminal = true := fun l hl place hplace =>
    hcollects.isTerminal hasked place (List.mem_flatMap.mpr ⟨l, hl, hplace⟩)
  obtain ⟨hover, hmembers⟩ := hbr.nothing_left (hab.phases hfirst hlisted)
  refine ⟨rfl, ?_, hover, hmembers⟩
  rw [status, hbe, List.forall₂_map_right_iff]
  exact List.forall₂_same.mpr fun l hl =>
    reported_statusOf hbr hab (.refl b) hbe hl (hlisted l hl)

/-- Each listener is reported when its workers have final phases, and they keep them. -/
theorem CutsOff.reported {listeners : List Listener} (h : CutsOff listeners b reports c)
    (hr : b.Regular) (hab : a.Remains b) (he : b.engine = some e)
    (hsub : ∀ l ∈ listeners, l ∈ e.listeners) :
    b.GoesOn c ∧ List.Forall₂ (Listener.Reported a.workers c.workers) listeners reports ∧
      ∀ l ∈ listeners, ∀ place ∈ l.workers, ∀ w, c.workers[place]? = some w →
        w.phase.isTerminal = true := by
  induction h with
  | nil => exact ⟨.refl, .nil, fun l hl => absurd hl List.not_mem_nil⟩
  | @cons l rest reports b b₁ c hcut hothers ih =>
    have hbb₁ := hcut.goesOn
    have hr₁ := hbb₁.regular hr
    have hbb₁' := hbb₁.remains hr
    have he₁ := hbb₁'.engine.trans he
    have hphase := hcut.isTerminal hr
    obtain ⟨hgoes, hreports, hlisted⟩ := ih hr₁ (hab.trans hbb₁') he₁ fun l hl =>
      hsub l (List.mem_cons_of_mem _ hl)
    have hb₁c := hgoes.remains hr₁
    refine ⟨hbb₁.trans hgoes, .cons ?_ hreports, fun l' hl' place hplace w hw => ?_⟩
    · exact reported_statusOf hr₁ (hab.trans hbb₁') hb₁c he₁ (hsub l List.mem_cons_self) hphase
    · rcases List.mem_cons.mp hl' with rfl | hl'
      · exact hb₁c.isTerminal (hphase place hplace) hw
      · exact hlisted l' hl' place hplace w hw

/-- **Whoever cuts its workers off is left with none.** -/
theorem ShutsDownNow.shutDown (h : ShutsDownNow a reports sys') (hr : a.Regular)
    (he : a.engine = some e)
    (hfirst : ∀ (place : Nat) (w : Worker), first ≤ place → a.workers[place]? = some w →
      (∃ l ∈ e.listeners, place ∈ l.workers) ∨ w.phase.isTerminal = true) :
    ShutDown first a e reports sys' := by
  obtain ⟨e₀, c, he₀, hcuts, rfl⟩ := h
  obtain rfl := Option.some.inj (he.symm.trans he₀)
  obtain ⟨hgoes, hreports, hlisted⟩ := hcuts.reported hr (.refl a) he fun l hl => hl
  have hphases := (hgoes.remains hr).phases hfirst hlisted
  obtain ⟨hover, hmembers⟩ := (hgoes.regular hr).nothing_left hphases
  exact ⟨rfl, hreports, hover, hmembers⟩

end System

namespace History

variable {D H : Type}

/-- **Shutting down is complete.** Whatever has happened to an engine since some time, it lists
its registrations as they were submitted. Both ways of shutting it down, whatever else happens
while it waits and however long that takes, and however they are rehearsed, lead to a report
of each registration, in which all workers are at their ends, and leave no session of the
engine in any group: all members were started before that time. -/
theorem shutdown_complete (before own : List (Event D H)) {e₀ : Engine}
    (hbefore : (of before).system.engine = some e₀)
    (hown : ∀ ev ∈ own, ev.replacesEngine = false) :
    ∃ e, (of (before ++ own)).system.engine = some e ∧
      InSubmissionOrder (before ++ own) e.listeners ∧
      (∀ reports sys', (System.ShutsDown (of (before ++ own)).system reports sys' ∨
          System.ShutsDownNow (of (before ++ own)).system reports sys') →
        System.ShutDown (of before).system.workers.length (of (before ++ own)).system e
          reports sys') ∧
      ∀ r : Rehearsal, r.system = (of (before ++ own)).system →
        System.ShutDown (of before).system.workers.length r.system e
          r.shutdown.1 r.shutdown.2.system ∧
        System.ShutDown (of before).system.workers.length r.system e
          r.shutdownReleasing.2.1 r.shutdownReleasing.2.2.system ∧
        (∀ ms, System.ShutDown (of before).system.workers.length r.system e
          (r.shutdownAborting ms).2.1 (r.shutdownAborting ms).2.2.system) ∧
        System.ShutDown (of before).system.workers.length r.system e
          r.shutdownNow.1 r.shutdownNow.2.system := by
  obtain ⟨e, he, hfirst⟩ := listed_or_terminal hbefore hown
  have hregular := regular (before ++ own)
  have hall : ∀ reports sys', (System.ShutsDown (of (before ++ own)).system reports sys' ∨
      System.ShutsDownNow (of (before ++ own)).system reports sys') →
      System.ShutDown (of before).system.workers.length (of (before ++ own)).system e
        reports sys' := by
    rintro reports sys' (h | h)
    · exact h.shutDown hregular he hfirst
    · exact h.shutDown hregular he hfirst
  refine ⟨e, he, inSubmissionOrder _ he, hall, fun r hr => ?_⟩
  rw [← hr] at he hall
  refine ⟨?_, ?_, fun ms => ?_, ?_⟩
  · exact hall _ _ (.inl (Rehearsal.shutsDown_shutdown he))
  · exact hall _ _ (.inl (Rehearsal.shutsDown_shutdownReleasing he))
  · exact hall _ _ (.inl (Rehearsal.shutsDown_shutdownAborting he ms))
  · exact hall _ _ (.inr (Rehearsal.shutsDownNow he))

/-! ### An engine with a bit of everything -/

/-- One worker breaks down, one registration is rejected because its topic is missing, and one
worker waits for records. -/
def mixed : List (Event Unit Unit) :=
  [.createTopic "orders" ⟨2, 1, ∅⟩, .produce secondOrders ⟨none, none, 0, []⟩,
    .submit (orderReader "first"), .work 0 .start, .work 0 .poll,
    .work 0 (.crash "deserializer exploded"),
    .submit { orderReader "second" with topics := [.named "missing"], checksTopics := true },
    .setFaults .none, .submit (orderReader "third"), .work 1 .start, .work 1 .poll]

/-- The same engine, with scripted applications from now on. -/
def mixedRehearsal : Rehearsal := { Rehearsal.empty with system := (of mixed).system }

theorem shutdown_complete_mixed :
    ∃ e, (of mixed).system.engine = some e ∧
      e.listeners.map (·.name) = ["first", "second", "third"] ∧
      InSubmissionOrder mixed e.listeners ∧
      System.ShutDown 0 (of mixed).system e mixedRehearsal.shutdown.1
        mixedRehearsal.shutdown.2.system ∧
      mixedRehearsal.shutdownNow.1.map (fun l => (l.name, l.state)) =
        [("first", .failed), ("second", .failed), ("third", .stopped)] := by
  have hnames : (of mixed).system.engine.map (fun e => e.listeners.map (·.name)) =
      some ["first", "second", "third"] := by decide +kernel
  have hnew : (of ([] : List (Event Unit Unit))).system.engine = some .empty := rfl
  obtain ⟨e, he, horder, -, hrehearsed⟩ := shutdown_complete [] mixed hnew (by decide)
  rw [List.nil_append] at he horder hrehearsed
  rw [he] at hnames
  obtain ⟨hshut, -⟩ := hrehearsed mixedRehearsal rfl
  exact ⟨e, he, Option.some.inj hnames, horder, hshut, by decide +kernel⟩

end History

end StreamDispatch
