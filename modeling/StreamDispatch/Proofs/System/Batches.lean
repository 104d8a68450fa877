import StreamDispatch.Proofs.System.Membership
import StreamDispatch.Proofs.Worker.Course

/-!
# Batches in a history

A batch and its course are about one worker and its turns. In a history this worker is one of
many, and anything may happen between two of its events. Here the two are put together. When
a worker polls and has records at hand then, all is as it is assumed of the beginning of a
batch. From there on every event of the history takes the batch on its course, as long as the
others leave the worker's group alone, and what the history says to be resolved is what the
course says.

## Main definitions

* `StreamDispatch.System.Spares`: an event does not interfere with the batch of a worker.

## Main statements

* `StreamDispatch.History.hasBatch_of_poll`: a poll that returns records begins a batch.
* `StreamDispatch.History.works_of_events`: what happens then is the course of the batch.
-/

namespace StreamDispatch

/-! ### A poll that returns records -/

namespace Turn

variable {t : Turn} {now deadline : Nat} {job : Job} {stage : Stage}

/-- A fetch that leads to work has returned the records that are worked on. -/
theorem fetch_of_working (h : (t.fetch now deadline).worker.activity = .working job stage) :
    stage = .key ∧ job.attempt = 1 ∧ job.resolved = ∅ ∧
      t.worker.session.fetch t.worker.plan.listener.maxPollRecords t.broker =
        .ok (job.record :: job.rest, (t.fetch now deadline).worker.session,
          (t.fetch now deadline).broker) ∧
      (t.fetch now deadline).worker.plan = t.worker.plan := by
  unfold fetch at h ⊢
  cases hfetch : t.worker.session.fetch t.worker.plan.listener.maxPollRecords t.broker with
  | error fault =>
    simp only [hfetch] at h
    cases h
  | ok fetched =>
    obtain ⟨_ | ⟨r, rest⟩, s, b⟩ := fetched
    · simp only [hfetch] at h
      split at h <;> cases h
    · simp only [hfetch] at h
      cases h
      exact ⟨rfl, rfl, rfl, rfl, rfl⟩

/-- So has a poll, unless the worker had been at work already. -/
theorem poll_of_working (hidle : ∀ job stage, t.worker.activity ≠ .working job stage)
    (h : (t.poll now).worker.activity = .working job stage) :
    ∃ deadline, t.poll now = t.fetch now deadline ∧ t.worker.activity.standing = .reading [] ∅ := by
  unfold poll at h ⊢
  split at h
  next hactivity =>
    split at h
    · cases h
    next hgoes =>
      exact ⟨_, by rw [if_neg hgoes], by rw [hactivity]; rfl⟩
  next hactivity =>
    split at h
    · cases h
    next hgoes =>
      split at h
      next hsignal => exact ⟨_, by rw [if_neg hgoes, if_pos hsignal], by rw [hactivity]; rfl⟩
      next => exact absurd h (hidle _ _)
  next => exact absurd h (hidle _ _)

/-- **A poll that returns records begins a batch**, for a worker in good order. -/
theorem hasBatch_poll
    (hcoherent : Coherent t.worker.plan t.worker.activity.standing t.worker.session)
    (hmember : t.worker.activity.standing.isMember = true → ∃ topics,
      (t.broker.group t.worker.session.group).members.get? t.worker.session.member = some topics)
    (haccepts : t.broker.faults.commit = false)
    (hidle : ∀ job stage, t.worker.activity ≠ .working job stage)
    (h : (t.poll now).worker.activity = .working job stage) :
    (t.poll now).HasBatch (job.record :: job.rest) := by
  obtain ⟨deadline, hpoll, hstanding⟩ := poll_of_working hidle h
  have hreads : t.worker.activity.standing.isMember = true := by rw [hstanding]; rfl
  obtain ⟨topics, htopics⟩ := hmember hreads
  obtain ⟨g, hg⟩ := Broker.exists_of_member htopics
  rw [hpoll] at h ⊢
  obtain ⟨rfl, hattempt, hresolved, hfetch, hplan⟩ := fetch_of_working h
  have hsame := Session.same_fetch hfetch
  have hdeal := Session.sameDeal_fetch hfetch
  exact
    { atHand := ⟨job.record, job.rest, rfl, by rw [h, ← hattempt, ← hresolved]⟩
      joined := (Session.subscribed_fetch hfetch).trans (hcoherent.subscribed.trans hreads)
      member := by
        rw [IsMember, hsame.group, hsame.member, hdeal.members, htopics]
        rfl
      seen := by
        rw [hsame.group]
        exact Session.seen_fetch hfetch hg
      assigned := fun r hr => hcoherent.tidy.mem_assigned_of_fetch hfetch hr
      stored := fun tp => by
        refine Option.eq_none_iff_forall_ne_some.mpr fun c hc => ?_
        obtain ⟨hmanual, hbefore⟩ := Session.stored_fetch hcoherent.tidy hfetch hg hc
        have hplan : t.worker.plan.strategy ≠ .auto := by
          intro hplan
          rw [hcoherent.auto, hplan] at hmanual
          cases hmanual
        cases (hcoherent.stores hplan tp).symm.trans hbefore
      auto := by
        rw [hsame.autoCommit, hplan]
        exact hcoherent.auto
      accepts := by rw [(Session.sameBut_fetch hfetch).faults]; exact haccepts }

end Turn


/-- A worker with its surroundings. -/
def Worker.turnIn (w : Worker) (sys : System) : Turn := ⟨w, sys.broker, sys.samples⟩

/-- **Every batch begins like this.** Whatever has happened before, when a worker polls that was
not at work, and then is at work, it has a batch before it. -/
theorem History.hasBatch_of_poll {D H : Type} (events : List (Event D H)) {place : Nat}
    {w w' : Worker} {job : Job} {stage : Stage}
    (hw : (of events).system.workers[place]? = some w)
    (hidle : ∀ job stage, w.activity ≠ .working job stage)
    (haccepts : (of events).system.broker.faults.commit = false)
    (hw' : (of (events ++ [.work place .poll])).system.workers[place]? = some w')
    (hworking : w'.activity = .working job stage) :
    (w'.turnIn (of (events ++ [.work place .poll])).system).HasBatch (job.record :: job.rest) := by
  rw [system_concat] at hw' ⊢
  rw [System.apply, System.workers_turn hw, if_pos rfl] at hw'
  obtain rfl := Option.some.inj hw'
  rw [System.apply, System.turn_eq hw]
  exact Turn.hasBatch_poll ((sound events).coherent w (List.mem_of_getElem? hw))
    ((enrolled events).members w (List.mem_of_getElem? hw)) haccepts hidle hworking

/-! ### What happens then -/

namespace System

variable {D H : Type} {sys : System} {place : Nat} {w : Worker}

/-- **An event does not interfere with the batch of a worker**: it is part of the batch, or it
is somebody else's and touches neither the worker's group nor the commits of its registration,
and requests do not begin to fail. -/
inductive Spares (sys : System) (place : Nat) (w : Worker) : Event D H → Prop
  | own {ev : WorkerEvent} (h : ev.isPartOfBatch = true) : Spares sys place w (.work place ev)
  | aside {e : Event D H} (hothers : ∀ ev, e ≠ .work place ev)
      (group : (sys.apply e).broker.group w.session.group = sys.broker.group w.session.group)
      (entries : (sys.apply e).broker.entriesOf w.session.group =
        sys.broker.entriesOf w.session.group)
      (faults : (sys.apply e).broker.faults.commit = sys.broker.faults.commit)
      (commits : (sys.apply e).samples.filter (Sample.isCommitOf w.plan.registration) =
        sys.samples.filter (Sample.isCommitOf w.plan.registration)) :
      Spares sys place w e

/-- What somebody else resolves is not resolved at this place. -/
theorem resolution?_of_others {e : Event D H} (hothers : ∀ ev, e ≠ .work place ev) :
    (sys.resolution? e).toList.filter (·.worker = place) = [] := by
  refine List.filter_eq_nil_iff.mpr fun resolution hresolution hplace => ?_
  rw [Option.mem_toList] at hresolution
  cases e with
  | work actor ev =>
    obtain ⟨v, -, hv⟩ := Option.bind_eq_some_iff.mp hresolution
    obtain ⟨r, -, rfl⟩ := Option.map_eq_some_iff.mp hv
    exact hothers ev (congrArg (Event.work · ev) (of_decide_eq_true hplace))
  | _ => cases hresolution

/-- That the worker at a place has resolved a record. -/
def resolutionAt (place : Nat) (group : String) (r : RawRecord) : Resolution :=
  ⟨place, group, r.topicPartition, r.offset⟩

/-- What an event resolves at its own place. -/
theorem resolution?_of_own (hw : sys.workers[place]? = some w) (ev : WorkerEvent) :
    ((sys.resolution? (.work place ev : Event D H)).toList.filter (·.worker = place)) =
      (resolvedOf (w.verdict? ev).toList).map (resolutionAt place w.session.group) := by
  rw [resolution?, hw, Option.bind_some, w.resolves?_eq, resolvedOf]
  cases w.verdict? ev with
  | none => rfl
  | some d =>
    cases hd : d.2.isResolved <;> simp [hd, resolutionAt, Option.filter]

/-- **One more event of a history** takes a batch on its course. -/
theorem works_apply (hsound : sys.Sound) (hw : sys.workers[place]? = some w) {t : Turn}
    {done : List (RawRecord × Verdict)} (hworks : t.Works done (w.turnIn sys)) {e : Event D H}
    (hspares : sys.Spares place w e) :
    ∃ more w', (sys.apply e).workers[place]? = some w' ∧
      t.Works (done ++ more) (w'.turnIn (sys.apply e)) ∧
      (sys.resolution? e).toList.filter (·.worker = place) =
        (resolvedOf more).map (resolutionAt place w.session.group) := by
  cases hspares with
  | @own ev hev =>
    refine ⟨(w.verdict? ev).toList, (ev.apply sys.now (w.turnIn sys)).worker, ?_, ?_,
      resolution?_of_own hw ev⟩
    · rw [apply, workers_turn hw, if_pos rfl]
      rfl
    · rw [apply, turn_eq hw]
      exact hworks.event sys.now hev
  | aside hothers group entries faults commits =>
    obtain ⟨w', hw', -⟩ := worker_apply hsound e hw
    refine ⟨[], w', hw', ?_, resolution?_of_others hothers⟩
    rw [List.append_nil]
    rcases becomes hsound.settled e hw' with
      ⟨hnone, -⟩ | ⟨v, hv, hkept, -⟩ | ⟨v, ev, deed, rfl, -⟩
    · cases hnone.symm.trans hw
    · obtain rfl := Option.some.inj (hw.symm.trans hv)
      refine hworks.aside ⟨hkept.plan, hkept.session, group, entries, faults, ?_⟩ hkept.activity
      rw [Turn.commits, show (w'.turnIn _).registration = w.plan.registration by
        rw [← hkept.plan]; rfl]
      exact commits
    · exact absurd rfl (hothers ev)

end System

namespace History

/-- What the worker at a place has resolved. -/
def resolvedBy (h : History) (place : Nat) : List Resolution :=
  h.resolved.filter (·.worker = place)

/-- **What happens to a worker at work is the course of its batch**, as long as nothing
interferes, and its verdicts tell what it has resolved. -/
theorem works_of_events {D H : Type} (events more : List (Event D H)) {place : Nat} {w : Worker}
    (hw : (of events).system.workers[place]? = some w)
    (hspares : ∀ before e after v, more = before ++ e :: after →
      (of (events ++ before)).system.workers[place]? = some v →
        (of (events ++ before)).system.Spares place v e) :
    ∃ done w', (of (events ++ more)).system.workers[place]? = some w' ∧
      w.session.Same w'.session ∧
      (w.turnIn (of events).system).Works done (w'.turnIn (of (events ++ more)).system) ∧
      (of (events ++ more)).resolvedBy place = (of events).resolvedBy place ++
        (resolvedOf done).map (System.resolutionAt place w.session.group) := by
  induction more using List.reverseRecOn with
  | nil =>
    rw [List.append_nil]
    exact ⟨[], w, hw, .refl _, .begins, (List.append_nil _).symm⟩
  | append_singleton more e ih =>
    obtain ⟨done, v, hv, hsame, hworks, hresolved⟩ := ih fun before e' after v hmore =>
      hspares before e' (after ++ [e]) v (by rw [hmore, List.append_assoc]; rfl)
    obtain ⟨more', w', hw', hworks', hresolved'⟩ :=
      System.works_apply (sound _) hv hworks (hspares more e [] v rfl hv)
    obtain ⟨u, hu, hkept⟩ := System.worker_apply (sound _) e hv
    obtain rfl := Option.some.inj (hu.symm.trans hw')
    rw [← List.append_assoc, of_concat]
    refine ⟨done ++ more', u, hw', hsame.trans hkept, hworks', ?_⟩
    rw [resolvedBy, extend, List.filter_append, ← resolvedBy, hresolved, hresolved', hsame.group,
      resolvedOf, resolvedOf, resolvedOf, List.filter_append, List.map_append, List.map_append,
      List.append_assoc]

end History

end StreamDispatch
