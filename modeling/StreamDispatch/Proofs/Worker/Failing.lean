import StreamDispatch.Proofs.System.Gone
import StreamDispatch.Proofs.Worker.Batch
import StreamDispatch.Proofs.Worker.Dispatch

/-!
# Why a worker fails

A worker that fails says why, in the text of its last phase. There are three kinds of such texts.
The broker refused a request, and the text names the request. The policy decided to stop, and the
text begins with what failed. Or the worker broke down, and then somebody else has written the text.
No text is of two kinds, and none names two requests, so that one can tell from the phase alone
whether it was a certain request that failed (`StreamDispatch.Phase.Blames`).

What is shown here is what comes of this for one request, that of storing an offset. A worker makes
it when it has resolved a record, and it is refused only outside of the session's partitions. So as
long as the record at hand is from a partition of the session, no event leads to a failure that
blames this request: neither one that the worker is about to publish
(`StreamDispatch.WorkerEvent.not_heldUp`) nor one that it publishes
(`StreamDispatch.WorkerEvent.failed_cases`).

## Main definitions

* `StreamDispatch.Phase.Blames`: a phase is the failure of a request.
* `StreamDispatch.Activity.HeldUp`: a worker is about to end because an offset was not stored.
-/

namespace StreamDispatch

/-- **A phase is the failure of a request**: it has the text of a fault of such a request. -/
def Phase.Blames (p : Phase) (request : BrokerRequest) : Prop :=
  ∃ fault : BrokerFault, fault.operation = request.name ∧ p = .failed (Error.broker fault).message

/-! ### What the texts tell -/

/-- How the text of a broker's fault begins. -/
theorem Error.toList_message_broker (fault : BrokerFault) :
    (Error.broker fault).message.toList =
      "broker error during ".toList ++ (fault.operation ++ (": " ++ fault.message)).toList := by
  rw [← String.toList_append]
  show ("broker error during " ++ fault.operation ++ ": " ++ fault.message).toList = _
  rw [String.append_assoc, String.append_assoc]

/-- What a policy stops for is a handler, a key or a value. -/
theorem RecordFailure.exists_text_eq (failure : RecordFailure) :
    ∃ c rest, c ∈ ['h', 'k', 'v'] ∧ failure.text.toList = c :: rest := by
  obtain ⟨kind, message, attempt⟩ := failure
  rcases kind with _ | _ | _
  · exact ⟨'h', _, by decide, String.toList_append⟩
  · exact ⟨'k', _, by decide, String.toList_append⟩
  · exact ⟨'v', _, by decide, String.toList_append⟩

/-- The name of a request is not empty, whatever follows it. -/
theorem BrokerRequest.head_name (request : BrokerRequest) (text : String) :
    (request.name ++ text).toList.head? = request.name.toList.head? := by
  rw [String.toList_append]
  cases request <;> rfl

namespace Phase

/-- Of two requests whose names begin differently only one is blamed. -/
theorem not_blames_of_operation {fault : BrokerFault} {request other : BrokerRequest}
    (hfault : fault.operation = other.name)
    (hnames : request.name.toList.head? ≠ other.name.toList.head?) :
    ¬(failed (Error.broker fault).message).Blames request := by
  rintro ⟨fault', hfault', htext⟩
  have hrest := congrArg String.toList (Phase.failed.inj htext)
  rw [Error.toList_message_broker, Error.toList_message_broker] at hrest
  have hhead := congrArg List.head? (List.append_cancel_left hrest)
  rw [hfault, hfault', BrokerRequest.head_name, BrokerRequest.head_name] at hhead
  exact hnames hhead.symm

/-- A text that begins otherwise than those of the broker blames no request. -/
theorem not_blames_of_head {cause : String} {c : Char} {rest : List Char}
    (hcause : cause.toList = c :: rest) (hc : c ≠ 'b') (request : BrokerRequest) :
    ¬(failed cause).Blames request := by
  rintro ⟨fault, -, htext⟩
  rw [Phase.failed.inj htext, Error.toList_message_broker] at hcause
  exact hc (List.cons.inj hcause).1.symm

/-- Only a worker that has failed is to blame somebody for it. -/
theorem Blames.isTerminal {p : Phase} {request : BrokerRequest} (h : p.Blames request) :
    p.isTerminal = true := by
  obtain ⟨fault, -, rfl⟩ := h
  rfl

theorem not_blames_stopped (request : BrokerRequest) : ¬stopped.Blames request := nofun

/-- A policy that stops a worker blames no request. -/
theorem not_blames_failure (failure : RecordFailure) (record : RawRecord)
    (request : BrokerRequest) :
    ¬(failed s!"{failure.text} ({record.place})").Blames request := by
  obtain ⟨c, rest, hc, htext⟩ := failure.exists_text_eq
  have hcause : (s!"{failure.text} ({record.place})").toList =
      c :: (rest ++ " (".toList ++ record.place.toList ++ ")".toList) := by
    show (failure.text ++ " (" ++ record.place ++ ")").toList = _
    rw [String.toList_append, String.toList_append, String.toList_append, htext]
    rfl
  refine not_blames_of_head hcause ?_ request
  rintro rfl
  revert hc
  decide

/-- Nor does a breakdown. -/
theorem not_blames_breakdown (message : String) (request : BrokerRequest) :
    ¬(failed (Turn.breakdownText message)).Blames request :=
  not_blames_of_head (String.toList_append.trans (congrArg (· ++ _) String.toList_append))
    (by decide) request

end Phase

/-! ### What the broker refuses -/

namespace Session

variable {s : Session} {b : Broker} {fault : BrokerFault}

/-- A fetch that is refused is a poll that is. -/
theorem operation_of_fetch {room : Nat} (h : s.fetch room b = .error fault) :
    fault.operation = BrokerRequest.name .poll := by
  rw [fetch] at h
  split at h
  · cases h
    rfl
  · split at h
    · cases h
      rfl
    · cases h

theorem operation_of_commit {offsets : List CommitOffset} {mode : CommitMode}
    (h : s.commit offsets mode b = .error fault) :
    fault.operation = BrokerRequest.name .commit := by
  rw [commit] at h
  split at h
  · cases h
    rfl
  · split at h
    · split at h
      · cases h
      · cases h
        rfl
    · cases h
      rfl

/-- An offset in a partition of the session is stored. -/
theorem store_of_mem {o : CommitOffset} (h : o.partition ∈ s.assigned) :
    s.store [o] = (.ok (), { s with stored := s.stored.insert o.partition o.offset }) := by
  rw [store_one, if_pos (List.contains_iff_mem.mpr h)]

end Session

/-! ### What a worker is about to publish -/

/-- **A worker is about to end because an offset was not stored.** -/
def Activity.HeldUp (a : Activity) : Prop := ∃ p, a = .closing p ∧ p.Blames .storeOffsets

namespace Turn

variable {t : Turn} {job : Job}

theorem not_heldUp_finish {p : Phase} (hp : ¬p.Blames .storeOffsets) :
    ¬(t.finish p).worker.activity.HeldUp := by
  rintro ⟨q, ⟨⟩, hq⟩
  exact hp hq

theorem not_heldUp_of_ne {a : Activity} (ha : ∀ p, a ≠ .closing p) : ¬a.HeldUp := by
  rintro ⟨p, hp, -⟩
  exact ha p hp

theorem not_heldUp_commitThen (offsets : List CommitOffset) {next : Turn → Turn}
    (hnext : ∀ t₁ : Turn, ¬(next t₁).worker.activity.HeldUp) :
    ¬(t.commitThen offsets next).worker.activity.HeldUp := by
  rw [commitThen]
  split
  next => exact hnext _
  next fault hcommit =>
    exact not_heldUp_finish
      (Phase.not_blames_of_operation (Session.operation_of_commit hcommit) (by decide))

theorem not_heldUp_commitResolvedThen (resolved : Dict TopicPartition Int) {next : Turn → Turn}
    (hnext : ∀ t₁ : Turn, ¬(next t₁).worker.activity.HeldUp) :
    ¬(t.commitResolvedThen resolved next).worker.activity.HeldUp := by
  rw [commitResolvedThen]
  split
  · exact hnext t
  · exact not_heldUp_commitThen _ hnext

theorem not_heldUp_nextRecord : ¬(t.nextRecord job).worker.activity.HeldUp := by
  rw [nextRecord]
  split
  · exact not_heldUp_commitResolvedThen _ fun _ => not_heldUp_of_ne (by rintro _ ⟨⟩)
  · exact not_heldUp_of_ne (by rintro _ ⟨⟩)

/-- **A record of a partition of the session is resolved without holding up the worker.** -/
theorem not_heldUp_resolve (h : job.record.topicPartition ∈ t.worker.session.assigned) :
    ¬(t.resolve job).worker.activity.HeldUp := by
  rw [resolve]
  split
  · exact not_heldUp_commitThen _ fun _ => not_heldUp_nextRecord
  · exact not_heldUp_nextRecord
  · rw [Session.store_of_mem h]
    exact not_heldUp_nextRecord

theorem not_heldUp_conclude (h : job.record.topicPartition ∈ t.worker.session.assigned)
    (ending : Ending) : ¬(t.conclude job ending).worker.activity.HeldUp := by
  rcases ending with _ | _ | failure | _
  · exact not_heldUp_resolve h
  · exact not_heldUp_resolve h
  · exact not_heldUp_commitResolvedThen _ fun _ =>
      not_heldUp_finish (Phase.not_blames_failure failure job.record _)
  · exact not_heldUp_commitResolvedThen _ fun _ => not_heldUp_finish (Phase.not_blames_stopped _)

theorem not_heldUp_fetch (now deadline : Nat) :
    ¬(t.fetch now deadline).worker.activity.HeldUp := by
  rw [fetch]
  split
  next fault hfetch =>
    exact not_heldUp_finish
      (Phase.not_blames_of_operation (Session.operation_of_fetch hfetch) (by decide))
  next =>
    simp only
    split <;> exact not_heldUp_of_ne (by rintro _ ⟨⟩)
  next => exact not_heldUp_of_ne (by rintro _ ⟨⟩)

theorem not_heldUp_poll (h : ¬t.worker.activity.HeldUp) (now : Nat) :
    ¬(t.poll now).worker.activity.HeldUp := by
  rw [poll]
  split
  · split
    · exact not_heldUp_finish (Phase.not_blames_stopped _)
    · exact not_heldUp_fetch _ _
  · split
    · exact not_heldUp_finish (Phase.not_blames_stopped _)
    · split
      · exact not_heldUp_fetch _ _
      · exact h
  · exact h

end Turn

theorem Activity.closing_of_standing {a : Activity} (h : a.standing = .closing) :
    ∃ p, a = .closing p := by
  cases a <;> first | exact ⟨_, rfl⟩ | cases h

/-- A worker that is gone was so before, or was about to leave, or was cut off. -/
theorem Move.cases_of_gone {plan : Plan} {d d' : Desk} {deed : Deed} (h : Move plan d deed d')
    (hgone : d'.standing = .gone) :
    d.standing = .gone ∨ d.standing = .closing ∨ deed = .cutOff := by
  cases h with
  | idle => exact .inl hgone
  | leave => exact .inr (.inl rfl)
  | cutOff => exact .inr (.inr rfl)
  | _ => cases hgone

namespace WorkerEvent

variable {t : Turn}

/-- Whoever is cut off is over at once. -/
theorem isOver_of_cutOff {ev : WorkerEvent} (hcut : t.worker.isCutOffBy ev = true) (now : Nat) :
    (ev.apply now t).worker.activity.isOver = true := by
  cases ev with
  | crash message =>
    rw [apply, Turn.crash, if_pos (by exact hcut)]
    rfl
  | abort => exact t.isOver_abort
  | _ => cases hcut

/-- **No event holds up a worker** whose record at hand is from a partition of its session. -/
theorem not_heldUp (ev : WorkerEvent) (now : Nat)
    (hassigned : ∀ job stage, t.worker.activity = .working job stage →
      job.record.topicPartition ∈ t.worker.session.assigned)
    (h : ¬t.worker.activity.HeldUp) : ¬(ev.apply now t).worker.activity.HeldUp := by
  by_cases hover : (ev.apply now t).worker.activity.isOver = true
  · refine Turn.not_heldUp_of_ne fun p hp => ?_
    rw [hp] at hover
    cases hover
  by_cases hworking : ∃ job stage, t.worker.activity = .working job stage
  · obtain ⟨job, stage, hactivity⟩ := hworking
    have hcut : t.worker.isCutOffBy ev = false :=
      Bool.eq_false_iff.mpr fun hcut => hover (isOver_of_cutOff hcut now)
    have hatHand : t.AtHand job job.attempt stage t.worker.stopping t :=
      ⟨hactivity, rfl, rfl, rfl⟩
    have hadvances := hatHand.apply now hcut
    generalize t.worker.ending? ev = ending at hadvances
    generalize ev.apply now t = t' at hadvances
    rcases hadvances with ⟨-, hgoes⟩ | ⟨-, -, hsession⟩
    · rw [hgoes.activity]
      exact Turn.not_heldUp_of_ne (by rintro _ ⟨⟩)
    · refine Turn.not_heldUp_conclude ?_ _
      rw [hsession]
      exact hassigned job stage hactivity
  -- Without a record at hand, only polling leads to an end that was not there before.
  · have hrests : ∀ job stage, t.worker.activity ≠ .working job stage :=
      fun job stage hactivity => hworking ⟨job, stage, hactivity⟩
    cases ev with
    | poll => exact Turn.not_heldUp_poll h now
    | start =>
      rw [apply, Turn.start, Turn.startWith]
      split
      · exact Turn.not_heldUp_of_ne (by rintro _ ⟨⟩)
      · exact h
    | close =>
      rw [apply, Turn.close]
      split
      · exact Turn.not_heldUp_of_ne (by rintro _ ⟨⟩)
      · exact h
    | crash message =>
      rw [apply, Turn.crash]
      split
      · exact Turn.not_heldUp_of_ne (by rintro _ ⟨⟩)
      · exact h
    | join => rwa [apply, t.activity_join]
    | abort => exact absurd t.isOver_abort hover
    | _ => rwa [(Turn.rests_apply hrests now rfl).2.2]

/-! ### What a worker publishes -/

variable {cause : String}

/-- Whoever is cut off is stopped, or publishes nothing. -/
theorem phase_of_cutOff {ev : WorkerEvent} (hcut : t.worker.isCutOffBy ev = true) (now : Nat)
    (hphase : t.worker.phase.isTerminal = false) :
    (ev.apply now t).worker.phase = .stopped ∨ (ev.apply now t).worker.phase = t.worker.phase := by
  cases ev with
  | crash message =>
    rw [apply, Turn.crash, if_pos (by exact hcut)]
    exact .inr rfl
  | abort =>
    rw [apply, Turn.abort]
    split
    next p hactivity =>
      rw [Worker.isCutOffBy, hactivity] at hcut
      cases hcut
    next =>
      split
      next hover =>
        -- There is nothing to cut off of a worker that is over.
        cases hactivity : t.worker.activity <;> simp_all [Worker.isCutOffBy, Activity.isOver]
      next =>
        have hleft : ¬(t.leaveGroup.enter .cancelled).worker.phase.isTerminal = true :=
          Bool.eq_false_iff.mp hphase
        rw [Turn.reportEnd, if_neg hleft]
        exact .inl rfl
  | _ => cases hcut

/-- A worker that is about to publish a phase publishes that one or goes on being about to. -/
theorem phase_of_closing {p : Phase} (h : t.worker.activity = .closing p) (ev : WorkerEvent)
    (now : Nat) :
    (ev.apply now t).worker.activity = .closing p ∨ (ev.apply now t).worker.phase = p := by
  have hrests : ∀ job stage, t.worker.activity ≠ .working job stage := by simp [h]
  cases ev with
  | close => exact .inr (by rw [apply, Turn.close, h]; rfl)
  | abort => exact .inr (by rw [apply, Turn.abort, h]; simp only; rw [Turn.close, h]; rfl)
  | join => exact .inl (by rw [apply, t.activity_join, h])
  | start => exact .inl (by simp [apply, Turn.start, Turn.startWith, h])
  | poll => exact .inl (by simp [apply, Turn.poll, h])
  | crash message => exact .inl (by simp [apply, Turn.crash, Turn.runsApplication, h])
  | _ => exact .inl (by rw [(Turn.rests_apply hrests now rfl).2.2, h])

/-- **Where a failure comes from**: the worker had failed with it before, or was about to, or it
broke down. -/
theorem failed_cases (hs : t.worker.Settled) (ev : WorkerEvent) (now : Nat)
    (h : (ev.apply now t).worker.phase = .failed cause) :
    t.worker.phase = .failed cause ∨ t.worker.activity = .closing (.failed cause) ∨
      ∃ message, cause = Turn.breakdownText message := by
  have hpasses := ev.passes now hs
  have hterminal : (ev.apply now t).worker.phase.isTerminal = true := by
    rw [h]
    rfl
  have hover' := hpasses.settled.isOver hterminal
  by_cases hover : t.worker.activity.isOver = true
  · have hactivity := ev.activity_of_over now hover
    by_cases hphase : t.worker.phase.isTerminal = true
    · exact .inl ((hpasses.announces.final hphase).symm.trans h)
    -- It was over without a final phase, so that it has broken down.
    · have hunnoticed : t.worker.isUnnoticed = true := by simp [Worker.isUnnoticed, hover, hphase]
      obtain ⟨message, hmessage⟩ := hs.panicked_of_unnoticed hunnoticed
      have hbroken := hpasses.settled.broken message (hactivity.trans hmessage) hterminal
      exact .inr (.inr ⟨message, Phase.failed.inj (h.symm.trans hbroken)⟩)
  have hphase := hs.not_terminal (Bool.eq_false_iff.mpr hover)
  by_cases hclosing : ∃ p, t.worker.activity = .closing p
  · obtain ⟨p, hp⟩ := hclosing
    rcases phase_of_closing hp ev now with hstill | hpublished
    · rw [hstill] at hover'
      cases hover'
    · rw [← hpublished, h] at hp
      exact .inr (.inl hp)
  -- What else ends a worker cuts it off, and that is no failure.
  · exfalso
    obtain ⟨deed, hdid, -, hcut⟩ := ev.did now t
    have hcutOff : deed = .cutOff := by
      rcases hdid.move.cases_of_gone (Activity.isOver_iff.mp hover') with hgone | hcloses | hcutOff
      · exact absurd (Activity.isOver_iff.mpr hgone) hover
      · exact absurd (Activity.closing_of_standing hcloses) hclosing
      · exact hcutOff
    have hfailed := phase_of_cutOff (hcut hcutOff) now hphase
    rw [h] at hfailed
    rcases hfailed with hstopped | hfailed
    · cases hstopped
    · rw [← hfailed] at hphase
      cases hphase

end WorkerEvent

end StreamDispatch
