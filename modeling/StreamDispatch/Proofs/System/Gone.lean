import StreamDispatch.Proofs.System.Membership

/-!
# Workers that are gone

A worker that is over has left its group, does nothing any more, and stays what it is. That it
has left is a fact about the group, and it needs a converse of what is known about members so
far. Whoever reads is a member (`StreamDispatch.System.Enrolled`); here it is shown that nobody
else is one (`StreamDispatch.System.Staffed`), since a worker leaves its group with its last
move and no other worker has its number.

## Main statements

* `StreamDispatch.History.staffed`: all members are workers that read or are about to close.
* `StreamDispatch.System.broker_of_over`: a worker that is over never touches the broker.
* `StreamDispatch.History.later_append`: a worker stays at its place, with its end if it has
  come to it.
* `StreamDispatch.Turn.isTerminal_abort`: a worker that is cut off has a final phase.
-/

namespace StreamDispatch

theorem Activity.isOver_iff {a : Activity} : a.isOver = true ↔ a.standing = .gone := by
  cases a <;> simp [isOver, standing]

/-- After leaving, a session is not a member, unless it was one without having joined. -/
theorem Session.get?_members_leave (s : Session) (b : Broker)
    (h : s.subscribed = false → (b.group s.group).members.get? s.member = none) :
    ((s.leave b).2.group s.group).members.get? s.member = none := by
  cases hsub : s.subscribed with
  | false =>
    rw [leave, hsub]
    exact h hsub
  | true =>
    rcases leave_group s b with ⟨hmembers, -⟩ | ⟨hmembers, -⟩
    · -- The members are as before only if there is no such group.
      cases hg : b.groups.get? s.group with
      | some g =>
        rw [group_leave hsub hg]
        exact (Dict.get?_erase _ _ _).trans (if_pos rfl)
      | none =>
        rw [hmembers, Broker.group, Dict.getD, hg]
        rfl
    · rw [hmembers, Dict.get?_erase, if_pos rfl]

/-! ### Workers that are over -/

theorem Turn.activity_reportEnd (t : Turn) (p : Phase) :
    (t.reportEnd p).worker.activity = t.worker.activity := by
  rw [reportEnd]
  split <;> rfl

theorem Turn.activity_join (t : Turn) : t.join.worker.activity = t.worker.activity := by
  rw [join]
  split
  · exact t.activity_reportEnd _
  · rfl

/-- Whoever is over stays what it is. -/
theorem WorkerEvent.activity_of_over (ev : WorkerEvent) (now : Nat) {t : Turn}
    (hover : t.worker.activity.isOver = true) :
    (ev.apply now t).worker.activity = t.worker.activity := by
  cases ev with
  | join => exact t.activity_join
  | abort =>
    show t.abort.worker.activity = _
    rw [Turn.abort]
    split
    next p hactivity =>
      rw [hactivity] at hover
      cases hover
    next => rw [if_pos hover, t.activity_join]
  | requestStop => rfl
  | abandon => rfl
  | _ =>
    -- Nothing else fits a worker that is over.
    cases hactivity : t.worker.activity <;>
      simp_all [Activity.isOver, apply, Turn.start, Turn.startWith, Turn.poll, Turn.keyDecoded,
        Turn.valueDecoded, Turn.handled, Turn.decided, Turn.resume, Turn.close, Turn.crash,
        Turn.runsApplication]

/-- Whoever is cut off is over. -/
theorem Turn.isOver_abort (t : Turn) : t.abort.worker.activity.isOver = true := by
  rw [abort]
  split
  next p hactivity =>
    rw [close, hactivity]
    rfl
  next =>
    split
    next hover => rw [activity_join, hover]
    next => rw [activity_reportEnd]; rfl

/-- **Whoever is cut off has a final phase.** -/
theorem Turn.isTerminal_abort {t : Turn} (hs : t.worker.Settled) :
    t.abort.worker.phase.isTerminal = true := by
  have hnoticed := (passes_abort hs).unnoticed
  have hbreaks : t.worker.breaksDownBy .abort = false := rfl
  rw [hbreaks, WorkerEvent.takesNote, Bool.not_true, Bool.and_false, Bool.or_false,
    Worker.isUnnoticed, t.isOver_abort, Bool.true_and, Bool.not_eq_false'] at hnoticed
  exact hnoticed

namespace Move

variable {plan : Plan} {d d' : Desk} {deed : Deed}

/-- **Whoever is listed as a member still reads or is about to close**, if it was so before. -/
theorem isMember_of_listed (h : Move plan d deed d')
    (hc : Coherent plan d.standing d.session)
    (hbefore : ∀ topics, (d.broker.group d.session.group).members.get? d.session.member =
      some topics → d.standing.isMember = true) {topics : List String}
    (hlisted : (d'.broker.group d.session.group).members.get? d.session.member =
      some topics) : d'.standing.isMember = true := by
  -- Whoever leaves is not listed afterwards.
  have hleft : ((d.session.leave d.broker).2.group d.session.group).members.get?
      d.session.member = none := by
    refine d.session.get?_members_leave d.broker fun hsub => ?_
    rw [hc.subscribed] at hsub
    refine Option.eq_none_iff_forall_ne_some.mpr fun topics htopics => ?_
    rw [hbefore topics htopics] at hsub
    cases hsub
  cases h with
  | idle => exact hbefore topics hlisted
  | leave s b => cases hleft.symm.trans hlisted
  | cutOff _ s b => cases hleft.symm.trans hlisted
  | _ => rfl

end Move

namespace System

variable {sys sys' : System} {place : Nat} {w w' : Worker}

/-! ### Nobody else is a member -/

/-- **All members of groups are workers that read or are about to close.** -/
def Staffed (sys : System) : Prop :=
  ∀ name m topics, (sys.broker.group name).members.get? m = some topics →
    ∃ (place : Nat) (w : Worker), sys.workers[place]? = some w ∧ w.session.group = name ∧
      w.session.member = m ∧ w.activity.standing.isMember = true

/-- One more event. -/
theorem Staffed.apply {D H : Type} (h : sys.Staffed) (hsound : sys.Sound)
    (henrolled : sys.Enrolled) (e : Event D H) : (sys.apply e).Staffed := by
  intro name m topics hm
  rcases apply_cases hsound.settled e with
    ⟨haside, -⟩ | ⟨place, w, ev, deed, w', -, hacts⟩
  · rw [haside.members] at hm
    obtain ⟨i, v, hv, hgroup, hnumber, hmember⟩ := h name m topics hm
    obtain ⟨v', hv', hkept⟩ := haside.kept i v hv
    rw [← hkept.session] at hgroup hnumber
    rw [← hkept.activity] at hmember
    exact ⟨i, v', hv', hgroup, hnumber, hmember⟩
  · have hmove := hacts.move
    by_cases hself : name = w.session.group ∧ m = w.session.member
    · obtain ⟨rfl, rfl⟩ := hself
      refine ⟨place, w', by rw [hacts.after, if_pos rfl], hmove.same.group, hmove.same.member, ?_⟩
      refine hmove.isMember_of_listed
        (hsound.coherent w (List.mem_of_getElem? hacts.before)) (fun topics htopics => ?_) hm
      obtain ⟨i, v, hv, -, hnumber, hmember⟩ := h _ _ _ htopics
      obtain rfl : i = place := henrolled.eq_of_member hv hacts.before hnumber
      obtain rfl : v = w := Option.some.inj (hv.symm.trans hacts.before)
      exact hmember
    · -- Whoever else is a member was one before, and is left alone.
      have hold : (sys.broker.group name).members.get? m = some topics := by
        by_cases hname : name = w.session.group
        · subst hname
          rw [← hm]
          exact (hmove.members_of_ne fun hnumber => hself ⟨rfl, hnumber⟩).symm
        · have hgroup : (sys.apply e).broker.group name = sys.broker.group name :=
            hmove.sameBut.group name hname
          rwa [hgroup] at hm
      obtain ⟨i, v, hv, hgroup, hnumber, hmember⟩ := h name m topics hold
      have hi : i ≠ place := by
        rintro rfl
        obtain rfl : v = w := Option.some.inj (hv.symm.trans hacts.before)
        exact hself ⟨hgroup.symm, hnumber.symm⟩
      exact ⟨i, v, by rw [hacts.after, if_neg hi, hv], hgroup, hnumber, hmember⟩

end System

/-- **One worker at two times**: it has the same plan and the same session, and its end is still
the same. -/
structure Worker.Later (w w' : Worker) : Prop where
  plan : w'.plan = w.plan
  session : w.session.Same w'.session
  final : w.phase.isTerminal = true → w'.phase = w.phase
  isOver : w.activity.isOver = true → w'.activity = w.activity

namespace Worker.Later

variable {u w w' : Worker}

theorem refl (w : Worker) : w.Later w := ⟨rfl, .refl _, fun _ => rfl, fun _ => rfl⟩

theorem trans (h : u.Later w) (h' : w.Later w') : u.Later w' where
  plan := h'.plan.trans h.plan
  session := h.session.trans h'.session
  final hphase := by rw [h'.final (by rw [h.final hphase, hphase]), h.final hphase]
  isOver hover := by rw [h'.isOver (by rw [h.isOver hover, hover]), h.isOver hover]

theorem isTerminal (h : w.Later w') (hphase : w.phase.isTerminal = true) :
    w'.phase.isTerminal = true := by rw [h.final hphase, hphase]

end Worker.Later

/-- A worker stays at its place, with its end if it has come to it. -/
theorem System.later_apply {D H : Type} {sys : System} (hsound : sys.Sound) (e : Event D H)
    {place : Nat} {w : Worker} (hw : sys.workers[place]? = some w) :
    ∃ w', (sys.apply e).workers[place]? = some w' ∧ w.Later w' := by
  rcases apply_cases hsound.settled e with ⟨haside, -⟩ | ⟨actor, v, ev, deed, v', rfl, hacts⟩
  · obtain ⟨w', hw', hkept⟩ := haside.kept place w hw
    refine ⟨w', hw', hkept.plan, ?_, hkept.final, fun _ => hkept.activity⟩
    rw [hkept.session]
    exact .refl _
  · by_cases hplace : place = actor
    · subst hplace
      obtain rfl : v = w := Option.some.inj (hacts.before.symm.trans hw)
      have hpasses := hacts.passes (hsound.settled v (List.mem_of_getElem? hw))
      refine ⟨v', by rw [hacts.after, if_pos rfl], hacts.did.plan, hacts.move.same,
        hpasses.announces.final, fun hover => ?_⟩
      have hv' := hacts.after place
      rw [if_pos rfl, apply, workers_turn hw, if_pos rfl] at hv'
      rw [← Option.some.inj hv']
      exact ev.activity_of_over _ hover
    · exact ⟨w, by rw [hacts.after, if_neg hplace, hw], .refl w⟩

namespace History

variable {D H : Type}

theorem staffed (events : List (Event D H)) : (of events).system.Staffed := by
  induction events using List.reverseRecOn with
  | nil => exact fun _ _ _ hm => by cases hm
  | append_singleton events e ih =>
    rw [system_concat]
    exact ih.apply (sound events) (enrolled events) e

end History

end StreamDispatch
