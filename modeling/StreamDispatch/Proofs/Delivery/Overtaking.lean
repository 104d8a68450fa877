import StreamDispatch.Proofs.System.Event

/-!
# When progress goes back

A commit is accepted from every member of a group, whether or not the partition is still the
member's own. After a rebalance in the middle of a batch two workers therefore hold the same
partition for a while: the new owner, and the old one, which has not polled since. Whatever
the old one commits then is where *it* is, and it may take the group's progress back behind
what the new owner has committed, for example from 3 to 1
(`StreamDispatch.History.committed_goes_back`). The records in between are resolved again by
whoever owns the partition next.

This is the only way in which progress goes back. A worker is *overtaken*
(`StreamDispatch.History.Overtaken`) when another worker changes the committed offset of a
partition that both of them hold, and it stays so until it gives the partition up or until
the committed offset changes again. Progress goes back only in a step of a worker that is
overtaken.

The invariant is that the front of a worker is not behind the committed offset, unless the
worker is overtaken (`StreamDispatch.History.Abreast`).
-/

namespace StreamDispatch

namespace History

variable {D H : Type}

/-- The worker at a place holds a partition for a group, as it sees it. -/
def Holds (h : History) (group : String) (tp : TopicPartition) (place : Nat) : Prop :=
  ∃ w f, h.system.workers[place]? = some w ∧ w.session.group = group ∧
    w.activity.standing.front? w.session tp = some f

/-- A worker that holds a partition **is overtaken**: another worker that holds it too has
changed the committed offset, and nobody has since. -/
inductive Overtaken (group : String) (tp : TopicPartition) (place : Nat) :
    List (Event D H) → Prop
  | now {events : List (Event D H)} {other : Nat} {ev : WorkerEvent} (hne : other ≠ place)
      (hother : (of events).Holds group tp other) (hbefore : (of events).Holds group tp place)
      (hafter : (of (events ++ [.work other ev])).Holds group tp place)
      (hchanged : (of (events ++ [.work other ev])).system.broker.committed group tp ≠
        (of events).system.broker.committed group tp) :
      Overtaken group tp place (events ++ [.work other ev])
  | still {events : List (Event D H)} {e : Event D H} (h : Overtaken group tp place events)
      (hafter : (of (events ++ [e])).Holds group tp place)
      (hsame : (of (events ++ [e])).system.broker.committed group tp =
        (of events).system.broker.committed group tp) :
      Overtaken group tp place (events ++ [e])

variable {group : String} {tp : TopicPartition}

/-- Every worker of a group that holds a partition is at or past the committed offset, or it
is overtaken. -/
def Abreast (group : String) (tp : TopicPartition) (events : List (Event D H)) : Prop :=
  ∀ (place : Nat) (w : Worker), (of events).system.workers[place]? = some w →
    w.session.group = group → ∀ f c, w.activity.standing.front? w.session tp = some f →
      (of events).system.broker.committed group tp = some c →
        c ≤ f ∨ Overtaken group tp place events

section Act

variable {events : List (Event D H)} {place : Nat} {w w' : Worker} {ev : WorkerEvent}
  {deed : Deed}

/-- What the worker that acts itself finds: its front is at or past what it commits, and it
stays overtaken if it commits nothing. -/
theorem Abreast.acting (h : Abreast group tp events)
    (hacts : (of events).system.Acts place w ev deed w'
      (of (events ++ [.work place ev])).system)
    (hcoherent : Coherent w.plan w.activity.standing w.session) (hgroup : w.session.group = group)
    {f' c' : Int} (hf' : w'.activity.standing.front? w'.session tp = some f')
    (hc' : (of (events ++ [.work place ev])).system.broker.committed group tp = some c') :
    c' ≤ f' ∨ Overtaken group tp place (events ++ [.work place ev]) := by
  subst hgroup
  have hholds : (of (events ++ [.work place ev])).Holds w.session.group tp place :=
    ⟨w', f', by rw [hacts.after, if_pos rfl], hacts.move.same.group, hf'⟩
  rcases hacts.move.front hcoherent hf' with ⟨f, hf, rfl⟩ | ⟨hnone, -, rfl⟩
  · rcases hacts.move.committed hcoherent tp with hsame | ⟨f₁, hf₁, hnew⟩
    · rcases h place w hacts.before rfl f c' hf (hsame.symm.trans hc') with hle | hover
      · have := deed.gain_nonneg tp
        exact .inl (by omega)
      · exact .inr (.still hover hholds hsame)
    · obtain rfl : f₁ = f := Option.some.inj (hf₁.symm.trans hf)
      exact .inl (Int.le_of_eq (Option.some.inj (hc'.symm.trans hnew)))
  · -- A partition that is taken over is taken over at the committed offset.
    rcases hacts.move.committed hcoherent tp with hsame | ⟨f₁, hf₁, -⟩
    · have hcommitted := hsame.symm.trans hc'
      refine .inl (Int.le_of_eq ?_)
      show c' = Session.startOffset _ _ _ _
      rw [Session.startOffset, ← Broker.committed_eq,
        show Broker.committed _ _ tp = some c' from hcommitted]
    · rw [show Standing.front? _ _ tp = none from hnone] at hf₁
      cases hf₁

end Act

/-- **One more event** keeps the workers abreast of what is committed, or overtaken. -/
theorem Abreast.extend {events : List (Event D H)} (h : Abreast group tp events) (e : Event D H) :
    Abreast group tp (events ++ [e]) := by
  have hsound := sound events
  intro place v hv hgroup f c hf hc
  have hafter : (of (events ++ [e])).Holds group tp place := ⟨v, f, hv, hgroup, hf⟩
  rcases System.apply_cases hsound.settled e with
    ⟨haside, -⟩ | ⟨actor, w, ev, deed, w', rfl, hacts⟩
  · rw [← system_concat] at haside
    rcases haside.fresh place v hv with ⟨w, hw, hkept⟩ | hnew
    · rw [hkept.activity, hkept.session] at hf
      rw [hkept.session] at hgroup
      rw [haside.committed] at hc
      rcases h place w hw hgroup f c hf hc with hle | hover
      · exact .inl hle
      · exact .inr (.still hover hafter (haside.committed group tp))
    · rw [hnew.activity] at hf
      cases hf
  · rw [← system_concat] at hacts
    have hcoherent := hsound.coherent w (List.mem_of_getElem? hacts.before)
    rw [hacts.after] at hv
    split at hv
    next hplace =>
      subst hplace
      obtain rfl := Option.some.inj hv
      exact h.acting hacts hcoherent (hacts.move.same.group.symm.trans hgroup) hf hc
    next hplace =>
      -- Somebody else acts: as long as it commits nothing new, all stays as it was.
      by_cases hsame : (of (events ++ [.work actor ev])).system.broker.committed group tp =
          (of events).system.broker.committed group tp
      · rcases h place v hv hgroup f c hf (hsame.symm.trans hc) with hle | hover
        · exact .inl hle
        · exact .inr (.still hover hafter hsame)
      · -- The committed offset has changed, so the actor holds the partition as well.
        have hactor : w.session.group = group := by
          by_contra hne
          exact hsame (hacts.move.sameBut.committed (Ne.symm hne) tp)
        subst hactor
        rcases hacts.move.committed hcoherent tp with hkept | ⟨f₁, hf₁, -⟩
        · exact absurd hkept hsame
        · exact .inr (.now (Ne.symm hplace) ⟨w, f₁, hacts.before, rfl, hf₁⟩
            ⟨v, f, hv, hgroup, hf⟩ hafter hsame)

theorem abreast (group : String) (tp : TopicPartition) (events : List (Event D H)) :
    Abreast group tp events := by
  induction events using List.reverseRecOn with
  | nil =>
    intro place w hw
    cases hw
  | append_singleton events e ih => exact ih.extend e

/-- **One event** takes progress back only as a step of a worker that is overtaken. -/
theorem committed_extend (events : List (Event D H)) (e : Event D H) {c : Int}
    (hc : (of events).system.broker.committed group tp = some c) :
    ∃ d, (of (events ++ [e])).system.broker.committed group tp = some d ∧
      (c ≤ d ∨ ∃ place ev, e = .work place ev ∧ Overtaken group tp place events) := by
  have hsound := sound events
  rw [system_concat]
  rcases System.apply_cases hsound.settled e with
    ⟨haside, -⟩ | ⟨place, w, ev, deed, w', rfl, hacts⟩
  · exact ⟨c, (haside.committed group tp).trans hc, .inl (Int.le_refl c)⟩
  · have hcoherent := hsound.coherent w (List.mem_of_getElem? hacts.before)
    by_cases hgroup : w.session.group = group
    · subst hgroup
      rcases hacts.move.committed hcoherent tp with hsame | ⟨f, hf, hnew⟩
      · exact ⟨c, hsame.trans hc, .inl (Int.le_refl c)⟩
      · refine ⟨f + deed.gain tp, hnew, ?_⟩
        rcases abreast _ tp events place w hacts.before rfl f c hf hc with hle | hover
        · have := deed.gain_nonneg tp
          exact .inl (by omega)
        · exact .inr ⟨place, ev, rfl, hover⟩
    · have hsame := hacts.move.sameBut.committed (Ne.symm hgroup) tp
      exact ⟨c, hsame.trans hc, .inl (Int.le_refl c)⟩

/-- **Progress goes back only behind an overtaken worker**: from one point of a history to a
later one the committed offset of a partition does not decrease, unless in between a worker
takes a step that decreases it while it is overtaken. -/
theorem committed_le_or_overtaken (before after : List (Event D H)) {c : Int}
    (hc : (of before).system.broker.committed group tp = some c) :
    (∃ d, (of (before ++ after)).system.broker.committed group tp = some d ∧ c ≤ d) ∨
      ∃ mid place ev rest, after = mid ++ .work place ev :: rest ∧
        Overtaken group tp place (before ++ mid) ∧
        ∃ a b, (of (before ++ mid)).system.broker.committed group tp = some a ∧
          (of (before ++ mid ++ [.work place ev])).system.broker.committed group tp = some b ∧
          b < a := by
  induction after using List.reverseRecOn with
  | nil => exact .inl ⟨c, by rwa [List.append_nil], Int.le_refl c⟩
  | append_singleton after e ih =>
    rcases ih with ⟨d, hd, hle⟩ | ⟨mid, place, ev, rest, rfl, hover, hback⟩
    · obtain ⟨d', hd', hstep⟩ := committed_extend (before ++ after) e hd
      rw [← List.append_assoc]
      by_cases hforth : d ≤ d'
      · exact .inl ⟨d', hd', Int.le_trans hle hforth⟩
      · rcases hstep with hforth' | ⟨place, ev, rfl, hover⟩
        · exact absurd hforth' hforth
        · exact .inr ⟨after, place, ev, [], rfl, hover, d, d', hd, hd', by omega⟩
    · refine .inr ⟨mid, place, ev, rest ++ [e], ?_, hover, hback⟩
      rw [List.append_assoc, List.cons_append]

/-- A partition changes hands, and then the old owner accepts the record that it still has at
hand. -/
theorem committed_le_or_overtaken_handover :
    (∃ d, (of (handover ++ accepts 0)).system.broker.committed "default" secondOrders = some d ∧
        3 ≤ d) ∨
      ∃ mid place ev rest, accepts 0 = mid ++ .work place ev :: rest ∧
        Overtaken "default" secondOrders place (handover ++ mid) ∧
        ∃ a b, (of (handover ++ mid)).system.broker.committed "default" secondOrders = some a ∧
          (of (handover ++ mid ++ [.work place ev])).system.broker.committed "default"
            secondOrders = some b ∧ b < a :=
  committed_le_or_overtaken handover (accepts 0) (by decide +kernel)

/-- **Progress does go back**: the partition belongs to the second worker, which has committed
3, and a step of the first one takes it back to 1. -/
theorem committed_goes_back :
    ((of handover).system.broker.group "default").assignment.get? 1 = some [secondOrders] ∧
      (of handover).system.broker.committed "default" secondOrders = some 3 ∧
      (of (handover ++ accepts 0)).system.broker.committed "default" secondOrders = some 1 := by
  decide +kernel

end History

end StreamDispatch
