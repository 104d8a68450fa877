import StreamDispatch.Proofs.System.Membership

/-!
# Exactly once

A worker that has the group to itself resolves every record once, and in order, however often
it stops and another one takes its place. It may stop for any reason that lets it come to its
end: the policy says so, a poll fails, or it is asked to, be it in the middle of a batch or
while it waits before another attempt. What must not happen is that it is cut off, that a
commit of its own is refused, or that a second worker joins before it has left
(`StreamDispatch.History.Undisturbed`).

What carries this from one worker to the next is the committed offset. As long as a worker is
at it, the committed offset may lag behind, but then the worker owes what is missing, and it
does not leave before it has committed what it owes (`StreamDispatch.Move.owes`). So once
nobody reads, the committed offset is the number of resolved records, and this is where the
next worker begins.

The invariant is `StreamDispatch.History.Orderly`: with `k` resolved records in a partition,
every front is at `k`, and the committed offset is `k` if nobody owes anything there.
-/

namespace StreamDispatch

/-- How many commits were refused so far. -/
def System.refusals (sys : System) : Nat := sys.samples.countP Sample.isRefusedCommit

/-- What is committed after so many records: nothing at first. -/
def progressOf (count : Nat) : Option Int := if count = 0 then none else some count

theorem getD_progressOf (count : Nat) : (progressOf count).getD 0 = count := by
  rw [progressOf]
  split
  next h => rw [h]; rfl
  next => rfl

namespace History

variable {D H : Type}

/-- Whether an event disturbs a group: it cuts one of its workers off, or a commit of one of
them is refused. -/
def disturbs (h : History) (group : String) (e : Event D H) : Bool :=
  match e with
  | .work place ev =>
    match h.system.workers[place]? with
    | some w =>
      decide (w.session.group = group) &&
        (w.isCutOffBy ev || decide ((h.extend e).system.refusals ≠ h.system.refusals))
    | none => false
  | _ => false

/-- **A group is undisturbed**: from a point of a history on, no event disturbs it, and there
is never more than one member. -/
def Undisturbed (group : String) : History → List (Event D H) → Prop
  | _, [] => True
  | h, e :: rest =>
    h.disturbs group e = false ∧ (h.extend e).system.broker.memberCount group ≤ 1 ∧
      Undisturbed group (h.extend e) rest

instance decidableUndisturbed (group : String) : (h : History) → (events : List (Event D H)) →
    Decidable (Undisturbed group h events)
  | _, [] => inferInstanceAs (Decidable True)
  | h, e :: rest =>
    have := decidableUndisturbed group (h.extend e) rest
    inferInstanceAs (Decidable (_ ∧ _ ∧ _))

theorem undisturbed_concat {group : String} {h : History} {events : List (Event D H)}
    {e : Event D H} (hu : Undisturbed group h (events ++ [e])) :
    Undisturbed group h events ∧ (events.foldl extend h).disturbs group e = false ∧
      ((events.foldl extend h).extend e).system.broker.memberCount group ≤ 1 := by
  induction events generalizing h with
  | nil => exact ⟨trivial, hu.1, hu.2.1⟩
  | cons first rest ih =>
    obtain ⟨hfirst, hcount, hrest⟩ := hu
    obtain ⟨hbefore, hlast⟩ := ih hrest
    exact ⟨⟨hfirst, hcount, hbefore⟩, hlast⟩

/-- How many records of a partition are resolved for a group. -/
def countIn (h : History) (group : String) (tp : TopicPartition) : Nat :=
  (h.resolvedIn group tp).length

/-- **Everything is in order**: what is resolved is a run from the beginning, the workers are
at its end, and the committed offset is there as well if nobody owes it. -/
structure Orderly (h : History) (group : String) : Prop where
  order : ∀ tp, h.resolvedIn group tp = offsetsFrom 0 (h.countIn group tp)
  front : ∀ w ∈ h.system.workers, w.session.group = group → ∀ tp f,
    w.activity.standing.front? w.session tp = some f → f = h.countIn group tp
  owes : ∀ w ∈ h.system.workers, w.session.group = group → ∀ tp c,
    w.activity.standing.owes? w.session tp = some c → h.countIn group tp ≠ 0
  committed : ∀ tp, (∀ w ∈ h.system.workers, w.session.group = group →
      w.activity.standing.owes? w.session tp = none) →
    h.system.broker.committed group tp = progressOf (h.countIn group tp)
  assigned : ∀ w ∈ h.system.workers, w.session.group = group → ∀ tp ∈ w.session.assigned,
    tp ∈ (h.system.broker.group group).assignment.getD w.session.member []
  alone : h.system.broker.memberCount group ≤ 1

theorem orderly_empty (group : String) : Orderly empty group where
  order _ := rfl
  front _ hw := absurd hw List.not_mem_nil
  owes _ hw := absurd hw List.not_mem_nil
  committed _ _ := rfl
  assigned _ hw := absurd hw List.not_mem_nil
  alone := Nat.zero_le 1

variable {h : History} {group : String} {tp : TopicPartition}

/-! ### Nobody acts -/

/-- What happens aside leaves everything in order. -/
theorem Orderly.aside (ho : h.Orderly group) (henrolled : h.system.Enrolled) {e : Event D H}
    (haside : h.system.Aside (h.system.apply e)) (hactor : h.system.actor? e = none) :
    (h.extend e).Orderly group := by
  have hresolved : (h.extend e).resolved = h.resolved := by
    rw [extend, System.resolution?_of_actor? hactor, Option.toList_none, List.append_nil]
  have hin : ∀ tp, (h.extend e).resolvedIn group tp = h.resolvedIn group tp := by
    intro tp
    rw [resolvedIn, hresolved]
    rfl
  have hcount : ∀ tp, (h.extend e).countIn group tp = h.countIn group tp := by
    intro tp
    rw [countIn, hin]
    rfl
  have hgroup : ((h.system.apply e).broker.group group).members =
      (h.system.broker.group group).members := haside.members group
  refine ⟨?_, ?_, ?_, ?_, ?_, ?_⟩
  · intro tp
    rw [hin, hcount]
    exact ho.order tp
  · intro v hv hvgroup tp f hf
    rw [hcount]
    rcases haside.mem_cases hv with ⟨w, hw, hkept⟩ | hnew
    · rw [hkept.activity, hkept.session] at hf
      rw [hkept.session] at hvgroup
      exact ho.front w hw hvgroup tp f hf
    · rw [hnew.activity] at hf
      cases hf
  · intro v hv hvgroup tp c hc
    rw [hcount]
    rcases haside.mem_cases hv with ⟨w, hw, hkept⟩ | hnew
    · rw [hkept.activity, hkept.session] at hc
      rw [hkept.session] at hvgroup
      exact ho.owes w hw hvgroup tp c hc
    · rw [hnew.activity] at hc
      exact nomatch hnew.coherent.owed tp c hc
  · intro tp hnone
    rw [hcount, system_extend, haside.committed]
    refine ho.committed tp fun w hw hwgroup => ?_
    obtain ⟨i, hi⟩ := List.mem_iff_getElem?.mp hw
    obtain ⟨v, hv, hkept⟩ := haside.kept i w hi
    have hvnone := hnone v (List.mem_of_getElem? hv) (by rw [hkept.session, hwgroup])
    rwa [hkept.activity, hkept.session] at hvnone
  · intro v hv hvgroup tp htp
    rcases haside.mem_cases hv with ⟨w, hw, hkept⟩ | hnew
    · -- The members are the same, and topics are only added.
      rw [hkept.session] at hvgroup htp ⊢
      have hbefore := ho.assigned w hw hvgroup tp htp
      rw [henrolled.current group] at hbefore
      show tp ∈ ((h.system.apply e).broker.group group).assignment.getD _ []
      rw [haside.current henrolled.current group, hgroup]
      exact Group.mem_assignmentOf_mono haside.partitions hbefore
    · rw [hnew.coherent.assigned_eq_nil rfl] at htp
      cases htp
  · show ((h.system.apply e).broker.group group).members.size ≤ 1
    rw [hgroup]
    exact ho.alone

/-! ### A worker acts -/

section Act

variable {place : Nat} {w w' : Worker} {ev : WorkerEvent} {deed : Deed}

theorem resolvedIn_extend (hacts : h.system.Acts place w ev deed w'
      (h.extend (.work place ev : Event D H)).system) (group : String) (tp : TopicPartition) :
    (h.extend (.work place ev : Event D H)).resolvedIn group tp =
      h.resolvedIn group tp ++
        if w.session.group = group then offsetsIn tp deed.resolved?.toList else [] := by
  rw [resolvedIn, extend, List.filter_append, List.map_append, resolvedIn,
    System.resolution?, hacts.before, Option.bind_some, ← hacts.resolved]
  congr 1
  cases deed.resolved? with
  | none => simp
  | some r =>
    by_cases hgroup : w.session.group = group
    · by_cases htp : r.topicPartition = tp <;> simp [hgroup, htp, offsetsIn]
    · simp [hgroup]

/-- What is resolved in a partition is nothing, or the record at the front. -/
theorem resolved_cases (hmove : Move w.plan ⟨w.activity.standing, w.session, h.system.broker⟩ deed
      ⟨w'.activity.standing, w'.session, (h.extend (.work place ev : Event D H)).system.broker⟩)
    (hcoherent : Coherent w.plan w.activity.standing w.session) (tp : TopicPartition) :
    deed.gain tp = 0 ∧ offsetsIn tp deed.resolved?.toList = [] ∨
      deed.gain tp = 1 ∧ ∃ f, w.activity.standing.front? w.session tp = some f ∧
        offsetsIn tp deed.resolved?.toList = [f] := by
  cases hr : deed.resolved? with
  | none =>
    refine .inl ⟨?_, rfl⟩
    rw [Deed.gain, hr]
  | some r =>
    rw [Option.toList_some, offsetsIn_cons, Deed.gain, hr]
    by_cases htp : r.topicPartition = tp
    · refine .inr ⟨if_pos htp, r.offset, ?_, by rw [if_pos htp]; rfl⟩
      have hfront := hmove.front_resolved hcoherent hr
      rwa [htp] at hfront
    · exact .inl ⟨if_neg htp, by rw [if_neg htp]; rfl⟩

/-- What a worker of another group does is not seen. -/
theorem Orderly.elsewhere (ho : h.Orderly group)
    (hacts : h.system.Acts place w ev deed w'
      (h.extend (.work place ev : Event D H)).system)
    (hother : w.session.group ≠ group) :
    (h.extend (.work place ev : Event D H)).Orderly group := by
  have hin : ∀ tp, (h.extend (.work place ev : Event D H)).resolvedIn group tp =
      h.resolvedIn group tp := by
    intro tp
    rw [resolvedIn_extend hacts, if_neg hother, List.append_nil]
  have hcount : ∀ tp, (h.extend (.work place ev : Event D H)).countIn group tp =
      h.countIn group tp := by
    intro tp
    rw [countIn, hin]
    rfl
  have hgroup := hacts.move.sameBut.group group (Ne.symm hother)
  have hothers : ∀ v ∈ (h.extend (.work place ev : Event D H)).system.workers,
      v.session.group = group → v ∈ h.system.workers := by
    intro v hv hvgroup
    rcases hacts.mem_cases hv with rfl | hv
    · exact absurd (hacts.move.same.group.symm.trans hvgroup) hother
    · exact hv
  refine ⟨?_, ?_, ?_, ?_, ?_, ?_⟩
  · intro tp
    rw [hin, hcount]
    exact ho.order tp
  · intro v hv hvgroup tp f hf
    rw [hcount]
    exact ho.front v (hothers v hv hvgroup) hvgroup tp f hf
  · intro v hv hvgroup tp c hc
    rw [hcount]
    exact ho.owes v (hothers v hv hvgroup) hvgroup tp c hc
  · intro tp hnone
    rw [hcount, show Broker.committed _ group tp = _ from
      hacts.move.sameBut.committed (Ne.symm hother) tp]
    refine ho.committed tp fun v hv hvgroup => ?_
    obtain ⟨i, hi⟩ := List.mem_iff_getElem?.mp hv
    have hne : i ≠ place := by
      rintro rfl
      obtain rfl : w = v := Option.some.inj (hacts.before.symm.trans hi)
      exact hother hvgroup
    refine hnone v (List.mem_of_getElem? (i := i) ?_) hvgroup
    rw [hacts.after, if_neg hne, hi]
  · intro v hv hvgroup tp htp
    rw [show Broker.group _ group = _ from hgroup]
    exact ho.assigned v (hothers v hv hvgroup) hvgroup tp htp
  · show (Broker.group _ group).members.size ≤ 1
    rw [show Broker.group _ group = _ from hgroup]
    exact ho.alone

/-- While a worker is in the group, nobody else owes anything. -/
theorem Orderly.owes_none (ho : h.Orderly w.session.group) (hsound : h.system.Sound)
    (henrolled : h.system.Enrolled) (hw : h.system.workers[place]? = some w)
    (hmember : w.activity.standing.isMember = true)
    (hnone : w.activity.standing.owes? w.session tp = none) :
    ∀ v ∈ h.system.workers, v.session.group = w.session.group →
      v.activity.standing.owes? v.session tp = none := by
  intro v hv hgroup
  obtain ⟨i, hi⟩ := List.mem_iff_getElem?.mp hv
  by_cases hplace : i = place
  · subst hplace
    obtain rfl : w = v := Option.some.inj (hw.symm.trans hi)
    exact hnone
  · -- Whoever owes something has a front and is a member, so it is the worker itself.
    refine Option.eq_none_iff_forall_ne_some.mpr fun c hc => ?_
    have hfront := (hsound.coherent v hv).owed tp c hc
    exact hplace (henrolled.eq_of_members ho.alone hi hw hgroup rfl (isMember_of_front hfront)
      hmember)

section Alone

variable (hacts : h.system.Acts place w ev deed w'
    (h.extend (.work place ev : Event D H)).system)
  (hcoherent : Coherent w.plan w.activity.standing w.session)
  (ho : h.Orderly w.session.group)

include hacts hcoherent ho

/-- The number of resolved records grows by what is gained, and they stay a run. -/
theorem Orderly.order_extend (tp : TopicPartition) :
    (((h.extend (.work place ev : Event D H)).countIn w.session.group tp : Nat) : Int) =
        h.countIn w.session.group tp + deed.gain tp ∧
      (h.extend (.work place ev : Event D H)).resolvedIn w.session.group tp =
        offsetsFrom 0 ((h.extend (.work place ev : Event D H)).countIn w.session.group tp) := by
  have hin := resolvedIn_extend hacts w.session.group tp
  rw [if_pos rfl] at hin
  rcases resolved_cases hacts.move hcoherent tp with ⟨hgain, hnil⟩ | ⟨hgain, f, hf, hone⟩
  · rw [hnil, List.append_nil] at hin
    rw [countIn, hin, hgain]
    exact ⟨(Int.add_zero _).symm, ho.order tp⟩
  · have hfront := ho.front w (List.mem_of_getElem? hacts.before) rfl tp f hf
    rw [hone, hfront] at hin
    rw [countIn, hin, List.length_append, hgain]
    refine ⟨by simp [countIn], ?_⟩
    rw [ho.order tp, length_offsetsFrom, List.length_singleton, ← offsetsFrom_concat,
      Int.zero_add]

section Enrolled

variable (henrolled : h.system.Enrolled)
  (henrolled' : (h.extend (.work place ev : Event D H)).system.Enrolled)
  (halone : (h.extend (.work place ev : Event D H)).system.broker.memberCount
    w.session.group ≤ 1)
  (hcut : deed ≠ .cutOff)

include henrolled henrolled' halone hcut

/-- As long as somebody else is in the group, the worker that acts is not, and does nothing
there. -/
theorem Orderly.nothing_done {i : Nat} {v : Worker} (hv : h.system.workers[i]? = some v)
    (hne : i ≠ place) (hgroup : v.session.group = w.session.group)
    (hmember : v.activity.standing.isMember = true) :
    (h.extend (.work place ev : Event D H)).system.broker = h.system.broker ∧
      ∀ tp, deed.gain tp = 0 := by
  have haway : w.activity.standing.isMember = false := by
    rw [Bool.eq_false_iff]
    intro hw
    exact hne (henrolled.eq_of_members ho.alone hv hacts.before hgroup rfl hmember hw)
  constructor
  · rcases hacts.move.of_not_member haway hcut with hsame | hjoined
    · exact congrArg Desk.broker hsame
    · -- It would be a second member.
      have hv' : (h.extend (.work place ev : Event D H)).system.workers[i]? = some v := by
        rw [hacts.after, if_neg hne, hv]
      have hw' : (h.extend (.work place ev : Event D H)).system.workers[place]? = some w' := by
        rw [hacts.after, if_pos rfl]
      have hjoined : w'.activity.standing = .reading [] ∅ := hjoined
      exact absurd (henrolled'.eq_of_members halone hv' hw' hgroup hacts.move.same.group hmember
        (by rw [hjoined]; rfl)) hne
  · intro tp
    rcases resolved_cases hacts.move hcoherent tp with ⟨hgain, -⟩ | ⟨-, f, hf, -⟩
    · exact hgain
    · rw [isMember_of_front hf] at haway
      cases haway

/-- Everybody else in the group sees what they saw before. -/
theorem Orderly.others {v : Worker}
    (hv : v ∈ (h.extend (.work place ev : Event D H)).system.workers)
    (hgroup : v.session.group = w.session.group) :
    v = w' ∨ v ∈ h.system.workers ∧
      (v.activity.standing.isMember = true →
        (h.extend (.work place ev : Event D H)).system.broker = h.system.broker ∧
          ∀ tp, deed.gain tp = 0) := by
  obtain ⟨i, hi⟩ := List.mem_iff_getElem?.mp hv
  rw [hacts.after] at hi
  split at hi
  next => exact .inl (Option.some.inj hi).symm
  next hne =>
    refine .inr ⟨List.mem_of_getElem? hi, fun hmember => ?_⟩
    exact ho.nothing_done hacts hcoherent henrolled henrolled' halone hcut hi hne hgroup hmember

/-- Every front is at the number of resolved records. -/
theorem Orderly.front_extend (hsound : h.system.Sound) (hstart : w.session.startsAtEnd = false)
    {v : Worker} (hv : v ∈ (h.extend (.work place ev : Event D H)).system.workers)
    (hgroup : v.session.group = w.session.group) {f : Int}
    (hf : v.activity.standing.front? v.session tp = some f) :
    f = (h.extend (.work place ev : Event D H)).countIn w.session.group tp := by
  have hw := List.mem_of_getElem? hacts.before
  have hcount := (ho.order_extend hacts hcoherent tp).1
  rcases ho.others hacts hcoherent henrolled henrolled' halone hcut hv hgroup with
    rfl | ⟨hv, hidle⟩
  · rcases hacts.move.front hcoherent hf with ⟨f₀, hf₀, rfl⟩ | ⟨hnone, rfl, rfl⟩
    · have := ho.front w hw rfl tp f₀ hf₀
      omega
    · -- The worker begins where its predecessor has left off.
      have howes : w.activity.standing.owes? w.session tp = none := by
        refine Option.eq_none_iff_forall_ne_some.mpr fun c hc => ?_
        have hfront := hcoherent.owed tp c hc
        rw [show Standing.front? _ _ tp = none from hnone] at hfront
        cases hfront
      have hmember : w.activity.standing.isMember = true := by
        rw [show w.activity.standing = _ from hacts.move.standing_of_fetched]
        rfl
      have hcommitted := ho.committed tp
        (ho.owes_none hsound henrolled hacts.before hmember howes)
      rw [show Deed.gain .fetched tp = 0 from rfl] at hcount
      show w.session.startOffset h.system.broker _ tp = _
      rw [Session.startOffset_eq hstart, hcommitted, getD_progressOf]
      omega
  · have hgain := (hidle (isMember_of_front hf)).2 tp
    have := ho.front v hv hgroup tp f hf
    omega

/-- Only what is resolved is owed. -/
theorem Orderly.owes_extend {v : Worker}
    (hv : v ∈ (h.extend (.work place ev : Event D H)).system.workers)
    (hgroup : v.session.group = w.session.group) {c : Int}
    (hc : v.activity.standing.owes? v.session tp = some c) :
    (h.extend (.work place ev : Event D H)).countIn w.session.group tp ≠ 0 := by
  have hw := List.mem_of_getElem? hacts.before
  have hcount := (ho.order_extend hacts hcoherent tp).1
  have hnonneg := deed.gain_nonneg tp
  rcases ho.others hacts hcoherent henrolled henrolled' halone hcut hv hgroup with
    rfl | ⟨hv, -⟩
  · rcases hacts.move.owes_of_owes hcoherent hc with ⟨c₀, hc₀⟩ | hgain
    · have := ho.owes w hw rfl tp c₀ hc₀
      omega
    · omega
  · have := ho.owes v hv hgroup tp c hc
    omega

/-- Whatever a worker of the group has taken over is its share. -/
theorem Orderly.assigned_extend (hsound : h.system.Sound) {v : Worker}
    (hv : v ∈ (h.extend (.work place ev : Event D H)).system.workers)
    (hgroup : v.session.group = w.session.group) (htp : tp ∈ v.session.assigned) :
    tp ∈ ((h.extend (.work place ev : Event D H)).system.broker.group
      w.session.group).assignment.getD v.session.member [] := by
  have hw := List.mem_of_getElem? hacts.before
  rcases ho.others hacts hcoherent henrolled henrolled' halone hcut hv hgroup with
    rfl | ⟨hv, hidle⟩
  · rw [hacts.move.same.member]
    exact hacts.move.assigned hcoherent (ho.assigned w hw rfl) tp htp
  · have hmember : v.activity.standing.isMember = true := by
      rw [← Bool.not_eq_false]
      intro hmember
      rw [(hsound.coherent v hv).assigned_eq_nil hmember] at htp
      cases htp
    rw [(hidle hmember).1]
    exact ho.assigned v hv hgroup tp htp

end Enrolled

/-- Once nobody owes anything, the committed offset is the number of resolved records: the
worker has paid off what it owed, or nobody owed anything before either. -/
theorem Orderly.committed_extend (henrolled : h.system.Enrolled) (hcut : deed ≠ .cutOff)
    (hrefused : deed.isRefused = false)
    (hnone : ∀ v ∈ (h.extend (.work place ev : Event D H)).system.workers,
      v.session.group = w.session.group → v.activity.standing.owes? v.session tp = none) :
    (h.extend (.work place ev : Event D H)).system.broker.committed w.session.group tp =
      progressOf ((h.extend (.work place ev : Event D H)).countIn w.session.group tp) := by
  have hw := List.mem_of_getElem? hacts.before
  have hcount := (ho.order_extend hacts hcoherent tp).1
  have hw' : (h.extend (.work place ev : Event D H)).system.workers[place]? = some w' := by
    rw [hacts.after, if_pos rfl]
  have hnone' := hnone w' (List.mem_of_getElem? hw') hacts.move.same.group
  have hexists : w.activity.standing.isMember = true →
      ∃ g, h.system.broker.groups.get? w.session.group = some g := by
    intro hmember
    obtain ⟨topics, hin⟩ := henrolled.members w hw hmember
    exact Broker.exists_of_member hin
  rcases hacts.move.owes hcoherent hrefused hcut hexists (ho.assigned w hw rfl tp) hnone' with
    ⟨howes, hgain, hsame⟩ | ⟨f, hf, hnew, hdebt⟩
  · have hequal : (h.extend (.work place ev : Event D H)).countIn w.session.group tp =
        h.countIn w.session.group tp := by omega
    rw [show Broker.committed _ w.session.group tp = _ from hsame, hequal]
    refine ho.committed tp fun v hv hgroup => ?_
    obtain ⟨i, hi⟩ := List.mem_iff_getElem?.mp hv
    by_cases hplace : i = place
    · subst hplace
      obtain rfl : w = v := Option.some.inj (hacts.before.symm.trans hi)
      exact howes
    · refine hnone v (List.mem_of_getElem? (i := i) ?_) hgroup
      rw [hacts.after, if_neg hplace, hi]
  · have hfront := ho.front w hw rfl tp f hf
    have hpos : (h.extend (.work place ev : Event D H)).countIn w.session.group tp ≠ 0 := by
      rcases hdebt with howes | hgain
      · have := ho.owes w hw rfl tp f howes
        have := deed.gain_nonneg tp
        omega
      · omega
    rw [show Broker.committed _ w.session.group tp = _ from hnew, progressOf, if_neg hpos,
      hcount, hfront]

end Alone

/-- **What a worker of the group does** leaves everything in order, as long as it is not cut
off or refused a commit, and has the group to itself. -/
theorem Orderly.acting (ho : h.Orderly w.session.group) (hsound : h.system.Sound)
    (henrolled : h.system.Enrolled)
    (henrolled' : (h.extend (.work place ev : Event D H)).system.Enrolled)
    (hacts : h.system.Acts place w ev deed w'
      (h.extend (.work place ev : Event D H)).system)
    (halone : (h.extend (.work place ev : Event D H)).system.broker.memberCount
      w.session.group ≤ 1)
    (hcut : deed ≠ .cutOff) (hrefused : deed.isRefused = false)
    (hstart : w.session.startsAtEnd = false) :
    (h.extend (.work place ev : Event D H)).Orderly w.session.group := by
  have hcoherent := hsound.coherent w (List.mem_of_getElem? hacts.before)
  constructor
  · intro tp
    exact (ho.order_extend hacts hcoherent tp).2
  · intro v hv hgroup tp f hf
    exact ho.front_extend hacts hcoherent henrolled henrolled' halone hcut hsound hstart hv
      hgroup hf
  · intro v hv hgroup tp c hc
    exact ho.owes_extend hacts hcoherent henrolled henrolled' halone hcut hv hgroup hc
  · intro tp hnone
    exact ho.committed_extend hacts hcoherent henrolled hcut hrefused hnone
  · intro v hv hgroup tp htp
    exact ho.assigned_extend hacts hcoherent henrolled henrolled' halone hcut hsound hv hgroup
      htp
  · exact halone

end Act

/-! ### The whole history -/

/-- **One more event** that does not disturb the group leaves everything in order. -/
theorem Orderly.extend (ho : h.Orderly group) (hsound : h.system.Sound)
    (henrolled : h.system.Enrolled) (e : Event D H) (hcalm : h.disturbs group e = false)
    (halone : (h.extend e).system.broker.memberCount group ≤ 1) (hstart : h.FromStart group) :
    (h.extend e).Orderly group := by
  rcases System.apply_cases hsound.settled e with
    ⟨haside, hactor⟩ | ⟨place, w, ev, deed, w', rfl, hacts⟩
  · exact ho.aside henrolled haside hactor
  · by_cases hgroup : w.session.group = group
    · subst hgroup
      simp only [disturbs, hacts.before, decide_true, Bool.true_and, Bool.or_eq_false_iff,
        decide_eq_false_iff_not, not_not] at hcalm
      have hcut : deed ≠ .cutOff := by
        intro hcut
        rw [hacts.cutOff hcut] at hcalm
        cases hcalm.1
      have hrefused : deed.isRefused = false := by
        rw [Bool.eq_false_iff]
        intro hrefused
        have hmore : (h.extend (.work place ev : Event D H)).system.refusals =
            h.system.refusals + 1 := hacts.did.refused hrefused
        omega
      have henrolled' := henrolled.apply hsound (.work place ev : Event D H)
      exact ho.acting hsound henrolled henrolled' hacts halone hcut hrefused
        (hstart w (List.mem_of_getElem? hacts.before) rfl)
    · exact ho.elsewhere hacts hgroup

theorem orderly (events : List (Event D H)) (hcalm : Undisturbed group empty events)
    (hstart : (of events).FromStart group) : (of events).Orderly group := by
  induction events using List.reverseRecOn with
  | nil => exact orderly_empty group
  | append_singleton events e ih =>
    obtain ⟨hbefore, hcalm, halone⟩ := undisturbed_concat hcalm
    rw [of_concat] at hstart ⊢
    have hstart := hstart.of_extend (sound events)
    exact (ih hbefore hstart).extend (sound events) (enrolled events) e hcalm halone hstart

/-- **Every record is resolved once, and in order**, in a group that is undisturbed and has no
session that begins at the end of partitions: the resolved offsets of a partition are
`0, 1, …, k - 1`. Once no worker of the group is at work, the committed offset is `k`, and
whatever a worker has at hand begins with `k`. -/
theorem resolved_once (events : List (Event D H)) (group : String)
    (hcalm : Undisturbed group empty events) (hstart : (of events).FromStart group)
    (tp : TopicPartition) :
    ∃ k : Nat, (of events).resolvedIn group tp = offsetsFrom 0 k ∧
      ((∀ w ∈ (of events).system.workers, w.session.group = group →
          w.activity = .unstarted ∨ w.activity.isOver = true) →
        (of events).system.broker.committed group tp = progressOf k) ∧
      ∀ w ∈ (of events).system.workers, w.session.group = group →
        ∃ n : Nat, offsetsIn tp w.activity.standing.pending = offsetsFrom k n := by
  have ho := orderly events hcalm hstart
  refine ⟨(of events).countIn group tp, ho.order tp, fun hended => ?_, fun w hw hgroup => ?_⟩
  · -- Whoever is not at work is no member, and owes nothing.
    refine ho.committed tp fun w hw hgroup => ?_
    have hmember : w.activity.standing.isMember = false := by
      rcases hended w hw hgroup with hactivity | hover
      · rw [hactivity]
        rfl
      · cases hactivity : w.activity <;> simp_all [Activity.isOver, Activity.standing,
          Standing.isMember]
    refine Option.eq_none_iff_forall_ne_some.mpr fun c hc => ?_
    rw [isMember_of_front (((sound events).coherent w hw).owed tp c hc)] at hmember
    cases hmember
  · have hcoherent := (sound events).coherent w hw
    cases hf : w.activity.standing.front? w.session tp with
    | none => exact ⟨0, hcoherent.only tp hf⟩
    | some f =>
      rw [← ho.front w hw hgroup tp f hf]
      exact hcoherent.run tp f hf

/-- A worker accepts a record and stops at the next one; when its registration is submitted
again, another worker accepts the rest, and is asked to stop. -/
def restart : List (Event Unit Unit) :=
  [.createTopic "orders" ⟨2, 1, ∅⟩, .produce secondOrders ⟨none, none, 0, []⟩,
    .produce secondOrders ⟨none, none, 0, []⟩, .produce secondOrders ⟨none, none, 0, []⟩,
    .submit (orderReader "first"), .work 0 .start, .work 0 .poll] ++ accepts 0 ++
    [.work 0 (.keyDecoded (.error "no key")), .work 0 (.decided .stop), .work 0 .close,
      .submit (orderReader "first"), .work 1 .start, .work 1 .poll] ++
    accepts 1 ++ accepts 1 ++ [.work 1 .requestStop, .work 1 .poll, .work 1 .close]

theorem resolved_once_restart :
    ∃ k : Nat, (of restart).resolvedIn "default" secondOrders = offsetsFrom 0 k ∧
      ((∀ w ∈ (of restart).system.workers, w.session.group = "default" →
          w.activity = .unstarted ∨ w.activity.isOver = true) →
        (of restart).system.broker.committed "default" secondOrders = progressOf k) ∧
      ∀ w ∈ (of restart).system.workers, w.session.group = "default" →
        ∃ n : Nat, offsetsIn secondOrders w.activity.standing.pending = offsetsFrom k n :=
  resolved_once restart "default" (by decide +kernel) (by decide +kernel) secondOrders

end History

end StreamDispatch
