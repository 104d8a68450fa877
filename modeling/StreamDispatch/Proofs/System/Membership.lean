import StreamDispatch.Proofs.System.Event

/-!
# Who is a member of a group

Every worker has a number of its own, and as long as it reads or is about to close it is a
member of its group under that number. A worker that joins or leaves changes the members by
itself only, and then the group is dealt out anew; nothing else that a worker does touches
members or assignments.

So in a group with at most one member there is at most one worker that reads, and whatever it
has taken over stays its own: new topics add to its share and take nothing away
(`StreamDispatch.System.Enrolled`).

## Main statements

* `StreamDispatch.Move.regroups`: a move joins the group, leaves it, or leaves its members and
  its assignment alone.
* `StreamDispatch.History.enrolled`: numbers, members and assignments are in order throughout
  every history.
* `StreamDispatch.System.Enrolled.eq_of_members`: two workers that read in a group with at most
  one member are one.
-/

namespace StreamDispatch

namespace Move

variable {plan : Plan} {d d' : Desk} {deed : Deed}

/-- **What a move does to the members of the group.** They change by the worker at most, and
when they do, the group is dealt out anew. -/
inductive Regroups (plan : Plan) (d d' : Desk) : Prop
  | stays
      (members : (d'.broker.group d.session.group).members =
        (d.broker.group d.session.group).members)
      (assignment : (d'.broker.group d.session.group).assignment =
        (d.broker.group d.session.group).assignment)
      (standing : d'.standing.isMember = true → d.standing.isMember = true)
  | joins
      (members : (d'.broker.group d.session.group).members =
        (d.broker.group d.session.group).members.insert d.session.member plan.topics)
      (assignment : (d'.broker.group d.session.group).assignment =
        Group.assignmentOf d.broker.partitionsOf (d'.broker.group d.session.group).members)
  | leaves
      (members : (d'.broker.group d.session.group).members =
        (d.broker.group d.session.group).members.erase d.session.member)
      (assignment : (d'.broker.group d.session.group).assignment =
        Group.assignmentOf d.broker.partitionsOf (d'.broker.group d.session.group).members)
      (standing : d'.standing = .gone)

/-- A session that commits changes neither members nor assignment. -/
theorem regroups_commit {s : Session} {b b' : Broker} {standing standing' : Standing}
    {offsets : List CommitOffset} (h : s.commit offsets .sync b = .ok b')
    (hstanding : standing.isMember = true) :
    Regroups plan ⟨standing, s, b⟩ ⟨standing', s, b'⟩ :=
  .stays (Session.sameDeal_commit h).members (Session.sameDeal_commit h).assignment
    fun _ => hstanding

/-- A session that leaves may have been no member at all. -/
theorem regroups_leave (standing : Standing) (s : Session) (b : Broker) :
    Regroups plan ⟨standing, s, b⟩ ⟨.gone, (s.leave b).1, (s.leave b).2⟩ := by
  rcases Session.leave_group s b with ⟨hmembers, hassignment⟩ | ⟨hmembers, hassignment⟩
  · exact .stays hmembers hassignment nofun
  · refine .leaves hmembers ?_ rfl
    show ((s.leave b).2.group s.group).assignment =
      Group.assignmentOf _ ((s.leave b).2.group s.group).members
    rw [hassignment, hmembers]

theorem regroups (h : Move plan d deed d') : Regroups plan d d' := by
  cases h with
  | idle => exact .stays rfl rfl id
  | join s b =>
    refine .joins ?_ ?_
    · show ((s.subscribe plan.topics b).2.group s.group).members = _
      rw [Session.group_subscribe]
      rfl
    · show ((s.subscribe plan.topics b).2.group s.group).assignment = _
      rw [Session.group_subscribe]
      rfl
  | @fetch s s' b b' records h =>
    have hdeal := Session.sameDeal_fetch h
    exact .stays hdeal.members hdeal.assignment fun _ => rfl
  | commitRecord _ h => exact regroups_commit h rfl
  | commitBatch _ h => exact regroups_commit h rfl
  | commitAndGiveUp _ h => exact regroups_commit h rfl
  | leave s b => exact regroups_leave .closing s b
  | @cutOff standing _ s b => exact regroups_leave standing s b
  | _ => exact .stays rfl rfl fun _ => rfl

theorem current (h : Move plan d deed d') (hc : d.broker.Current) : d'.broker.Current := by
  refine hc.of_sameBut h.sameBut ?_
  cases h.regroups with
  | stays hmembers hassignment _ =>
    rw [hmembers, hassignment]
    exact hc d.session.group
  | joins _ hassignment => exact hassignment
  | leaves _ hassignment _ => exact hassignment

/-- Other members stay what they are. -/
theorem members_of_ne (h : Move plan d deed d') {m : Nat} (hne : m ≠ d.session.member) :
    (d'.broker.group d.session.group).members.get? m =
      (d.broker.group d.session.group).members.get? m := by
  cases h.regroups with
  | stays hmembers _ _ => rw [hmembers]
  | joins hmembers _ => rw [hmembers, Dict.get?_insert_of_ne _ hne]
  | leaves hmembers _ _ => rw [hmembers, Dict.get?_erase, if_neg hne]

/-- Whoever reads or is about to close is a member. -/
theorem enrolled (h : Move plan d deed d')
    (hbefore : d.standing.isMember = true →
      ∃ topics, (d.broker.group d.session.group).members.get? d.session.member = some topics)
    (hmember : d'.standing.isMember = true) :
    ∃ topics, (d'.broker.group d.session.group).members.get? d.session.member = some topics := by
  cases h.regroups with
  | stays hmembers _ hstays =>
    rw [hmembers]
    exact hbefore (hstays hmember)
  | joins hmembers _ =>
    rw [hmembers]
    exact ⟨plan.topics, Dict.get?_insert_self _ _ _⟩
  | leaves _ _ hgone =>
    rw [hgone] at hmember
    cases hmember

/-- Whatever a worker has taken over is its share, as long as it was so before. -/
theorem assigned (h : Move plan d deed d') (hc : Coherent plan d.standing d.session)
    (hbefore : ∀ tp ∈ d.session.assigned,
      tp ∈ (d.broker.group d.session.group).assignment.getD d.session.member []) :
    ∀ tp ∈ d'.session.assigned,
      tp ∈ (d'.broker.group d.session.group).assignment.getD d.session.member [] := by
  intro tp htp
  have hgone : d'.standing = .gone → tp ∉ d'.session.assigned := by
    intro hgone
    rw [(h.coherent hc).assigned_eq_nil (by rw [hgone]; rfl)]
    exact List.not_mem_nil
  cases h with
  | join s b =>
    rw [show (s.subscribe plan.topics b).1.assigned = [] from hc.assigned_eq_nil rfl] at htp
    cases htp
  | @fetch s s' b b' records h =>
    rw [show (Broker.group _ _).assignment = _ from (Session.sameDeal_fetch h).assignment]
    obtain ⟨positions, nextStart, rfl, -, -⟩ := Session.fetch_ok h
    rw [show Session.assigned _ = _ from Session.assigned_publish (s.sync b) b] at htp
    rcases Session.assigned_sync s b with hsync | hsync
    · rw [hsync] at htp
      exact hbefore tp htp
    · rwa [hsync] at htp
  | commitRecord _ h =>
    rw [show (Broker.group _ _).assignment = _ from (Session.sameDeal_commit h).assignment]
    exact hbefore tp htp
  | commitBatch _ h =>
    rw [show (Broker.group _ _).assignment = _ from (Session.sameDeal_commit h).assignment]
    exact hbefore tp htp
  | commitAndGiveUp _ h =>
    rw [show (Broker.group _ _).assignment = _ from (Session.sameDeal_commit h).assignment]
    exact hbefore tp htp
  | storeRecord _ h =>
    obtain ⟨-, rfl⟩ := Session.store_ok h
    exact hbefore tp htp
  | refuseStore h =>
    obtain ⟨-, rfl⟩ := Session.store_error h
    exact hbefore tp htp
  | leave s b => exact absurd htp (hgone rfl)
  | cutOff _ s b => exact absurd htp (hgone rfl)
  | _ => exact hbefore tp htp

end Move

namespace System

/-- **Numbers, members and assignments are in order.** -/
structure Enrolled (sys : System) : Prop where
  current : sys.broker.Current
  /-- Every worker has a number of its own. -/
  numbers : (sys.workers.map (·.session.member)).Nodup
  below : ∀ w ∈ sys.workers, w.session.member < sys.broker.nextMember
  /-- Whoever reads or is about to close is a member. -/
  members : ∀ w ∈ sys.workers, w.activity.standing.isMember = true →
    ∃ topics, (sys.broker.group w.session.group).members.get? w.session.member = some topics

variable {sys : System}

theorem enrolled_empty : Enrolled .empty where
  current := Broker.current_empty
  numbers := .nil
  below _ hw := absurd hw List.not_mem_nil
  members _ hw := absurd hw List.not_mem_nil

namespace Enrolled

theorem eq_of_member (h : sys.Enrolled) {i j : Nat} {v w : Worker}
    (hv : sys.workers[i]? = some v) (hw : sys.workers[j]? = some w)
    (hmember : v.session.member = w.session.member) : i = j := by
  have hi : i < (sys.workers.map (·.session.member)).length := by
    rw [List.length_map]
    exact (List.getElem?_eq_some_iff.mp hv).1
  refine (List.getElem?_inj hi h.numbers).mp ?_
  rw [List.getElem?_map, List.getElem?_map, hv, hw, Option.map_some, Option.map_some, hmember]

/-- **Two workers that read in a group with at most one member are one.** -/
theorem eq_of_members (h : sys.Enrolled) {group : String}
    (hcount : sys.broker.memberCount group ≤ 1) {i j : Nat} {v w : Worker}
    (hv : sys.workers[i]? = some v) (hw : sys.workers[j]? = some w)
    (hvgroup : v.session.group = group) (hwgroup : w.session.group = group)
    (hvmember : v.activity.standing.isMember = true)
    (hwmember : w.activity.standing.isMember = true) : i = j := by
  obtain ⟨topics, hvin⟩ := h.members v (List.mem_of_getElem? hv) hvmember
  obtain ⟨topics', hwin⟩ := h.members w (List.mem_of_getElem? hw) hwmember
  rw [hvgroup] at hvin
  rw [hwgroup] at hwin
  exact h.eq_of_member hv hw (Dict.eq_of_size_le_one _ hcount hvin hwin)

/-- One more event keeps all this in order. -/
theorem apply {D H : Type} (h : sys.Enrolled) (hsound : sys.Sound) (e : Event D H) :
    (sys.apply e).Enrolled := by
  rcases apply_cases hsound.settled e with
    ⟨haside, -⟩ | ⟨place, w, ev, deed, w', -, hacts⟩
  · obtain ⟨fresh, hfresh, hnodup, hbounds⟩ := haside.numbers
    refine ⟨haside.current h.current, ?_, ?_, ?_⟩
    · rw [hfresh, List.nodup_append]
      refine ⟨h.numbers, hnodup, ?_⟩
      rintro m hm n hn rfl
      obtain ⟨v, hv, rfl⟩ := List.mem_map.mp hm
      have := h.below v hv
      have := (hbounds _ hn).1
      omega
    · intro v hv
      have hmem := List.mem_map_of_mem hv (f := fun v : Worker => v.session.member)
      rw [hfresh] at hmem
      rcases List.mem_append.mp hmem with hold | hnew
      · obtain ⟨u, hu, hmember⟩ := List.mem_map.mp hold
        have := h.below u hu
        have := haside.nextMember
        omega
      · exact (hbounds _ hnew).2
    · -- Whoever is new has not joined yet.
      intro v hv hmember
      rcases haside.mem_cases hv with ⟨u, hu, hkept⟩ | hnew
      · rw [hkept.activity] at hmember
        rw [hkept.session, haside.members]
        exact h.members u hu hmember
      · rw [hnew.activity] at hmember
        cases hmember
  · have hw := List.mem_of_getElem? hacts.before
    have hmove := hacts.move
    refine ⟨hmove.current h.current, by rw [hacts.numbers]; exact h.numbers, ?_, ?_⟩
    · intro v hv
      rw [hmove.sameBut.nextMember]
      rcases hacts.mem_cases hv with rfl | hv
      · rw [hmove.same.member]
        exact h.below w hw
      · exact h.below v hv
    · intro v hv hmember
      obtain ⟨i, hi⟩ := List.mem_iff_getElem?.mp hv
      rw [hacts.after] at hi
      split at hi
      next =>
        obtain rfl := Option.some.inj hi
        rw [hmove.same.group, hmove.same.member]
        exact hmove.enrolled (h.members w hw) hmember
      next hplace =>
        -- In the actor's group, everybody else has another number and stays a member.
        have hbefore := h.members v (List.mem_of_getElem? hi) hmember
        by_cases hgroup : v.session.group = w.session.group
        · have hne : v.session.member ≠ w.session.member := fun hmember =>
            hplace (h.eq_of_member hi hacts.before hmember)
          rw [hgroup] at hbefore ⊢
          rw [show (Broker.group _ w.session.group).members.get? v.session.member = _ from
            hmove.members_of_ne hne]
          exact hbefore
        · rw [hmove.sameBut.group _ hgroup]
          exact hbefore

end Enrolled

end System

theorem History.enrolled {D H : Type} (events : List (Event D H)) :
    (of events).system.Enrolled := by
  induction events using List.reverseRecOn with
  | nil => exact System.enrolled_empty
  | append_singleton events e ih =>
    rw [of_concat]
    exact ih.apply (sound events) e

end StreamDispatch
