import Mathlib.Data.List.Induction
import StreamDispatch.Proofs.Broker.Shares
import StreamDispatch.Proofs.Stand.Requests

/-!
# What a session knows of its group

A session does not look at its group's assignment each time. It remembers the generation that
it saw last, and looks again only when the group has another one. So everything depends on
this: **a session that has seen the present generation has the partitions that are its own
now** (`StreamDispatch.Session.Attached`). Leaving clears the partitions of a session and
leaves the generation that it remembers alone, but a leave is a rebalance, so from then on
the group is ahead of it, and stays ahead until the session has joined and fetched again.

The group moves on in steps that the session sees nothing of: other members join and leave,
and topics are created. Each such step leaves the dealing as it was or begins a later
generation (`StreamDispatch.Group.Follows`), and that is all that has to be known about it.

## Main statements

* `StreamDispatch.SessionRequest.regroups`: a session leaves the dealing of its group alone,
  joins it, or leaves it.
* `StreamDispatch.Session.Attached.apply`, `StreamDispatch.Session.Attached.of_follows`: what
  a session knows stays right, whoever acts.
* `StreamDispatch.Stand.enrolled`: members are the sessions that have joined, each with a
  number of its own, whatever was asked for.
-/

namespace StreamDispatch

/-! ### The group moves on -/

/-- A group is dealt as it was, or it has a later generation. -/
def Group.Follows (g g' : Group) : Prop := g.SameDeal g' ∨ g.generation < g'.generation

theorem Group.SameDeal.follows {g g' : Group} (h : g.SameDeal g') : g.Follows g' := .inl h

theorem Group.Follows.generation_le {g g' : Group} (h : g.Follows g') :
    g.generation ≤ g'.generation := by
  rcases h with hdeal | hlater
  · exact Nat.le_of_eq hdeal.generation.symm
  · exact Nat.le_of_lt hlater

theorem Group.SameDeal.share_eq {g g' : Group} (h : g.SameDeal g') (m : Nat) :
    g'.share m = g.share m := by
  rw [Group.share, h.assignment, Group.share]

theorem Broker.follows_createTopic (b : Broker) (topic : String) (description : TopicDescription)
    (name : String) : (b.group name).Follows ((b.createTopic topic description).group name) := by
  cases h : b.topics.contains topic with
  | true =>
    rw [createTopic_of_contains description h]
    exact (Group.SameDeal.refl _).follows
  | false =>
    rw [group_createTopic description h]
    split
    · exact .inr (Nat.lt_succ_self _)
    · exact (Group.SameDeal.refl _).follows

namespace Session

/-! ### What a session knows -/

/-- **What a session knows of its group is right.** -/
structure Attached (s : Session) (b : Broker) : Prop where
  tidy : s.Tidy
  /-- Whoever has joined is a member. -/
  member : s.subscribed = true → ∃ topics, (b.group s.group).members.get? s.member = some topics
  /-- Whoever has not joined has no partitions. -/
  away : s.subscribed = false → s.assigned = []
  behind : s.generation ≤ (b.group s.group).generation
  upToDate : s.generation = (b.group s.group).generation →
    s.assigned = (b.group s.group).share s.member

/-- A new session knows nothing, and there is nothing that it should know. -/
theorem attached_create {b₀ b₁ b : Broker} {config : ConsumerConfig} {client : String}
    {s : Session} (h : create b₀ config client = .ok (s, b₁))
    (hnothing : (b.group s.group).share s.member = []) : s.Attached b := by
  obtain ⟨rfl, -⟩ := create_ok h
  exact
    { tidy := ⟨fun _ => ⟨nofun, nofun⟩, nofun⟩
      member := nofun
      away := fun _ => rfl
      behind := Nat.zero_le _
      upToDate := fun _ => hnothing.symm }

/-- **What others do** leaves right what a session knows. -/
theorem Attached.of_follows {s : Session} {b b' : Broker} (h : s.Attached b)
    (hmember : (b'.group s.group).members.get? s.member =
      (b.group s.group).members.get? s.member)
    (hfollows : (b.group s.group).Follows (b'.group s.group)) : s.Attached b' where
  tidy := h.tidy
  member := by
    rw [hmember]
    exact h.member
  away := h.away
  behind := Nat.le_trans h.behind hfollows.generation_le
  upToDate hseen := by
    rcases hfollows with hdeal | hlater
    · rw [hdeal.share_eq]
      exact h.upToDate (hseen.trans hdeal.generation)
    · -- The session has not seen the later generation yet.
      have := h.behind
      omega

/-! ### What a session does to its group -/

/-- **What a session does to its group**: it leaves the dealing alone, and at most looks at
it; it joins; or it leaves. -/
inductive Regroups (s : Session) (b : Broker) (s' : Session) (b' : Broker) : Prop
  | stays (deal : (b.group s.group).SameDeal (b'.group s.group))
      (subscribed : s'.subscribed = s.subscribed)
      (seen : s'.generation = s.generation ∧ s'.assigned = s.assigned ∨
        s.subscribed = true ∧ s'.generation = (b.group s.group).generation ∧
          s'.assigned = (b.group s.group).share s.member)
  | joins (topics : List String) (session : s' = { s with subscribed := true })
      (group : b'.group s.group =
        Group.rebalance b.partitionsOf
          { b.group s.group with
            members := (b.group s.group).members.insert s.member topics })
  | leaves (before : s.subscribed = true) (subscribed : s'.subscribed = false)
      (assigned : s'.assigned = []) (generation : s'.generation = s.generation)
      (members : (b'.group s.group).members = (b.group s.group).members.erase s.member)
      (assignment : (b'.group s.group).assignment =
        Group.assignmentOf b.partitionsOf (b'.group s.group).members)
      (later : (b'.group s.group).generation = (b.group s.group).generation + 1)

variable {s : Session} {b : Broker}

theorem regroups_fetch (h : s.Attached b) {s' : Session} {b' : Broker} {room : Nat}
    {records : List RawRecord} (hfetch : s.fetch room b = .ok (records, s', b')) :
    s.subscribed = true ∧ (b.group s.group).SameDeal (b'.group s.group) ∧
      s'.subscribed = true ∧ s'.generation = (b.group s.group).generation ∧
      s'.assigned = (b.group s.group).share s.member := by
  have hsubscribed : s.subscribed = true := by
    by_contra hne
    rw [fetch, Bool.eq_false_of_not_eq_true hne] at hfetch
    cases hfetch
  obtain ⟨topics, htopics⟩ := h.member hsubscribed
  obtain ⟨g, hg⟩ := Broker.exists_of_member htopics
  have hdeal := sameDeal_fetch hfetch
  refine ⟨hsubscribed, hdeal, (subscribed_fetch hfetch).trans hsubscribed, ?_, ?_⟩
  · rw [← seen_fetch hfetch hg, hdeal.generation]
  · obtain ⟨positions, nextStart, rfl, -, -⟩ := fetch_ok hfetch
    show ((s.sync b).publish b).1.assigned = _
    rw [assigned_publish, (seen_sync hg).2]
    split
    next hseen =>
      -- It had seen this generation before, and has the partitions already.
      exact h.upToDate (by rw [Broker.group_eq hg, hseen])
    next => rw [Group.share, Broker.group_eq hg]

/-- A member that leaves begins a new generation. -/
theorem generation_leave (h : s.Attached b) (hsubscribed : s.subscribed = true) :
    ((s.leave b).2.group s.group).generation = (b.group s.group).generation + 1 := by
  obtain ⟨topics, htopics⟩ := h.member hsubscribed
  obtain ⟨g, hg⟩ := Broker.exists_of_member htopics
  rw [group_leave hsubscribed hg, Group.generation_rebalance]
  exact congrArg (· + 1) (sameDeal_publish s b).generation

theorem regroups_leave (h : s.Attached b) (hsubscribed : s.subscribed = true) :
    Regroups s b (s.leave b).1 (s.leave b).2 := by
  obtain ⟨topics, htopics⟩ := h.member hsubscribed
  obtain ⟨g, hg⟩ := Broker.exists_of_member htopics
  have hgroup := group_leave hsubscribed hg
  have hleft := leave_cases s b
  rw [hsubscribed] at hleft
  obtain ⟨hfalse, -⟩ | ⟨-, hsub, hassigned, -, -⟩ := hleft
  · cases hfalse
  · refine .leaves hsubscribed hsub hassigned ?_ ?_ ?_ (generation_leave h hsubscribed)
    · rw [leave, hsubscribed]
      exact generation_publish s b
    · rw [hgroup, Broker.group_eq hg]
      rfl
    · rw [hgroup]
      rfl

end Session

namespace SessionRequest

open Session

variable {s : Session} {b : Broker}

theorem same_apply (request : SessionRequest) (s : Session) (b : Broker) :
    s.Same (request.apply s b).1 := by
  cases request with
  | subscribe topics => exact same_subscribe s topics b
  | fetch room =>
    rw [apply]
    split
    next h => exact same_fetch h
    next => exact .refl s
  | commit offsets mode =>
    rw [apply]
    split <;> exact .refl s
  | store offsets =>
    obtain ⟨stored, heq, -⟩ := store_eq s offsets
    rw [apply, heq]
    exact ⟨rfl, rfl, rfl, rfl, rfl⟩
  | close => exact same_leave s b

theorem sameBut_apply (request : SessionRequest) (s : Session) (b : Broker) :
    Broker.SameBut s.group b (request.apply s b).2 := by
  cases request with
  | subscribe topics => exact sameBut_subscribe s topics b
  | fetch room =>
    rw [apply]
    split
    next h => exact sameBut_fetch h
    next => exact .refl _ _
  | commit offsets mode =>
    rw [apply]
    split
    next h => exact sameBut_commit h
    next => exact .refl _ _
  | store offsets => exact .refl _ _
  | close => exact sameBut_leave s b

theorem tidy_apply (request : SessionRequest) (h : s.Tidy) (b : Broker) :
    (request.apply s b).1.Tidy := by
  cases request with
  | subscribe topics => exact ⟨h.positions, h.stored⟩
  | fetch room =>
    rw [apply]
    split
    next hfetch => exact h.fetch hfetch
    next => exact h
  | commit offsets mode =>
    rw [apply]
    split <;> exact h
  | store offsets => exact h.store offsets
  | close => exact h.leave b

/-- **Whatever is asked of a session**, it leaves the dealing of its group alone, joins it, or
leaves it. -/
theorem regroups (request : SessionRequest) (h : s.Attached b) :
    s.Regroups b (request.apply s b).1 (request.apply s b).2 := by
  have hnothing : s.Regroups b s b := .stays (.refl _) rfl (.inl ⟨rfl, rfl⟩)
  cases request with
  | subscribe topics => exact .joins topics rfl (group_subscribe s topics b)
  | fetch room =>
    rw [apply]
    split
    next hfetch =>
      obtain ⟨hbefore, hdeal, hafter, hgeneration, hassigned⟩ := regroups_fetch h hfetch
      exact .stays hdeal (hafter.trans hbefore.symm) (.inr ⟨hbefore, hgeneration, hassigned⟩)
    next => exact hnothing
  | commit offsets mode =>
    rw [apply]
    split
    next hcommit => exact .stays (sameDeal_commit hcommit) rfl (.inl ⟨rfl, rfl⟩)
    next => exact hnothing
  | store offsets =>
    obtain ⟨stored, heq, -⟩ := store_eq s offsets
    rw [apply, heq]
    exact .stays (.refl _) rfl (.inl ⟨rfl, rfl⟩)
  | close =>
    cases hsub : s.subscribed with
    | true => exact regroups_leave h hsub
    | false =>
      have hleave : s.leave b = (s, b) := by
        rw [leave, hsub]
        rfl
      rw [apply, hleave]
      exact hnothing

end SessionRequest

/-- **What a session does itself** leaves right what it knows. -/
theorem Session.Attached.apply {s : Session} {b : Broker} (h : s.Attached b)
    (request : SessionRequest) : (request.apply s b).1.Attached (request.apply s b).2 := by
  have hsame := request.same_apply s b
  have htidy := request.tidy_apply h.tidy b
  have hregroups := request.regroups h
  generalize (request.apply s b).1 = s' at *
  generalize (request.apply s b).2 = b' at *
  cases hregroups with
  | stays hdeal hsubscribed hseen =>
    refine ⟨htidy, ?_, ?_, ?_, ?_⟩
    · rw [hsame.group, hsame.member, hdeal.members, hsubscribed]
      exact h.member
    · intro haway
      rcases hseen with ⟨-, hassigned⟩ | ⟨hjoined, -, -⟩
      · rw [hassigned]
        exact h.away (hsubscribed.symm.trans haway)
      · rw [hsubscribed, hjoined] at haway
        cases haway
    · rw [hsame.group, hdeal.generation]
      rcases hseen with ⟨hgeneration, -⟩ | ⟨-, hgeneration, -⟩
      · rw [hgeneration]
        exact h.behind
      · exact Nat.le_of_eq hgeneration
    · rw [hsame.group, hsame.member, hdeal.generation, hdeal.share_eq]
      rcases hseen with ⟨hgeneration, hassigned⟩ | ⟨-, -, hassigned⟩
      · rw [hgeneration, hassigned]
        exact h.upToDate
      · exact fun _ => hassigned
  | joins topics hsession hgroup =>
    subst hsession
    refine ⟨htidy, fun _ => ⟨topics, ?_⟩, nofun, ?_, fun hseen => ?_⟩
    · rw [show Broker.group b' _ = _ from hgroup]
      exact Dict.get?_insert_self _ _ _
    · rw [show Broker.group b' _ = _ from hgroup]
      exact Nat.le_succ_of_le h.behind
    · -- Joining is a rebalance, which the session has not seen.
      rw [show Broker.group b' _ = _ from hgroup] at hseen
      have hseen : s.generation = (b.group s.group).generation + 1 := hseen
      have := h.behind
      omega
  | leaves _ hsubscribed hassigned hgeneration _ _ hlater =>
    have := h.behind
    refine ⟨htidy, fun hjoined => ?_, fun _ => hassigned, ?_, fun hseen => ?_⟩
    · rw [hsubscribed] at hjoined
      cases hjoined
    · rw [hsame.group, hlater, hgeneration]
      omega
    · rw [hsame.group, hlater, hgeneration] at hseen
      omega

namespace Stand

variable {st st' : Stand} {label : String} {s : Session}

/-! ### All sessions -/

/-- **Members are the sessions that have joined**, each with a number of its own. -/
structure Enrolled (st : Stand) : Prop where
  current : st.broker.Current
  attached : ∀ label s, st.sessions.get? label = some s → s.Attached st.broker
  numbers : ∀ label label' s s', st.sessions.get? label = some s →
    st.sessions.get? label' = some s' → s.member = s'.member → label = label'
  below : ∀ label s, st.sessions.get? label = some s → s.member < st.broker.nextMember
  members : ∀ name m topics, (st.broker.group name).members.get? m = some topics →
    ∃ label s, st.sessions.get? label = some s ∧ s.group = name ∧ s.member = m ∧
      s.subscribed = true

theorem enrolled_empty : Enrolled empty where
  current := Broker.current_empty
  attached _ _ := nofun
  numbers _ _ _ _ := nofun
  below _ _ := nofun
  members _ _ _ := nofun

namespace Enrolled

/-- What happens to the broker aside from its sessions. -/
theorem aside (h : st.Enrolled) (hsessions : st'.sessions = st.sessions)
    (hcurrent : st'.broker.Current)
    (hmembers : ∀ name, (st'.broker.group name).members = (st.broker.group name).members)
    (hfollows : ∀ name, (st.broker.group name).Follows (st'.broker.group name))
    (hnext : st.broker.nextMember ≤ st'.broker.nextMember) : st'.Enrolled where
  current := hcurrent
  attached label s hs := by
    rw [hsessions] at hs
    exact (h.attached label s hs).of_follows (by rw [hmembers]) (hfollows s.group)
  numbers := by
    rw [hsessions]
    exact h.numbers
  below label s hs := by
    rw [hsessions] at hs
    exact Nat.lt_of_lt_of_le (h.below label s hs) hnext
  members name m topics hm := by
    rw [hmembers] at hm
    rw [hsessions]
    exact h.members name m topics hm

/-- What happens to the broker without any change of groups. -/
theorem of_groups (h : st.Enrolled) (hsessions : st'.sessions = st.sessions)
    (hgroups : st'.broker.groups = st.broker.groups)
    (hparts : st'.broker.partitionsOf = st.broker.partitionsOf)
    (hnext : st.broker.nextMember ≤ st'.broker.nextMember) : st'.Enrolled := by
  have hgroup : ∀ name, st'.broker.group name = st.broker.group name := by
    intro name
    rw [Broker.group, Broker.group, hgroups]
  refine h.aside hsessions (h.current.congr hgroups hparts) (fun name => by rw [hgroup]) ?_ hnext
  intro name
  rw [hgroup]
  exact (Group.SameDeal.refl _).follows

/-- In the group of a session that acts, all other members stay, and the dealing is current. -/
theorem group_apply (h : st.Enrolled) (hs : st.sessions.get? label = some s)
    (request : SessionRequest) :
    (request.apply s st.broker).2.Current ∧
      (∀ m, m ≠ s.member → ((request.apply s st.broker).2.group s.group).members.get? m =
        (st.broker.group s.group).members.get? m) ∧
      (st.broker.group s.group).Follows ((request.apply s st.broker).2.group s.group) := by
  have hsameBut := request.sameBut_apply s st.broker
  have hname : ∀ {b' : Broker}, Broker.SameBut s.group st.broker b' →
      (b'.group s.group).assignment =
        Group.assignmentOf st.broker.partitionsOf (b'.group s.group).members → b'.Current :=
    fun hsame hassignment => h.current.of_sameBut hsame hassignment
  cases request.regroups (h.attached label s hs) with
  | stays hdeal _ _ =>
    refine ⟨hname hsameBut ?_, fun m _ => by rw [hdeal.members], hdeal.follows⟩
    rw [hdeal.assignment, hdeal.members]
    exact h.current s.group
  | joins topics _ hgroup =>
    refine ⟨hname hsameBut (by rw [hgroup]; rfl), fun m hm => ?_, .inr ?_⟩
    · rw [hgroup]
      exact Dict.get?_insert_of_ne _ hm topics
    · rw [hgroup]
      exact Nat.lt_succ_self _
  | leaves _ _ _ _ hmembers hassignment hlater =>
    refine ⟨hname hsameBut hassignment, fun m hm => ?_, .inr ?_⟩
    · rw [hmembers, Dict.get?_erase, if_neg hm]
    · rw [hlater]
      exact Nat.lt_succ_self _

/-- A session that acts has joined if its number is that of a member afterwards. -/
theorem subscribed_apply (h : st.Enrolled) (hs : st.sessions.get? label = some s)
    (request : SessionRequest) (topics : List String)
    (hmember : ((request.apply s st.broker).2.group s.group).members.get? s.member =
      some topics) : (request.apply s st.broker).1.subscribed = true := by
  cases request.regroups (h.attached label s hs) with
  | stays hdeal hsubscribed _ =>
    rw [hdeal.members] at hmember
    obtain ⟨other, v, hv, -, hnumber, hjoined⟩ := h.members _ _ _ hmember
    obtain rfl := h.numbers other label v s hv hs hnumber
    obtain rfl := Option.some.inj (hv.symm.trans hs)
    rw [hsubscribed, hjoined]
  | joins _ hsession _ => rw [hsession]
  | leaves _ _ _ _ hmembers _ _ =>
    rw [hmembers, Dict.get?_erase, if_pos rfl] at hmember
    cases hmember

/-- **A session acts**, and stays, or is forgotten once it is not in its group any more. -/
theorem acts (h : st.Enrolled) (hs : st.sessions.get? label = some s) (request : SessionRequest)
    (hbroker : st'.broker = (request.apply s st.broker).2)
    (hothers : ∀ other, other ≠ label → st'.sessions.get? other = st.sessions.get? other)
    (hself : st'.sessions.get? label = some (request.apply s st.broker).1 ∨
      st'.sessions.get? label = none ∧ (request.apply s st.broker).1.subscribed = false) :
    st'.Enrolled := by
  have hsame := request.same_apply s st.broker
  have hsameBut := request.sameBut_apply s st.broker
  have hattached := (h.attached label s hs).apply request
  have hjoined := h.subscribed_apply hs request
  obtain ⟨hcurrent, hmembers, hfollows⟩ := h.group_apply hs request
  rw [← hbroker] at hsameBut hattached hcurrent hmembers hfollows hjoined
  generalize (request.apply s st.broker).1 = s' at *
  -- Whoever is there afterwards is the session itself, or was there before.
  have hcases : ∀ other v, st'.sessions.get? other = some v →
      other = label ∧ v = s' ∨ other ≠ label ∧ st.sessions.get? other = some v := by
    intro other v hv
    by_cases hother : other = label
    · subst hother
      rcases hself with hself | ⟨hself, -⟩ <;> rw [hself] at hv <;> cases hv
      exact .inl ⟨rfl, rfl⟩
    · exact .inr ⟨hother, (hothers other hother).symm.trans hv⟩
  have hbefore : ∀ other v, st'.sessions.get? other = some v →
      ∃ u, st.sessions.get? other = some u ∧ u.member = v.member := by
    intro other v hv
    rcases hcases other v hv with ⟨rfl, rfl⟩ | ⟨-, hold⟩
    · exact ⟨s, hs, hsame.member.symm⟩
    · exact ⟨v, hold, rfl⟩
  refine ⟨hcurrent, fun other v hv => ?_, ?_, fun other v hv => ?_, fun name m topics hm => ?_⟩
  · rcases hcases other v hv with ⟨-, rfl⟩ | ⟨hother, hold⟩
    · exact hattached
    · by_cases hgroup : v.group = s.group
      · have hne : v.member ≠ s.member := fun hmember =>
          hother (h.numbers other label v s hold hs hmember)
        refine (h.attached other v hold).of_follows ?_ ?_ <;> rw [hgroup]
        · exact hmembers v.member hne
        · exact hfollows
      · refine (h.attached other v hold).of_follows ?_ ?_ <;> rw [hsameBut.group _ hgroup]
        exact (Group.SameDeal.refl _).follows
  · intro other other' v v' hv hv' hmember
    obtain ⟨u, hu, hnumber⟩ := hbefore other v hv
    obtain ⟨u', hu', hnumber'⟩ := hbefore other' v' hv'
    exact h.numbers other other' u u' hu hu' (by rw [hnumber, hnumber', hmember])
  · obtain ⟨u, hu, hnumber⟩ := hbefore other v hv
    rw [hsameBut.nextMember, ← hnumber]
    exact h.below other u hu
  · -- A member is the session itself, or it was a member before.
    by_cases hname : name = s.group ∧ m = s.member
    · obtain ⟨rfl, rfl⟩ := hname
      rcases hself with hself | ⟨-, haway⟩
      · exact ⟨label, s', hself, hsame.group, hsame.member, hjoined topics hm⟩
      · rw [hjoined topics hm] at haway
        cases haway
    · have hold : (st.broker.group name).members.get? m = some topics := by
        by_cases hgroup : name = s.group
        · subst hgroup
          rw [← hmembers m fun hmember => hname ⟨rfl, hmember⟩]
          exact hm
        · rwa [hsameBut.group name hgroup] at hm
      obtain ⟨other, v, hv, hgroup, hnumber, hsubscribed⟩ := h.members name m topics hold
      have hother : other ≠ label := by
        rintro rfl
        obtain rfl := Option.some.inj (hs.symm.trans hv)
        exact hname ⟨hgroup.symm, hnumber.symm⟩
      exact ⟨other, v, (hothers other hother).trans hv, hgroup, hnumber, hsubscribed⟩

/-- A session is dropped. -/
theorem drop (h : st.Enrolled) (label : String) : (st.drop label).2.Enrolled := by
  cases hs : st.sessions.get? label with
  | none => rwa [drop_of_none hs]
  | some s =>
    refine h.acts hs .close ?_ (fun other hother => ?_) (.inr ⟨?_, ?_⟩)
    · rw [drop_eq hs]
      rfl
    · rw [session_drop, if_neg hother]
    · rw [session_drop, if_pos rfl]
    · rcases Session.leave_cases s st.broker with ⟨hsubscribed, hleave⟩ | ⟨-, hsubscribed, -⟩
      · rw [SessionRequest.apply, hleave]
        exact hsubscribed
      · exact hsubscribed

/-- A new session is opened under a label that is free. -/
theorem enter (h : st.Enrolled) (hnone : st.sessions.get? label = none) {b₀ b₁ : Broker}
    {config : ConsumerConfig} {client : String}
    (hcreate : Session.create b₀ config client = .ok (s, b₁))
    (hunused : ∀ other v, st.sessions.get? other = some v → v.member ≠ s.member)
    (hbelow : s.member < st.broker.nextMember) : (st.put label s).Enrolled := by
  have hcases : ∀ other v, (st.put label s).sessions.get? other = some v →
      other = label ∧ v = s ∨ st.sessions.get? other = some v := by
    intro other v hv
    rw [session_put] at hv
    split at hv
    next hother => exact .inl ⟨hother, (Option.some.inj hv).symm⟩
    next => exact .inr hv
  refine ⟨h.current, fun other v hv => ?_, ?_, fun other v hv => ?_, fun name m topics hm => ?_⟩
  · rcases hcases other v hv with ⟨-, rfl⟩ | hold
    · refine Session.attached_create hcreate (List.eq_nil_iff_forall_not_mem.mpr fun tp htp => ?_)
      -- Whoever has partitions is a member, and the number is nobody's.
      obtain ⟨-, topics, hm, -⟩ := h.current.of_mem_share htp
      obtain ⟨other, v, hv, -, hnumber, -⟩ := h.members _ _ _ hm
      exact hunused other v hv hnumber
    · exact h.attached other v hold
  · intro other other' v v' hv hv' hmember
    rcases hcases other v hv with ⟨rfl, rfl⟩ | hold <;>
      rcases hcases other' v' hv' with ⟨rfl, rfl⟩ | hold'
    · rfl
    · exact absurd hmember.symm (hunused other' v' hold')
    · exact absurd hmember (hunused other v hold)
    · exact h.numbers other other' v v' hold hold' hmember
  · rcases hcases other v hv with ⟨-, rfl⟩ | hold
    · exact hbelow
    · exact h.below other v hold
  · obtain ⟨other, v, hv, hrest⟩ := h.members name m topics hm
    refine ⟨other, v, ?_, hrest⟩
    rw [session_put, if_neg, hv]
    rintro rfl
    rw [hnone] at hv
    cases hv

/-- A number more is given out. -/
theorem counted (h : st.Enrolled) :
    ({ st with broker := { st.broker with nextMember := st.broker.nextMember + 1 } } : Stand)
      |>.Enrolled :=
  h.of_groups rfl rfl rfl (Nat.le_succ _)

theorem openSession (h : st.Enrolled) (label client : String) (config : ConsumerConfig) :
    (st.openSession label client config).2.Enrolled := by
  rcases openSession_cases st label client config with heq | ⟨s, b, hcreate, heq⟩
  · rwa [heq]
  · rw [heq]
    obtain ⟨hs, rfl⟩ := Session.create_ok hcreate
    refine (h.counted.drop label).enter ?_ hcreate (fun other v hv hmember => ?_) ?_
    · rw [session_drop, if_pos rfl]
    · rw [session_drop] at hv
      split at hv
      · cases hv
      · have := h.below other v hv
        rw [hs] at hmember
        have hmember : v.member = st.broker.nextMember := hmember
        omega
    · rw [nextMember_drop, hs]
      exact Nat.lt_succ_self _

/-- **One more request.** -/
theorem apply (h : st.Enrolled) (request : Request) : (st.apply request).Enrolled := by
  cases request with
  | wait millis => exact h.of_groups rfl rfl rfl (Nat.le_refl _)
  | createTopic topic description =>
    exact h.aside rfl (h.current.createTopic topic description)
      (st.broker.members_createTopic topic description)
      (st.broker.follows_createTopic topic description)
      (Nat.le_of_eq (st.broker.nextMember_createTopic topic description).symm)
  | produce tp record =>
    rw [Stand.apply]
    split
    next offset b hproduce =>
      exact h.of_groups rfl (Broker.groups_produce hproduce) (Broker.partitionsOf_produce hproduce)
        (Nat.le_of_eq (Broker.nextMember_produce hproduce).symm)
    next => exact h
  | describe topic =>
    have hdescribe : (st.broker.describe topic).2 =
        { st.broker with describeCalls := st.broker.describeCalls + 1 } := by
      rw [Broker.describe]
      split <;> rfl
    rw [Stand.apply, hdescribe]
    exact h.of_groups rfl rfl rfl (Nat.le_refl _)
  | setFaults faults => exact h.of_groups rfl rfl rfl (Nat.le_refl _)
  | openSession label client config => exact h.openSession label client config
  | ask label request =>
    cases hs : st.sessions.get? label with
    | none => rwa [apply_ask_of_none hs]
    | some s =>
      rw [apply_ask hs]
      refine h.acts hs request rfl (fun other hother => ?_) (.inl ?_)
      · rw [session_put, if_neg hother]
      · rw [session_put, if_pos rfl]
  | drop label => exact h.drop label

/-! ### Rebalances -/

/-- A session that acts leaves every group dealt as it was, or in a later generation. -/
theorem follows_session (h : st.Enrolled) (hs : st.sessions.get? label = some s)
    (request : SessionRequest) (name : String) :
    (st.broker.group name).Follows ((request.apply s st.broker).2.group name) := by
  by_cases hname : name = s.group
  · subst hname
    exact (h.group_apply hs request).2.2
  · rw [(request.sameBut_apply s st.broker).group name hname]
    exact (Group.SameDeal.refl _).follows

theorem follows_drop (h : st.Enrolled) (label name : String) :
    (st.broker.group name).Follows ((st.drop label).2.broker.group name) := by
  cases hs : st.sessions.get? label with
  | none =>
    rw [drop_of_none hs]
    exact (Group.SameDeal.refl _).follows
  | some s =>
    rw [drop_eq hs]
    exact h.follows_session hs .close name

/-- **A request** leaves every group dealt as it was, or in a later generation. -/
theorem follows_apply (h : st.Enrolled) (request : Request) (name : String) :
    (st.broker.group name).Follows ((st.apply request).broker.group name) := by
  have hsame : ∀ {b : Broker}, b.groups = st.broker.groups →
      (st.broker.group name).Follows (b.group name) := by
    intro b hgroups
    rw [Broker.group, Broker.group, hgroups]
    exact (Group.SameDeal.refl _).follows
  cases request with
  | wait millis => exact hsame rfl
  | createTopic topic description => exact st.broker.follows_createTopic topic description name
  | produce tp record =>
    rw [Stand.apply]
    split
    next hproduce => exact hsame (Broker.groups_produce hproduce)
    next => exact hsame rfl
  | describe topic => exact hsame (by rw [Stand.apply, Broker.describe]; split <;> rfl)
  | setFaults faults => exact hsame rfl
  | openSession label client config =>
    rw [Stand.apply]
    rcases openSession_cases st label client config with heq | ⟨s, b, hcreate, heq⟩
    · rw [heq]
      exact hsame rfl
    · rw [heq]
      obtain ⟨-, rfl⟩ := Session.create_ok hcreate
      exact h.counted.follows_drop label name
  | ask label request =>
    cases hs : st.sessions.get? label with
    | none =>
      rw [apply_ask_of_none hs]
      exact hsame rfl
    | some s =>
      rw [apply_ask hs]
      exact h.follows_session hs request name
  | drop label => exact h.follows_drop label name

end Enrolled

/-! ### What becomes of a session -/

/-- What a request does to one session: nothing; it is what is asked of the session; or the
session is dropped, and another one may come in its place. -/
inductive Fate (st : Stand) (label : String) (s : Session) (st' : Stand) : Prop
  | stays (session : st'.sessions.get? label = some s)
  | acts (request : SessionRequest)
      (session : st'.sessions.get? label = some (request.apply s st.broker).1)
      (broker : st'.broker = (request.apply s st.broker).2)
  | gone (b : Broker) (groups : b.groups = st.broker.groups)
      (broker : st'.broker = (s.leave b).2)

theorem fate_apply (hs : st.sessions.get? label = some s) (request : Request) :
    st.Fate label s (st.apply request) := by
  by_cases hlabel : request.label? = some label
  swap
  · exact .stays ((session_apply st hlabel).trans hs)
  cases request with
  | openSession other client config =>
    obtain rfl : other = label := Option.some.inj hlabel
    rw [Stand.apply]
    rcases openSession_cases st other client config with heq | ⟨s', b, hcreate, heq⟩
    · rw [heq]
      exact .stays hs
    · obtain ⟨-, rfl⟩ := Session.create_ok hcreate
      rw [heq]
      refine .gone { st.broker with nextMember := st.broker.nextMember + 1 } rfl ?_
      refine congrArg Stand.broker (drop_eq ?_)
      exact hs
  | ask other request =>
    obtain rfl : other = label := Option.some.inj hlabel
    rw [apply_ask hs]
    exact .acts request (by rw [session_put, if_pos rfl]) rfl
  | drop other =>
    obtain rfl : other = label := Option.some.inj hlabel
    rw [Stand.apply, drop_eq hs]
    exact .gone st.broker rfl rfl
  | _ => cases hlabel

/-- **Whatever was asked for**, members are the sessions that have joined, and what each
session knows is right. -/
theorem enrolled (requests : List Request) : (of requests).Enrolled := by
  induction requests using List.reverseRecOn with
  | nil => exact enrolled_empty
  | append_singleton requests request ih =>
    rw [of_concat]
    exact ih.apply request

end Stand

end StreamDispatch
