import StreamDispatch.Proofs.Stand.Membership

/-!
# Exclusive delivery

Within a group no two members are handed records of one partition. At the broker this is a
fact about the dealing of a group at one moment: each partition that somebody waits for has
one owner (`StreamDispatch.Stand.dealt_once`). What a session holds may be out of date, and
then two sessions can well hold one partition at the same time. But records are handed out by
fetches only, and a fetch begins with a look at the group.

So there are two statements about sessions. Whatever a fetch returns belongs to the session
at that moment, and once every member has fetched since the last rebalance, what the sessions
hold is the present dealing. The second one is about a stretch of time: from its fetch on a
session has seen the present generation (`StreamDispatch.Stand.Seen`), until there is another
one.

## Main definitions

* `StreamDispatch.Stand.Member`: a session is a current member of a group.
* `StreamDispatch.Stand.HasFetched`: a session has fetched since the last rebalance.

## Main statements

* `StreamDispatch.Stand.dealt_once`: every reachable dealing is complete, exclusive and
  balanced.
* `StreamDispatch.Stand.handed_to_owner`: records go to the owner of their partition, and up
  to date members hold each partition once.
-/

namespace StreamDispatch

namespace Stand

variable {st : Stand} {name label : String} {s : Session}

/-! ### The dealing of a group -/

/-- **Every partition that somebody waits for has one owner**, whatever was asked for. In each
group, an existing partition of a topic with a subscriber is dealt to exactly one member; what
a member is dealt exists, is dealt to it once and is of a topic that it subscribes to; and of
no topic does one subscriber get more than one partition more than another. -/
theorem dealt_once (requests : List Request) (name : String) :
    (∀ tp m, ((of requests).broker.log? tp).isSome = true →
      ((of requests).broker.group name).Subscribes m tp.topic →
        ∃! owner, tp ∈ ((of requests).broker.group name).share owner) ∧
    (∀ m, (((of requests).broker.group name).share m).Nodup ∧
      ∀ tp ∈ ((of requests).broker.group name).share m,
        ((of requests).broker.log? tp).isSome = true ∧
          ((of requests).broker.group name).Subscribes m tp.topic) ∧
    (∀ topic m m', ((of requests).broker.group name).Subscribes m topic →
      ((of requests).broker.group name).Subscribes m' topic →
        (((of requests).broker.group name).share m).countP (fun tp => tp.topic = topic) ≤
          (((of requests).broker.group name).share m').countP
            (fun tp => tp.topic = topic) + 1) := by
  have hcurrent := (enrolled requests).current
  refine ⟨fun tp m hexists hm => ?_, fun m => ⟨?_, fun tp htp => ?_⟩, fun topic m m' hm hm' => ?_⟩
  · exact hcurrent.existsUnique_owner hexists hm
  · exact Group.share_nodup (hcurrent name) m
  · exact hcurrent.of_mem_share htp
  · exact Group.share_balanced (hcurrent name) hm hm'

/-- Two sessions of one group. The second topic is there only after both have joined, and only
the first session waits for it. -/
def twoReaders : List Request :=
  [.createTopic "orders" ⟨3, 1, ∅⟩, .openSession "left" "left" .default,
    .openSession "right" "right" .default, .ask "left" (.subscribe ["orders", "refunds"]),
    .ask "right" (.subscribe ["orders"]), .createTopic "refunds" ⟨1, 1, ∅⟩,
    .produce ⟨"orders", 1⟩ ⟨none, none, 0, []⟩, .ask "left" (.fetch 10)]

/-- The new topic has one owner, and of the other one the first session has one partition more
than the second. -/
theorem dealt_once_twoReaders :
    (∃! owner, (⟨"refunds", 0⟩ : TopicPartition) ∈
      ((of twoReaders).broker.group "default").share owner) ∧
    (((of twoReaders).broker.group "default").share 0).countP (fun tp => tp.topic = "orders") ≤
      (((of twoReaders).broker.group "default").share 1).countP
        (fun tp => tp.topic = "orders") + 1 := by
  obtain ⟨hunique, -, hbalanced⟩ := dealt_once twoReaders "default"
  have hleft : ((of twoReaders).broker.group "default").members.get? 0 =
      some ["orders", "refunds"] := by decide +kernel
  have hright : ((of twoReaders).broker.group "default").members.get? 1 = some ["orders"] := by
    decide +kernel
  exact ⟨hunique ⟨"refunds", 0⟩ 0 (by decide +kernel) ⟨_, hleft, by decide⟩,
    hbalanced "orders" 0 1 ⟨_, hleft, by decide⟩ ⟨_, hright, by decide⟩⟩

/-! ### Members that are up to date -/

/-- A session is a current member of a group. -/
structure Member (st : Stand) (name label : String) (s : Session) : Prop where
  session : st.sessions.get? label = some s
  group : s.group = name
  listed : ((st.broker.group name).members.get? s.member).isSome = true

/-- The session of a label, in a group by then, has fetched since the last rebalance of the
group. -/
def HasFetched (requests : List Request) (name label : String) : Prop :=
  ∃ before room after s,
    requests = before ++ .ask label (.fetch room) :: after ∧
      (of before).sessions.get? label = some s ∧ s.group = name ∧
      ((of before).fetched? label room).isSome = true ∧
      ((of requests).broker.group name).generation =
        ((of (before ++ [.ask label (.fetch room)])).broker.group name).generation

/-- The session of a label has joined a group and has seen its present generation. -/
def Seen (st : Stand) (name label : String) : Prop :=
  ∃ s, st.sessions.get? label = some s ∧ s.group = name ∧ s.subscribed = true ∧
    s.generation = (st.broker.group name).generation

/-- **What a session has seen of its group stays so until the next rebalance.** -/
theorem Enrolled.seen_apply (h : st.Enrolled) (hseen : st.Seen name label) (request : Request) :
    (st.apply request).Seen name label ∨
      (st.broker.group name).generation < ((st.apply request).broker.group name).generation := by
  obtain ⟨s, hs, rfl, hjoined, hgeneration⟩ := hseen
  have hattached := h.attached label s hs
  cases fate_apply hs request with
  | stays hsession =>
    rcases h.follows_apply request s.group with hdeal | hlater
    · exact .inl ⟨s, hsession, rfl, hjoined, hgeneration.trans hdeal.generation.symm⟩
    · exact .inr hlater
  | acts asked hsession hbroker =>
    have hsame := asked.same_apply s st.broker
    have hregroups := asked.regroups hattached
    rw [← hbroker] at hregroups
    cases hregroups with
    | stays hdeal hsubscribed hlooks =>
      refine .inl ⟨_, hsession, hsame.group, hsubscribed.trans hjoined, ?_⟩
      rw [hdeal.generation]
      rcases hlooks with ⟨hkept, -⟩ | ⟨-, hlooked, -⟩
      · exact hkept.trans hgeneration
      · exact hlooked
    | joins _ _ hgroup =>
      rw [hgroup]
      exact .inr (Nat.lt_succ_self _)
    | leaves _ _ _ _ _ _ hlater =>
      rw [hlater]
      exact .inr (Nat.lt_succ_self _)
  | gone b hgroups hbroker =>
    -- A session that is dropped leaves, and that is a rebalance.
    have hgroup : b.group s.group = st.broker.group s.group := by
      rw [Broker.group, Broker.group, hgroups]
    have hbefore : s.Attached b :=
      hattached.of_follows (by rw [hgroup]) (hgroup ▸ (Group.SameDeal.refl _).follows)
    rw [hbroker, Session.generation_leave hbefore hjoined, hgroup]
    exact .inr (Nat.lt_succ_self _)

theorem generation_append (requests more : List Request) (name : String) :
    ((of requests).broker.group name).generation ≤
      ((of (requests ++ more)).broker.group name).generation := by
  induction more using List.reverseRecOn with
  | nil => rw [List.append_nil]
  | append_singleton more request ih =>
    rw [← List.append_assoc, of_concat]
    exact Nat.le_trans ih ((enrolled _).follows_apply request name).generation_le

/-- **As long as the generation is the same**, a session that has seen it still has. -/
theorem seen_append (requests : List Request) (hseen : (of requests).Seen name label)
    (more : List Request)
    (hgeneration : ((of (requests ++ more)).broker.group name).generation =
      ((of requests).broker.group name).generation) : (of (requests ++ more)).Seen name label := by
  induction more using List.reverseRecOn with
  | nil => rwa [List.append_nil]
  | append_singleton more request ih =>
    have hbefore := generation_append requests more name
    rw [← List.append_assoc, of_concat] at hgeneration ⊢
    have hstep := ((enrolled (requests ++ more)).follows_apply request name).generation_le
    rcases (enrolled _).seen_apply (ih (by omega)) request with hafter | hlater
    · exact hafter
    · omega

/-- Whoever has fetched since the last rebalance has the partitions that are its own. -/
theorem assigned_of_hasFetched {requests : List Request} (h : HasFetched requests name label)
    (hs : (of requests).sessions.get? label = some s) :
    s.assigned = ((of requests).broker.group name).share s.member := by
  obtain ⟨before, room, after, u, hrequests, hu, hname, hfetched, hgeneration⟩ := h
  obtain ⟨records, hrecords⟩ := Option.isSome_iff_exists.mp hfetched
  obtain ⟨_, u', b', hu', hfetch⟩ := fetched?_eq_some.mp hrecords
  obtain rfl := Option.some.inj (hu.symm.trans hu')
  obtain ⟨-, hdeal, hjoined, hlooked, -⟩ :=
    Session.regroups_fetch ((enrolled before).attached label u hu) hfetch
  have hseen : (of (before ++ [.ask label (.fetch room)])).Seen name label := by
    rw [of_concat, apply_fetch hu hfetch]
    refine ⟨u', by rw [session_put, if_pos rfl], (Session.same_fetch hfetch).group.trans hname,
      hjoined, ?_⟩
    rw [hlooked, ← hdeal.generation, hname]
    rfl
  obtain rfl : before ++ [.ask label (.fetch room)] ++ after = requests := by
    rw [hrequests, List.append_assoc]
    rfl
  obtain ⟨v, hv, rfl, -, hpresent⟩ := seen_append _ hseen after hgeneration
  obtain rfl := Option.some.inj (hv.symm.trans hs)
  exact ((enrolled _).attached label v hv).upToDate hpresent

/-! ### Who records go to -/

/-- **Exclusive delivery.** Whatever was asked for, every record that a fetch returns is from
a partition that the group's dealing at that moment gives to the session that fetches, and to
no other member. And as soon as all members of a group have fetched since its last rebalance,
each of them has its partitions once, no two of them have one in common, and together they
have the existing partitions of the topics that some member subscribes to. -/
theorem handed_to_owner (requests : List Request) :
    (∀ label s room records s' b', (of requests).sessions.get? label = some s →
      s.fetch room (of requests).broker = .ok (records, s', b') → ∀ r ∈ records,
        r.topicPartition ∈ ((of requests).broker.group s.group).share s.member ∧
          ∀ m, r.topicPartition ∈ ((of requests).broker.group s.group).share m → m = s.member) ∧
    (∀ name, (∀ label s, (of requests).Member name label s → HasFetched requests name label) →
      (∀ label s, (of requests).Member name label s → s.assigned.Nodup) ∧
      (∀ label label' s s', (of requests).Member name label s →
        (of requests).Member name label' s' → label ≠ label' →
          s.assigned.Disjoint s'.assigned) ∧
      (∀ tp, (∃ label s, (of requests).Member name label s ∧ tp ∈ s.assigned) ↔
        ((of requests).broker.log? tp).isSome = true ∧
          ∃ m, ((of requests).broker.group name).Subscribes m tp.topic)) := by
  have henrolled := enrolled requests
  have hcurrent := henrolled.current
  refine ⟨fun label s room records s' b' hs hfetch r hr => ?_, fun name hfetched => ?_⟩
  · have hattached := henrolled.attached label s hs
    obtain ⟨-, -, -, -, hassigned⟩ := Session.regroups_fetch hattached hfetch
    have howns := hattached.tidy.mem_assigned_of_fetch hfetch hr
    rw [hassigned] at howns
    exact ⟨howns, fun m hm => Group.owner_unique (hcurrent s.group) hm howns⟩
  · have hshare : ∀ label s, (of requests).Member name label s →
        s.assigned = ((of requests).broker.group name).share s.member :=
      fun label s hs => assigned_of_hasFetched (hfetched label s hs) hs.session
    refine ⟨fun label s hs => ?_, fun label label' s s' hs hs' hne tp htp htp' => ?_, fun tp => ?_⟩
    · rw [hshare label s hs]
      exact Group.share_nodup (hcurrent name) s.member
    · -- Two owners of one partition are one member, and a number belongs to one session.
      rw [hshare label s hs] at htp
      rw [hshare label' s' hs'] at htp'
      exact hne (henrolled.numbers label label' s s' hs.session hs'.session
        (Group.owner_unique (hcurrent name) htp htp'))
    · constructor
      · rintro ⟨label, s, hs, htp⟩
        rw [hshare label s hs] at htp
        obtain ⟨hexists, hsubscribes⟩ := hcurrent.of_mem_share htp
        exact ⟨hexists, s.member, hsubscribes⟩
      · rintro ⟨hexists, m, hm⟩
        obtain ⟨owner, howns, -⟩ := hcurrent.existsUnique_owner hexists hm
        obtain ⟨-, topics, htopics, -⟩ := hcurrent.of_mem_share howns
        obtain ⟨label, s, hs, hgroup, rfl, -⟩ := henrolled.members name owner topics htopics
        have hmember : (of requests).Member name label s := ⟨hs, hgroup, by rw [htopics]; rfl⟩
        exact ⟨label, s, hmember, by rwa [hshare label s hmember]⟩

/-- After another fetch both sessions have fetched since the last rebalance. -/
def bothFetched : List Request := twoReaders ++ [.ask "right" (.fetch 10)]

/-- The record goes to the second session, to which its partition is dealt and to nobody else;
and after that fetch one of the sessions has the partition of the new topic. -/
theorem handed_to_owner_twoReaders :
    (∃ s records s' b', (of twoReaders).sessions.get? "right" = some s ∧
      s.fetch 10 (of twoReaders).broker = .ok (records, s', b') ∧
        ∃ r ∈ records, ∀ m,
          r.topicPartition ∈ ((of twoReaders).broker.group s.group).share m → m = s.member) ∧
    (∃ label s, (of bothFetched).Member "default" label s ∧ ⟨"refunds", 0⟩ ∈ s.assigned) := by
  constructor
  · obtain ⟨s, s', b', hs, hfetch⟩ := fetched?_eq_some.mp
      (show (of twoReaders).fetched? "right" 10 =
        some [⟨"orders", 1, 0, none, none, some 0, []⟩] by decide +kernel)
    refine ⟨s, _, s', b', hs, hfetch, _, List.mem_singleton_self _, ?_⟩
    exact ((handed_to_owner twoReaders).1 "right" s 10 _ s' b' hs hfetch _
      (List.mem_singleton_self _)).2
  · have hlabels : (of bothFetched).sessions.keys = ["left", "right"] := by decide +kernel
    refine (((handed_to_owner bothFetched).2 "default" fun label s hs => ?_).2.2 _).mpr
      ⟨by decide +kernel, 0, ["orders", "refunds"], by decide +kernel, by decide⟩
    have hlabel := (Dict.mem_keys_iff _).mpr ⟨s, hs.session⟩
    rw [hlabels] at hlabel
    rcases List.mem_pair.mp hlabel with rfl | rfl
    · obtain ⟨u, hu, hgroup⟩ := Option.map_eq_some_iff.mp
        (show ((of (twoReaders.take 7)).sessions.get? "left").map (·.group) = some "default" by
          decide +kernel)
      exact ⟨twoReaders.take 7, 10, [.ask "right" (.fetch 10)], u, rfl, hu, hgroup,
        by decide +kernel, by decide +kernel⟩
    · obtain ⟨u, hu, hgroup⟩ := Option.map_eq_some_iff.mp
        (show ((of twoReaders).sessions.get? "right").map (·.group) = some "default" by
          decide +kernel)
      exact ⟨twoReaders, 10, [], u, rfl, hu, hgroup, by decide +kernel, by decide +kernel⟩

end Stand

end StreamDispatch
