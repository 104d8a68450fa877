import StreamDispatch.Proofs.Stand.Answers
import StreamDispatch.Proofs.Stand.Membership

/-!
# Two stands with one group in common

Two stands run side by side. At the second one all groups are at work, and at the first one
only a single group is, and they are *alike* to that group (`StreamDispatch.Stand.Alike`): the
brokers are, and the group has the same sessions under the same labels. Members have other
numbers at the second stand, since those of other groups are counted too, but in the same
order, and the numbers that come next correspond.

A request of the group, or of nobody in particular, is made at both stands, and is answered
alike. A request of another group is made at the second stand only. That one can do no more
than take a number away, and then all later numbers are one higher
(`StreamDispatch.Stand.Alike.aside`).

Each label stands for sessions of one group, `groupOf label`.

## Main definitions

* `StreamDispatch.Request.Keeps`: sessions are opened in the group that their label stands for.
* `StreamDispatch.Request.concerns`: a request is not made by a session of another group.
* `StreamDispatch.Stand.Alike`: two stands show a group the same.

## Main statements

* `StreamDispatch.Stand.Alike.aside`: a request of another group.
* `StreamDispatch.Stand.Alike.apply`: any other request.
-/

namespace StreamDispatch

namespace Request

variable {groupOf : String → String} {name : String}

/-- A request without the time of the record that it writes. -/
def undated : Request → Request
  | .produce tp record => .produce tp record.undated
  | request => request

/-- A session is opened in the group that its label stands for. -/
def Keeps (groupOf : String → String) : Request → Prop
  | .openSession label _ config => config.groupId = groupOf label
  | _ => True

/-- Whether a request is made by a session of a group, or by no session. -/
def concerns (groupOf : String → String) (name : String) (request : Request) : Bool :=
  request.label?.all fun label => groupOf label = name

/-- Requests that differ at most in the time of a record. -/
theorem undated_cases {request request' : Request} (h : request'.undated = request.undated) :
    request' = request ∨
      ∃ tp record record', request = .produce tp record ∧ request' = .produce tp record' ∧
        record'.undated = record.undated := by
  cases request with
  | produce tp record =>
    cases request' with
    | produce tp' record' =>
      obtain ⟨rfl, hrecord⟩ := Request.produce.inj h
      exact .inr ⟨_, record, record', rfl, rfl, hrecord⟩
    | _ => cases h
  | _ =>
    cases request' with
    | produce _ _ => cases h
    | _ => exact .inl h

theorem concerns_eq_false_iff {request : Request} :
    request.concerns groupOf name = false ↔
      ∃ label, request.label? = some label ∧ groupOf label ≠ name := by
  rw [concerns]
  cases request.label? <;> simp

/-- A request of no session of another group has no label, or one of the group. -/
theorem group_of_concerns {request : Request} {label : String}
    (h : request.concerns groupOf name = true) (hlabel : request.label? = some label) :
    groupOf label = name := by
  rw [concerns, hlabel] at h
  exact of_decide_eq_true h

end Request

namespace Stand

variable {groupOf : String → String} {name label : String} {ν : ℕ ↪o ℕ} {st st' : Stand}
  {s : Session}

/-! ### Labels stand for groups -/

/-- Each session is in the group that its label stands for. -/
def Grouped (groupOf : String → String) (st : Stand) : Prop :=
  ∀ label s, st.sessions.get? label = some s → s.group = groupOf label

theorem grouped_empty (groupOf : String → String) : empty.Grouped groupOf := fun _ _ => nofun

theorem Grouped.apply (h : st.Grouped groupOf) {request : Request}
    (hkeeps : request.Keeps groupOf) : (st.apply request).Grouped groupOf := by
  intro label s hs
  by_cases hlabel : request.label? = some label
  swap
  · exact h label s ((session_apply st hlabel).symm.trans hs)
  cases request with
  | openSession other client config =>
    obtain rfl : other = label := Option.some.inj hlabel
    rw [Stand.apply] at hs
    rcases openSession_cases st other client config with heq | ⟨new, b, hcreate, heq⟩
    · rw [heq] at hs
      exact h other s hs
    · obtain ⟨rfl, -⟩ := Session.create_ok hcreate
      rw [heq, session_put, if_pos rfl] at hs
      obtain rfl := Option.some.inj hs
      exact hkeeps
  | ask other request =>
    obtain rfl : other = label := Option.some.inj hlabel
    cases hbefore : st.sessions.get? other with
    | none =>
      rw [apply_ask_of_none hbefore] at hs
      exact h other s hs
    | some before =>
      rw [apply_ask hbefore, session_put, if_pos rfl] at hs
      obtain rfl := Option.some.inj hs
      exact (request.same_apply before st.broker).group.trans (h other before hbefore)
  | drop other =>
    obtain rfl : other = label := Option.some.inj hlabel
    rw [Stand.apply, session_drop, if_pos rfl] at hs
    cases hs
  | _ => cases hlabel

/-- A session that is dropped touches the group that its label stands for. -/
theorem Grouped.sameBut_drop (h : st.Grouped groupOf) (label : String) :
    Broker.SameBut (groupOf label) st.broker (st.drop label).2.broker := by
  cases hs : st.sessions.get? label with
  | none =>
    rw [drop_of_none hs]
    exact .refl _ _
  | some s =>
    rw [drop_eq hs, ← h label s hs]
    exact s.sameBut_leave st.broker

/-! ### Stands that are alike -/

/-- **Two stands show a group the same**, where its members have the numbers `ν` at the second
one. -/
structure Alike (groupOf : String → String) (name : String) (ν : ℕ ↪o ℕ) (st st' : Stand) :
    Prop where
  broker : st.broker.Alike name ν st'.broker
  sessions : ∀ label, groupOf label = name →
    st'.sessions.get? label = (st.sessions.get? label).map (Session.renumber ν)
  /-- The numbers that come next correspond. -/
  numbers : ∀ k, ν (st.broker.nextMember + k) = st'.broker.nextMember + k

namespace Alike

theorem empty (groupOf : String → String) (name : String) :
    Alike groupOf name (RelEmbedding.refl _) empty empty where
  broker := .refl name .empty rfl
  sessions _ _ := rfl
  numbers _ := rfl

/-- Both stands have a session under a label of the group, or neither has. -/
theorem session_cases (h : st.Alike groupOf name ν st') (hgrouped : st'.Grouped groupOf)
    (hlabel : groupOf label = name) :
    st.sessions.get? label = none ∧ st'.sessions.get? label = none ∨
      ∃ s, st.sessions.get? label = some s ∧
        st'.sessions.get? label = some (s.renumber ν) ∧ s.group = name := by
  have hsession := h.sessions label hlabel
  cases hs : st.sessions.get? label with
  | none =>
    rw [hs] at hsession
    exact .inl ⟨rfl, hsession⟩
  | some s =>
    rw [hs] at hsession
    exact .inr ⟨s, rfl, hsession, (hgrouped label _ hsession).trans hlabel⟩

/-! ### A request of another group -/

/-- **Another group takes a number.** All numbers that are still to come are one higher. -/
theorem skip (h : st.Alike groupOf name ν st') (hst : st.Enrolled) :
    st.Alike groupOf name (StreamDispatch.skip ν st.broker.nextMember)
      { st' with broker := { st'.broker with nextMember := st'.broker.nextMember + 1 } } where
  broker := by
    refine (h.broker.of_renumber_eq fun g hg => ?_).counted st.broker.nextMember _
    -- The numbers of the present members were given out before.
    have hgroup := Broker.group_eq hg
    refine Group.renumber_congr (hgroup ▸ hst.current name) fun m topics hm => ?_
    obtain ⟨label, s, hs, -, rfl, -⟩ := hst.members name m topics (hgroup.symm ▸ hm)
    exact skip_of_lt ν (hst.below label s hs)
  sessions label hlabel := by
    refine (h.sessions label hlabel).trans ?_
    cases hs : st.sessions.get? label with
    | none => rfl
    | some s =>
      rw [Option.map_some, Option.map_some, Session.renumber, Session.renumber,
        skip_of_lt ν (hst.below label s hs)]
  numbers k := by
    rw [skip_of_le ν (Nat.le_add_right _ k), h.numbers k]
    exact Nat.add_right_comm _ k 1

/-- What happens to a session of another group. -/
theorem of_sameBut {st'' : Stand} {other : String} (h : st.Alike groupOf name ν st')
    (hother : groupOf other ≠ name)
    (hbroker : Broker.SameBut (groupOf other) st'.broker st''.broker)
    (hsessions : ∀ label, label ≠ other → st''.sessions.get? label = st'.sessions.get? label) :
    st.Alike groupOf name ν st'' where
  broker := h.broker.of_sameBut hother.symm hbroker
  sessions label hlabel := by
    rw [hsessions label fun heq => hother (heq ▸ hlabel), h.sessions label hlabel]
  numbers k := by rw [hbroker.nextMember, h.numbers k]

/-- **A request of another group** is not seen. It may have taken a number. -/
theorem aside (h : st.Alike groupOf name ν st') (hst : st.Enrolled)
    (hgrouped : st'.Grouped groupOf) {request : Request}
    (hother : request.concerns groupOf name = false) :
    ∃ ν', st.Alike groupOf name ν' (st'.apply request) := by
  obtain ⟨other, hlabel, hne⟩ := Request.concerns_eq_false_iff.mp hother
  have hsessions : ∀ label, label ≠ other →
      (st'.apply request).sessions.get? label = st'.sessions.get? label := fun label hlabel' =>
    session_apply st' fun heq => hlabel' (Option.some.inj (heq.symm.trans hlabel))
  cases request with
  | openSession label client config =>
    obtain rfl : label = other := Option.some.inj hlabel
    rw [Stand.apply]
    rcases openSession_cases st' label client config with heq | ⟨s, b, hcreate, heq⟩
    · rw [heq]
      exact ⟨ν, h⟩
    · obtain ⟨-, rfl⟩ := Session.create_ok hcreate
      rw [heq]
      have hcounted : Grouped groupOf
          { st' with
            broker := { st'.broker with nextMember := st'.broker.nextMember + 1 } } := hgrouped
      refine ⟨_, (h.skip hst).of_sameBut hne ?_ fun label' hlabel' => ?_⟩
      · exact hcounted.sameBut_drop label
      · rw [session_put, if_neg hlabel', session_drop, if_neg hlabel']
  | ask label request =>
    obtain rfl : label = other := Option.some.inj hlabel
    refine ⟨ν, h.of_sameBut hne ?_ hsessions⟩
    cases hs : st'.sessions.get? label with
    | none =>
      rw [apply_ask_of_none hs]
      exact .refl _ _
    | some s =>
      rw [apply_ask hs, ← hgrouped label s hs]
      exact request.sameBut_apply s st'.broker
  | drop label =>
    obtain rfl : label = other := Option.some.inj hlabel
    exact ⟨ν, h.of_sameBut hne (hgrouped.sameBut_drop label) hsessions⟩
  | _ => cases hlabel

/-! ### A request at both stands -/

/-- Both brokers change. -/
theorem onBroker (h : st.Alike groupOf name ν st') {b b' : Broker} (hbroker : b.Alike name ν b')
    (hnext : b.nextMember = st.broker.nextMember)
    (hnext' : b'.nextMember = st'.broker.nextMember) :
    Alike groupOf name ν { st with broker := b } { st' with broker := b' } where
  broker := hbroker
  sessions := h.sessions
  numbers k := by rw [hnext, hnext', h.numbers k]

theorem put (h : st.Alike groupOf name ν st') (label : String) (s : Session) :
    (st.put label s).Alike groupOf name ν (st'.put label (s.renumber ν)) where
  broker := h.broker
  sessions other hother := by
    rw [session_put, session_put]
    split
    · rfl
    · exact h.sessions other hother
  numbers := h.numbers

/-- A record is written at both, or refused by both. -/
theorem produce (h : st.Alike groupOf name ν st') (tp : TopicPartition)
    {record record' : StoredRecord} (hrecord : record'.undated = record.undated) :
    (st.apply (.produce tp record')).Alike groupOf name ν (st'.apply (.produce tp record)) ∧
      (st'.answer (.produce tp record)).undated = (st.answer (.produce tp record')).undated := by
  rw [Stand.apply, Stand.apply, Stand.answer, Stand.answer]
  rcases h.broker.produce tp hrecord.symm with
    ⟨fault, hb, hb'⟩ | ⟨offset, c, c', hb, hb', hbroker⟩
  · rw [hb, hb']
    exact ⟨h, rfl⟩
  · rw [hb, hb']
    exact ⟨h.onBroker hbroker (Broker.nextMember_produce hb) (Broker.nextMember_produce hb'), rfl⟩

/-- A session of the group is dropped at both, if it is there. -/
theorem drop (h : st.Alike groupOf name ν st') (hgrouped : st'.Grouped groupOf)
    (hlabel : groupOf label = name) :
    (st'.drop label).1 = (st.drop label).1 ∧
      (st.drop label).2.Alike groupOf name ν (st'.drop label).2 := by
  rcases h.session_cases hgrouped hlabel with ⟨hs, hs'⟩ | ⟨s, hs, hs', rfl⟩
  · rw [Stand.drop, Stand.drop, hs, hs']
    exact ⟨rfl, h⟩
  · obtain ⟨-, hbroker⟩ := Session.leave_alike h.broker
    have hgone := h.onBroker hbroker (s.sameBut_leave st.broker).nextMember
      ((s.renumber ν).sameBut_leave st'.broker).nextMember
    rw [Stand.drop, Stand.drop, hs, hs']
    refine ⟨rfl, hgone.broker, fun other hother => ?_, hgone.numbers⟩
    dsimp only
    rw [Dict.get?_erase, Dict.get?_erase]
    split
    · rfl
    · exact h.sessions other hother

/-- **A session of the group is opened** at both, with numbers that correspond, or refused by
both. -/
theorem openSession (h : st.Alike groupOf name ν st') (hgrouped : st'.Grouped groupOf)
    (hlabel : groupOf label = name) (client : String) (config : ConsumerConfig) :
    (st.openSession label client config).2.Alike groupOf name ν
        (st'.openSession label client config).2 ∧
      Answer.ofExcept (st'.openSession label client config).1 =
        Answer.ofExcept (st.openSession label client config).1 := by
  have hnext : ν st.broker.nextMember = st'.broker.nextMember := h.numbers 0
  rw [Stand.openSession, Stand.openSession]
  rcases Session.create_alike h.broker hnext config client with ⟨fault, hs, hs'⟩ | ⟨s, hs, hs'⟩
  · rw [hs, hs']
    exact ⟨h, rfl⟩
  · have hcounted : Alike groupOf name ν
        { st with broker := { st.broker with nextMember := st.broker.nextMember + 1 } }
        { st' with broker := { st'.broker with nextMember := st'.broker.nextMember + 1 } } :=
      { broker := h.broker.counted _ _
        sessions := h.sessions
        numbers := fun k => by
          rw [Nat.add_right_comm, Nat.add_right_comm _ 1 k]
          exact h.numbers (k + 1) }
    rw [hs, hs']
    exact ⟨(hcounted.drop hgrouped hlabel).2.put label s, rfl⟩

theorem ask (h : st.Alike groupOf name ν st') (hgrouped : st'.Grouped groupOf)
    (hlabel : groupOf label = name) (request : SessionRequest) :
    (st.apply (.ask label request)).Alike groupOf name ν (st'.apply (.ask label request)) ∧
      (st'.answer (.ask label request)).undated = (st.answer (.ask label request)).undated := by
  rw [Stand.answer, Stand.answer]
  rcases h.session_cases hgrouped hlabel with ⟨hs, hs'⟩ | ⟨s, hs, hs', rfl⟩
  · rw [apply_ask_of_none hs, apply_ask_of_none hs', hs, hs']
    exact ⟨h, rfl⟩
  · obtain ⟨hsession, hbroker, hanswer⟩ := request.alike h.broker
    rw [apply_ask hs, apply_ask hs', hs, hs', hsession]
    exact ⟨(h.onBroker hbroker (request.sameBut_apply s st.broker).nextMember
      (request.sameBut_apply (s.renumber ν) st'.broker).nextMember).put label _, hanswer⟩

/-- **Any other request**, made at both stands, leaves them alike and is answered the same,
apart from the times of records. -/
theorem apply (h : st.Alike groupOf name ν st') (hgrouped : st'.Grouped groupOf)
    {request request' : Request} (hsame : request'.undated = request.undated)
    (hconcerns : request.concerns groupOf name = true) :
    (st.apply request').Alike groupOf name ν (st'.apply request) ∧
      (st'.answer request).undated = (st.answer request').undated := by
  rcases Request.undated_cases hsame with rfl | ⟨tp, record, record', rfl, rfl, hrecord⟩
  swap
  · exact h.produce tp hrecord
  cases request' with
  | wait millis => exact ⟨⟨h.broker, h.sessions, h.numbers⟩, rfl⟩
  | createTopic topic description =>
    exact ⟨h.onBroker (h.broker.createTopic topic description)
      (Broker.nextMember_createTopic _ topic description)
      (Broker.nextMember_createTopic _ topic description), rfl⟩
  | produce tp record => exact h.produce tp rfl
  | describe topic =>
    obtain ⟨hanswer, hbroker⟩ := h.broker.describe topic
    exact ⟨h.onBroker hbroker (Broker.nextMember_describe _ topic)
      (Broker.nextMember_describe _ topic), by rw [answer, answer, hanswer]⟩
  | setFaults faults => exact ⟨h.onBroker (h.broker.setFaults faults) rfl rfl, rfl⟩
  | openSession label client config =>
    obtain ⟨hafter, hanswer⟩ :=
      h.openSession hgrouped (Request.group_of_concerns hconcerns rfl) client config
    exact ⟨hafter, congrArg Answer.undated hanswer⟩
  | ask label request => exact h.ask hgrouped (Request.group_of_concerns hconcerns rfl) request
  | drop label =>
    obtain ⟨hanswer, hafter⟩ := h.drop hgrouped (Request.group_of_concerns hconcerns rfl)
    exact ⟨hafter, by rw [answer, answer, hanswer]⟩

end Alike

end Stand

end StreamDispatch
