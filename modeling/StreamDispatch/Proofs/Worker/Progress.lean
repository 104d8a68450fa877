import StreamDispatch.Proofs.Worker.Front

/-!
# What a move does to fronts and commits

The moves of a worker (`StreamDispatch.Move`) seen through its fronts. What is said about
delivery rests on these facts about single moves, and no later file looks at what a strategy
remembers, stores or commits.

## Main statements

* `StreamDispatch.Move.coherent`: every move keeps the invariant.
* `StreamDispatch.Move.committed`: whatever a move commits is the front after it.
* `StreamDispatch.Move.front`: the front moves on over what is resolved; a new front is where
  the session begins in the partition.
* `StreamDispatch.Move.owes`: what a worker owes is committed at last, unless it is cut off, a
  commit is refused, or the partition is taken away.
-/

namespace StreamDispatch

variable {plan : Plan} {standing : Standing} {s s' : Session} {b : Broker} {tp : TopicPartition}

/-- After a record is resolved, a front is where it was, moved on over the record. -/
theorem front_of_rest {r : RawRecord} {rest : List RawRecord}
    {batched batched' : Dict TopicPartition Int} (hpositions : s'.positions = s.positions)
    {f' : Int} (hf' : (Standing.reading rest batched').front? s' tp = some f') :
    ∃ f, (Standing.reading (r :: rest) batched).front? s tp = some f ∧
      f' = f + (Deed.resolved r).gain tp := by
  rw [front?_rest r rest batched batched' hpositions, Option.map_eq_some_iff] at hf'
  obtain ⟨f, hf, rfl⟩ := hf'
  exact ⟨f, hf, rfl⟩

/-- A worker that stops owes what is stored, and owed something before. -/
theorem owes_of_closing {pending : List RawRecord} {batched : Dict TopicPartition Int} {c : Int}
    (hc : Standing.closing.owes? s tp = some c) :
    ∃ c₀, (Standing.reading pending batched).owes? s tp = some c₀ := by
  have hstored : s.stored.get? tp = some c := hc
  rw [Standing.owes?, hstored]
  cases (Standing.reading pending batched).batched.get? tp with
  | none => exact ⟨c, rfl⟩
  | some o => exact ⟨o + 1, rfl⟩

/-- **A partition is paid off**, as the committed offset goes from one value to another: either
nothing was owed and nothing happens there, or the front is committed, which was owed or has
just moved on. -/
def PaidOff (standing : Standing) (s : Session) (tp : TopicPartition) (gain : Int)
    (before after : Option Int) : Prop :=
  (standing.owes? s tp = none ∧ gain = 0 ∧ after = before) ∨
    ∃ f, standing.front? s tp = some f ∧ after = some (f + gain) ∧
      (standing.owes? s tp = some f ∨ gain = 1)

namespace Coherent

/-- What is committed when a session leaves is the front, and nothing is resolved then. -/
theorem committed_leave (hc : Coherent plan standing s) (b : Broker) {deed : Deed}
    (hdeed : deed.resolved? = none) (tp : TopicPartition) :
    (s.leave b).2.committed s.group tp = b.committed s.group tp ∨
      ∃ f, standing.front? s tp = some f ∧
        (s.leave b).2.committed s.group tp = some (f + deed.gain tp) := by
  rw [Session.committed_leave, Deed.gain_eq_zero hdeed]
  split
  · refine (Session.committed_publish s b tp).imp_right ?_
    rintro ⟨c, hstored, hcommitted⟩
    exact ⟨c, hc.stored_eq_front hstored, by rw [Int.add_zero, hcommitted]⟩
  · exact .inl rfl

/-- The commit of a batch pays everything off that is remembered. -/
theorem paidOff_batch {pending : List RawRecord} {batched : Dict TopicPartition Int}
    (hc : Coherent plan (.reading pending batched) s) (hplan : plan.strategy = .afterBatch)
    (tp : TopicPartition) (before : Option Int) :
    PaidOff (.reading pending batched) s tp 0 before
      (((batched.get? tp).map (· + 1)).or before) := by
  cases ho : batched.get? tp with
  | none =>
    refine .inl ⟨?_, rfl, rfl⟩
    rw [Standing.owes?, Standing.batched, ho, hc.stores (by rw [hplan]; decide)]
    rfl
  | some o =>
    refine .inr ⟨o + 1, hc.batched_eq_front ho, by rw [Int.add_zero]; rfl, .inl ?_⟩
    rw [Standing.owes?, Standing.batched, ho]
    rfl

/-- Publishing what is stored pays it off. The session may have taken over a new assignment in
between, as long as that has not cost it what is stored. -/
theorem paidOff_publish {s₁ : Session} (hc : Coherent plan standing s)
    (hbatched : standing.batched.get? tp = none) (hsame : s.Same s₁)
    (hstored : s₁.stored.get? tp = s.stored.get? tp)
    (hgroup : ∃ g, b.groups.get? s.group = some g) :
    PaidOff standing s tp 0 (b.committed s.group tp)
      ((s₁.publish b).2.committed s.group tp) := by
  obtain ⟨g, hg⟩ := hgroup
  rw [← hsame.group] at hg ⊢
  have howes : standing.owes? s tp = s.stored.get? tp := by
    rw [Standing.owes?, hbatched]
    rfl
  cases hc₁ : s.stored.get? tp with
  | none =>
    refine .inl ⟨howes.trans hc₁, rfl, ?_⟩
    rcases Session.committed_publish s₁ b tp with h | ⟨c, hstored₁, -⟩
    · exact h
    · rw [hstored, hc₁] at hstored₁
      cases hstored₁
  | some c =>
    refine .inr ⟨c, hc.stored_eq_front hc₁, ?_, .inl (howes.trans hc₁)⟩
    -- Only sessions that commit by themselves store anything.
    have hauto : s₁.autoCommit = true := by
      rw [hsame.autoCommit, hc.auto]
      by_contra hne
      have hplan : plan.strategy ≠ .auto := by
        intro hplan
        rw [hplan] at hne
        exact hne rfl
      rw [hc.stores hplan tp] at hc₁
      cases hc₁
    rw [(Session.publish_all hauto hg tp).2, hstored, hc₁, Int.add_zero]
    rfl

end Coherent

namespace Move

variable {d d' : Desk} {deed : Deed}

/-- A move leaves alone what the session was created as. -/
theorem same (h : Move plan d deed d') : d.session.Same d'.session := by
  cases h with
  | idle => exact .refl _
  | join s b => exact Session.same_subscribe s plan.topics b
  | fetch h => exact Session.same_fetch h
  | storeRecord _ h =>
    obtain ⟨-, rfl⟩ := Session.store_ok h
    exact ⟨rfl, rfl, rfl, rfl, rfl⟩
  | refuseStore h =>
    obtain ⟨-, rfl⟩ := Session.store_error h
    exact .refl _
  | leave s b => exact Session.same_leave s b
  | cutOff _ s b => exact Session.same_leave s b
  | _ => exact .refl _

/-- A move touches the broker only in the group of the session. -/
theorem sameBut (h : Move plan d deed d') :
    Broker.SameBut d.session.group d.broker d'.broker := by
  cases h with
  | join s b => exact Session.sameBut_subscribe s plan.topics b
  | fetch h => exact Session.sameBut_fetch h
  | commitRecord _ h => exact Session.sameBut_commit h
  | commitBatch _ h => exact Session.sameBut_commit h
  | commitAndGiveUp _ h => exact Session.sameBut_commit h
  | leave s b => exact Session.sameBut_leave s b
  | cutOff _ s b => exact Session.sameBut_leave s b
  | _ => exact .refl _ _

/-- **Every move keeps the invariant.** -/
theorem coherent (h : Move plan d deed d') (hc : Coherent plan d.standing d.session) :
    Coherent plan d'.standing d'.session := by
  cases h with
  | idle => exact hc
  | join s b => exact hc.joined plan.topics b
  | fetch h => exact hc.fetch h
  | commitRecord hplan h => exact hc.committed hplan
  | rememberRecord hplan hrest => exact hc.remembered hplan
  | commitBatch hplan h => exact hc.committedBatch hplan
  | storeRecord hplan h => exact hc.kept hplan h
  | refuseStore h => exact absurd hc.mem_assigned_head (Session.store_error h).1
  | refuseRecord => exact hc.closing
  | giveUp => exact hc.closing
  | commitAndGiveUp => exact hc.closing
  | refuseGiveUp => exact hc.closing
  | leave s b => exact hc.gone b
  | cutOff _ s b => exact hc.gone b

/-- Whoever is not in the group stays out of it, or joins. -/
theorem of_not_member (h : Move plan d deed d') (hmember : d.standing.isMember = false)
    (hcut : deed ≠ .cutOff) : d' = d ∨ d'.standing = .reading [] ∅ := by
  cases h with
  | idle => exact .inl rfl
  | join => exact .inr rfl
  | cutOff => exact absurd rfl hcut
  | _ => cases hmember

theorem standing_of_fetched (h : Move plan d .fetched d') : d.standing = .reading [] ∅ := by
  cases h
  rfl

/-- What is resolved is at the front of its partition. -/
theorem front_resolved (h : Move plan d deed d') (hc : Coherent plan d.standing d.session)
    {r : RawRecord} (hr : deed.resolved? = some r) :
    d.standing.front? d.session r.topicPartition = some r.offset := by
  cases h <;> cases hr <;> exact hc.front_head

/-- **Whatever a move commits is the front after it.** -/
theorem committed (h : Move plan d deed d') (hc : Coherent plan d.standing d.session)
    (tp : TopicPartition) :
    d'.broker.committed d.session.group tp = d.broker.committed d.session.group tp ∨
      ∃ f, d.standing.front? d.session tp = some f ∧
        d'.broker.committed d.session.group tp = some (f + deed.gain tp) := by
  cases h with
  | join s b => exact .inl (Session.committed_subscribe s plan.topics b tp)
  | @fetch s s' b b' records h =>
    obtain ⟨positions, nextStart, -, rfl, -⟩ := Session.fetch_ok h
    have hcommitted := Session.committed_publish (s.sync b) b tp
    rw [(Session.same_sync s b).group] at hcommitted
    refine hcommitted.imp_right ?_
    rintro ⟨c, hstored, hcommitted⟩
    -- What is published was stored before the assignment was taken over, and is kept.
    rw [Session.stored_sync hc.tidy] at hstored
    split at hstored
    · exact ⟨c, hc.stored_eq_front hstored, by rw [Deed.gain_eq_zero rfl, Int.add_zero, hcommitted]⟩
    · cases hstored
  | @commitRecord s b b' r rest batched hplan h =>
    rw [show b'.committed s.group tp = _ from Session.committed_commit_one h tp]
    by_cases htp : tp = r.topicPartition
    · subst htp
      exact .inr ⟨r.offset, hc.front_head, by rw [Deed.gain_resolved, if_pos rfl, if_pos rfl]⟩
    · exact .inl (if_neg htp)
  | @commitBatch s b b' r batched hplan h =>
    rw [show b'.committed s.group tp = _ from Session.committed_commit_batch h tp,
      Dict.get?_insert, Deed.gain_resolved]
    by_cases htp : tp = r.topicPartition
    · subst htp
      exact .inr ⟨r.offset, hc.front_head, by rw [if_pos rfl, if_pos rfl]; rfl⟩
    · rw [if_neg htp, if_neg (Ne.symm htp)]
      cases ho : batched.get? tp with
      | none => exact .inl rfl
      | some o => exact .inr ⟨o + 1, hc.batched_eq_front ho, by rw [Int.add_zero]; rfl⟩
  | @commitAndGiveUp s b b' pending batched hplan h =>
    rw [show b'.committed s.group tp = _ from Session.committed_commit_batch h tp,
      Deed.gain_eq_zero rfl]
    cases ho : batched.get? tp with
    | none => exact .inl rfl
    | some o => exact .inr ⟨o + 1, hc.batched_eq_front ho, by rw [Int.add_zero]; rfl⟩
  | leave s b => exact hc.committed_leave b rfl tp
  | cutOff _ s b => exact hc.committed_leave b rfl tp
  | _ => exact .inl rfl

/-- **The front moves on over what is resolved.** A front where there was none is where the
session begins in the partition. -/
theorem front (h : Move plan d deed d') (hc : Coherent plan d.standing d.session)
    {tp : TopicPartition} {f' : Int} (hf' : d'.standing.front? d'.session tp = some f') :
    (∃ f, d.standing.front? d.session tp = some f ∧ f' = f + deed.gain tp) ∨
      d.standing.front? d.session tp = none ∧ deed = .fetched ∧
        f' = d.session.startOffset d.broker (d.broker.group d.session.group) tp := by
  cases h with
  | idle => exact .inl ⟨f', hf', by rw [Deed.gain_eq_zero rfl, Int.add_zero]⟩
  | join s b =>
    rw [front?_nil, show (s.subscribe plan.topics b).1.positions = ∅ from hc.away rfl] at hf'
    cases hf'
  | @fetch s s' b b' records h =>
    rw [hc.front_fetch h] at hf'
    split at hf'
    next =>
      cases hf : (Standing.reading [] ∅).front? s tp with
      | none =>
        rw [hf] at hf'
        exact .inr ⟨rfl, rfl, (Option.some.inj hf').symm⟩
      | some f =>
        rw [hf] at hf'
        refine .inl ⟨f, rfl, ?_⟩
        rw [Deed.gain_eq_zero rfl, Int.add_zero, ← Option.some.inj hf', Option.getD_some]
    next => cases hf'
  | commitRecord => exact .inl (front_of_rest rfl hf')
  | rememberRecord => exact .inl (front_of_rest rfl hf')
  | commitBatch => exact .inl (front_of_rest rfl hf')
  | storeRecord _ h => exact .inl (front_of_rest (Session.positions_store h) hf')
  | refuseStore h => exact absurd hc.mem_assigned_head (Session.store_error h).1
  | refuseRecord hplan =>
    rw [Standing.front?, hc.stores hplan tp] at hf'
    cases hf'
  | giveUp => exact .inl ⟨f', hc.stored_eq_front hf', (Int.add_zero f').symm⟩
  | commitAndGiveUp => exact .inl ⟨f', hc.stored_eq_front hf', (Int.add_zero f').symm⟩
  | refuseGiveUp => exact .inl ⟨f', hc.stored_eq_front hf', (Int.add_zero f').symm⟩
  | leave s b => cases hf'
  | cutOff _ s b => cases hf'

/-- **What a worker owes is committed at last**, and if it owes nothing afterwards and nothing
was committed, it did not owe anything before: unless the broker refuses a commit, the worker
is cut off, or the partition is taken away from it. -/
theorem owes (h : Move plan d deed d') (hc : Coherent plan d.standing d.session)
    (hrefused : deed.isRefused = false) (hcut : deed ≠ .cutOff)
    (hgroup : d.standing.isMember = true →
      ∃ g, d.broker.groups.get? d.session.group = some g) {tp : TopicPartition}
    (hkept : tp ∈ d.session.assigned →
      tp ∈ (d.broker.group d.session.group).assignment.getD d.session.member [])
    (hnone : d'.standing.owes? d'.session tp = none) :
    PaidOff d.standing d.session tp (deed.gain tp) (d.broker.committed d.session.group tp)
      (d'.broker.committed d.session.group tp) := by
  cases h with
  | idle => exact .inl ⟨hnone, rfl, rfl⟩
  | join s b => exact .inl ⟨hnone, rfl, Session.committed_subscribe s plan.topics b tp⟩
  | @fetch s s' b b' records h =>
    obtain ⟨positions, nextStart, -, rfl, -⟩ := Session.fetch_ok h
    refine hc.paidOff_publish rfl (Session.same_sync s b) ?_ (hgroup rfl)
    rw [Session.stored_sync hc.tidy]
    split
    next => rfl
    next hlost =>
      -- Nothing is stored in a partition that is lost, since none is.
      refine (Option.eq_none_iff_forall_ne_some.mpr fun c hstored => hlost ?_).symm
      have hassigned := hc.tidy.stored tp c hstored
      rcases Session.assigned_sync s b with hsync | hsync
      · rwa [hsync]
      · rw [hsync]
        exact hkept hassigned
  | @commitRecord s b b' r rest batched hplan h =>
    rw [show b'.committed s.group tp = _ from Session.committed_commit_one h tp]
    by_cases htp : tp = r.topicPartition
    · subst htp
      have hgain : (Deed.resolved r).gain r.topicPartition = 1 := if_pos rfl
      exact .inr ⟨r.offset, hc.front_head, by rw [hgain, if_pos rfl], .inr hgain⟩
    · refine .inl ⟨?_, by rw [Deed.gain_resolved, if_neg (Ne.symm htp)], if_neg htp⟩
      rw [Standing.owes?, hc.batches (by rw [hplan]; decide), hc.stores (by rw [hplan]; decide)]
      rfl
  | @rememberRecord s b r rest batched hplan hrest =>
    -- The record's own partition is owed from now on.
    rw [Standing.owes?, Standing.batched, Dict.get?_insert] at hnone
    by_cases htp : tp = r.topicPartition
    · rw [if_pos htp] at hnone
      cases hnone
    · rw [if_neg htp] at hnone
      exact .inl ⟨hnone, by rw [Deed.gain_resolved, if_neg (Ne.symm htp)], rfl⟩
  | @commitBatch s b b' r batched hplan h =>
    rw [show b'.committed s.group tp = _ from Session.committed_commit_batch h tp,
      Dict.get?_insert, Deed.gain_resolved]
    by_cases htp : tp = r.topicPartition
    · subst htp
      exact .inr ⟨r.offset, hc.front_head, by rw [if_pos rfl, if_pos rfl]; rfl,
        .inr (if_pos rfl)⟩
    · rw [if_neg htp, if_neg (Ne.symm htp)]
      exact hc.paidOff_batch hplan tp _
  | @storeRecord s s' b r rest batched hplan h =>
    have hbatched := hc.batches (by rw [hplan]; decide) tp
    have hget := Session.stored_offsetAfter h tp
    rw [Standing.owes?, Option.or_eq_none_iff] at hnone
    by_cases htp : tp = r.topicPartition
    · rw [hget, if_pos htp] at hnone
      cases hnone.2
    · rw [hget, if_neg htp] at hnone
      refine .inl ⟨?_, by rw [Deed.gain_resolved, if_neg (Ne.symm htp)], rfl⟩
      rw [Standing.owes?, hbatched]
      exact hnone.2
  | refuseStore h => exact absurd hc.mem_assigned_head (Session.store_error h).1
  | refuseRecord => cases hrefused
  | @giveUp s b pending batched h =>
    refine .inl ⟨?_, rfl, rfl⟩
    have hbatched : batched.get? tp = none := by
      rcases h with hempty | hplan
      · rw [Dict.get?_eq_none_of_isEmpty hempty]
      · exact hc.batches hplan tp
    rw [Standing.owes?, Standing.batched, hbatched]
    exact hnone
  | @commitAndGiveUp s b b' pending batched hplan h =>
    rw [show b'.committed s.group tp = _ from Session.committed_commit_batch h tp]
    exact hc.paidOff_batch hplan tp _
  | refuseGiveUp => cases hrefused
  | leave s b =>
    have hcommitted := Session.committed_leave s b tp
    rw [if_pos (show s.subscribed = true from hc.subscribed)] at hcommitted
    rw [hcommitted]
    exact hc.paidOff_publish rfl (.refl s) rfl (hgroup rfl)
  | cutOff => exact absurd rfl hcut

/-- **A worker owes only what it has resolved.** -/
theorem owes_of_owes (h : Move plan d deed d') (hc : Coherent plan d.standing d.session)
    {tp : TopicPartition} {c' : Int} (hc' : d'.standing.owes? d'.session tp = some c') :
    (∃ c, d.standing.owes? d.session tp = some c) ∨ deed.gain tp = 1 := by
  have hcoherent := h.coherent hc
  cases h with
  | idle => exact .inl ⟨c', hc'⟩
  | join s b => exact .inl ⟨c', hc'⟩
  | @fetch s s' b b' records h => exact .inl ⟨c', (hc.stored_fetch h hc').2⟩
  | @commitRecord s b b' r rest batched hplan h =>
    have hne : plan.strategy ≠ .auto := by rw [hplan]; decide
    rw [Standing.owes?, hcoherent.batches (by rw [hplan]; decide), hcoherent.stores hne] at hc'
    cases hc'
  | @rememberRecord s b r rest batched hplan hrest =>
    rw [Standing.owes?, Standing.batched, Dict.get?_insert] at hc'
    by_cases htp : tp = r.topicPartition
    · exact .inr (if_pos htp.symm)
    · rw [if_neg htp] at hc'
      exact .inl ⟨c', hc'⟩
  | @commitBatch s b b' r batched hplan h =>
    rw [Standing.owes?, hcoherent.stores (by rw [hplan]; decide)] at hc'
    cases hc'
  | @storeRecord s s' b r rest batched hplan h =>
    have hbatched := hc.batches (by rw [hplan]; decide) tp
    rw [Standing.owes?, hcoherent.batches (by rw [hplan]; decide),
      Session.stored_offsetAfter h tp] at hc'
    by_cases htp : tp = r.topicPartition
    · exact .inr (if_pos htp.symm)
    · refine .inl ⟨c', ?_⟩
      rw [Standing.owes?, hbatched]
      rwa [if_neg htp] at hc'
  | refuseStore h => exact absurd hc.mem_assigned_head (Session.store_error h).1
  | refuseRecord hplan =>
    rw [Standing.owes?, hcoherent.stores hplan] at hc'
    cases hc'
  | giveUp => exact .inl (owes_of_closing hc')
  | commitAndGiveUp => exact .inl (owes_of_closing hc')
  | refuseGiveUp => exact .inl (owes_of_closing hc')
  | leave s b => cases hcoherent.owed tp c' hc'
  | cutOff _ s b => cases hcoherent.owed tp c' hc'

end Move

end StreamDispatch
