import StreamDispatch.Proofs.Session.Operations
import StreamDispatch.Proofs.Worker.Move

/-!
# Where a worker is in a partition

Positions run ahead of what is resolved by the records at hand, and what is committed lags
behind it by what is remembered or stored. Between the two is the *front* of a worker in a
partition, the offset of the first record that it has not resolved
(`StreamDispatch.Standing.front?`). Everything else can be said in terms of it, and the
invariant of a worker (`StreamDispatch.Coherent`) says it: the records at hand are a run of
offsets that begins at the front, and whatever is remembered or stored for a commit *is* the
front.

A worker that is about to close has dropped its records, and its front is what is stored.

## Main definitions

* `StreamDispatch.Standing.front?`: the front of a worker in a partition.
* `StreamDispatch.Standing.owes?`: what is still to be committed there.
* `StreamDispatch.Coherent`: the invariant, with one lemma for each thing that a worker may do
  to its records and its session.
-/

namespace StreamDispatch

namespace Standing

/-- The records at hand that are not resolved. -/
def pending : Standing → List RawRecord
  | .reading pending _ => pending
  | _ => []

/-- The last resolved offsets that are remembered for the commit of the batch. -/
def batched : Standing → Dict TopicPartition Int
  | .reading _ batched => batched
  | _ => ∅

/-- The first offset in a partition that is not resolved. -/
def front? (standing : Standing) (s : Session) (tp : TopicPartition) : Option Int :=
  match standing with
  | .reading pending _ =>
    (s.positions.get? tp).map fun position => position - (offsetsIn tp pending).length
  | .closing => s.stored.get? tp
  | _ => none

/-- What is still to be committed in a partition. -/
def owes? (standing : Standing) (s : Session) (tp : TopicPartition) : Option Int :=
  ((standing.batched.get? tp).map (· + 1)).or (s.stored.get? tp)

end Standing

/-- How many records of a partition were resolved by a deed. -/
def Deed.gain (deed : Deed) (tp : TopicPartition) : Int :=
  match deed.resolved? with
  | some r => if r.topicPartition = tp then 1 else 0
  | none => 0

theorem Deed.gain_nonneg (deed : Deed) (tp : TopicPartition) : 0 ≤ deed.gain tp := by
  rw [Deed.gain]
  split
  · split <;> decide
  · decide

theorem Deed.gain_eq_zero {deed : Deed} (h : deed.resolved? = none) (tp : TopicPartition) :
    deed.gain tp = 0 := by
  rw [Deed.gain, h]

theorem Deed.gain_resolved (r : RawRecord) (tp : TopicPartition) :
    (Deed.resolved r).gain tp = if r.topicPartition = tp then 1 else 0 := rfl

/-- **The invariant of a worker**, for what it was started for, how far it is, and its
session. -/
structure Coherent (plan : Plan) (standing : Standing) (s : Session) : Prop where
  tidy : s.Tidy
  /-- The records at hand are a run from the front on. -/
  run : ∀ tp f, standing.front? s tp = some f →
    ∃ n : Nat, offsetsIn tp standing.pending = offsetsFrom f n
  /-- There are no records at hand where there is no front. -/
  only : ∀ tp, standing.front? s tp = none → offsetsIn tp standing.pending = []
  /-- What is to be committed is the front. -/
  owed : ∀ tp c, standing.owes? s tp = some c → standing.front? s tp = some c
  stores : plan.strategy ≠ .auto → ∀ tp, s.stored.get? tp = none
  batches : plan.strategy ≠ .afterBatch → ∀ tp, standing.batched.get? tp = none
  auto : s.autoCommit = plan.strategy.isAuto
  subscribed : s.subscribed = standing.isMember
  /-- Whoever is not in the group has no positions. -/
  away : standing.isMember = false → s.positions = ∅

variable {plan : Plan} {standing : Standing} {s s' : Session} {tp : TopicPartition}

/-- What is stored once the offset after a record is. -/
theorem Session.stored_offsetAfter {r : RawRecord} (h : s.store [offsetAfter r] = (.ok (), s'))
    (tp : TopicPartition) :
    s'.stored.get? tp =
      if tp = r.topicPartition then some (r.offset + 1) else s.stored.get? tp :=
  stored_store h tp

/-! ### Reading fronts off -/

theorem front?_eq_some_iff {pending : List RawRecord} {batched : Dict TopicPartition Int}
    {f : Int} :
    (Standing.reading pending batched).front? s tp = some f ↔
      s.positions.get? tp = some (f + (offsetsIn tp pending).length) := by
  rw [Standing.front?, Option.map_eq_some_iff]
  constructor
  · rintro ⟨p, hp, rfl⟩
    rw [hp, Int.sub_add_cancel]
  · intro h
    exact ⟨_, h, Int.add_sub_cancel _ _⟩

theorem isMember_of_front {f : Int} (hf : standing.front? s tp = some f) :
    standing.isMember = true := by
  cases standing with
  | reading pending batched => rfl
  | closing => rfl
  | _ => cases hf

/-- Without a record at hand the front is the position. -/
theorem front?_nil (s : Session) (batched : Dict TopicPartition Int) (tp : TopicPartition) :
    (Standing.reading [] batched).front? s tp = s.positions.get? tp := by
  rw [Standing.front?]
  cases s.positions.get? tp <;> simp

/-- The front moves on when the first record at hand is resolved. -/
theorem front?_rest (r : RawRecord) (rest : List RawRecord)
    (batched batched' : Dict TopicPartition Int) (hpositions : s'.positions = s.positions)
    (tp : TopicPartition) :
    (Standing.reading rest batched').front? s' tp =
      ((Standing.reading (r :: rest) batched).front? s tp).map
        (· + (Deed.resolved r).gain tp) := by
  rw [Standing.front?, Standing.front?, hpositions, Option.map_map]
  congr 1
  funext p
  rw [Function.comp_apply, Deed.gain_resolved, offsetsIn_cons]
  split
  · rw [List.length_cons, Int.natCast_add]
    omega
  · rw [Int.add_zero]

namespace Coherent

theorem stored_eq_front (h : Coherent plan standing s) {c : Int}
    (hc : s.stored.get? tp = some c) : standing.front? s tp = some c := by
  refine h.owed tp c ?_
  -- Something is stored, so the strategy is automatic, and nothing is remembered.
  have hauto : plan.strategy = .auto := by
    by_contra hne
    rw [h.stores hne tp] at hc
    cases hc
  rw [Standing.owes?, h.batches (by rw [hauto]; decide) tp, hc]
  rfl

theorem batched_eq_front (h : Coherent plan standing s) {o : Int}
    (ho : standing.batched.get? tp = some o) : standing.front? s tp = some (o + 1) := by
  refine h.owed tp (o + 1) ?_
  rw [Standing.owes?, ho]
  rfl

/-- Whoever is not in the group has no partitions. -/
theorem assigned_eq_nil (h : Coherent plan standing s) (hmember : standing.isMember = false) :
    s.assigned = [] := by
  refine List.eq_nil_iff_forall_not_mem.mpr fun tp htp => ?_
  obtain ⟨p, hp⟩ := (h.tidy.positions tp).mp htp
  rw [h.away hmember] at hp
  cases hp

/-- Whoever has a record at hand has its partition. -/
theorem mem_assigned {r : RawRecord} (h : Coherent plan standing s) (hr : r ∈ standing.pending) :
    r.topicPartition ∈ s.assigned := by
  rcases standing with _ | ⟨pending, batched⟩ | _ | _
  case reading =>
    cases hf : (Standing.reading pending batched).front? s r.topicPartition with
    | some f => exact (h.tidy.positions _).mpr ⟨_, front?_eq_some_iff.mp hf⟩
    | none =>
      -- Without a front there would be no record of the partition at hand.
      have hnone := h.only _ hf
      rw [offsetsIn, List.map_eq_nil_iff, List.filter_eq_nil_iff] at hnone
      exact absurd (decide_eq_true rfl) (hnone r hr)
  all_goals cases hr

section Reading

variable {r : RawRecord} {rest : List RawRecord} {batched : Dict TopicPartition Int}

/-- **The first record at hand is at the front** of its partition. -/
theorem front_head (h : Coherent plan (.reading (r :: rest) batched) s) :
    (Standing.reading (r :: rest) batched).front? s r.topicPartition = some r.offset := by
  have hpending : offsetsIn r.topicPartition (r :: rest) =
      r.offset :: offsetsIn r.topicPartition rest := by
    rw [offsetsIn_cons, if_pos rfl]
  cases hf : (Standing.reading (r :: rest) batched).front? s r.topicPartition with
  | none =>
    -- Without a front there would be no record of the partition at hand.
    have hnone := h.only _ hf
    rw [Standing.pending, hpending] at hnone
    cases hnone
  | some f =>
    obtain ⟨n, hrun⟩ := h.run _ _ hf
    rw [Standing.pending, hpending] at hrun
    cases n with
    | zero => cases hrun
    | succ n =>
      rw [offsetsFrom_succ] at hrun
      rw [(List.cons.inj hrun).1]

theorem mem_assigned_head (h : Coherent plan (.reading (r :: rest) batched) s) :
    r.topicPartition ∈ s.assigned :=
  h.mem_assigned List.mem_cons_self

/-- After the first record at hand, the rest is a run from the next front on. -/
theorem run_rest (h : Coherent plan (.reading (r :: rest) batched) s) {f : Int}
    (hf : (Standing.reading (r :: rest) batched).front? s tp = some f) :
    ∃ n : Nat, offsetsIn tp rest = offsetsFrom (f + (Deed.resolved r).gain tp) n := by
  obtain ⟨n, hrun⟩ := h.run _ _ hf
  rw [Standing.pending, offsetsIn_cons] at hrun
  by_cases htp : r.topicPartition = tp
  · rw [if_pos htp] at hrun
    cases n with
    | zero => cases hrun
    | succ n =>
      rw [offsetsFrom_succ] at hrun
      refine ⟨n, ?_⟩
      rw [Deed.gain_resolved, if_pos htp]
      exact (List.cons.inj hrun).2
  · rw [if_neg htp] at hrun
    refine ⟨n, ?_⟩
    rw [hrun, Deed.gain_resolved, if_neg htp, Int.add_zero]

/-- The invariant after the first record at hand is resolved, as long as what is to be
committed is what was, or the offset after the record. -/
theorem resolve (h : Coherent plan (.reading (r :: rest) batched) s)
    {batched' : Dict TopicPartition Int} (htidy : s'.Tidy)
    (hpositions : s'.positions = s.positions) (hauto : s'.autoCommit = s.autoCommit)
    (hsubscribed : s'.subscribed = s.subscribed)
    (howed : ∀ tp c, (Standing.reading rest batched').owes? s' tp = some c →
      tp = r.topicPartition ∧ c = r.offset + 1 ∨
        tp ≠ r.topicPartition ∧ (Standing.reading (r :: rest) batched).owes? s tp = some c)
    (hstores : plan.strategy ≠ .auto → ∀ tp, s'.stored.get? tp = none)
    (hbatches : plan.strategy ≠ .afterBatch → ∀ tp, batched'.get? tp = none) :
    Coherent plan (.reading rest batched') s' where
  tidy := htidy
  run tp f hf := by
    rw [front?_rest r rest batched batched' hpositions, Option.map_eq_some_iff] at hf
    obtain ⟨f₀, hf₀, rfl⟩ := hf
    exact h.run_rest hf₀
  only tp hf := by
    rw [front?_rest r rest batched batched' hpositions, Option.map_eq_none_iff] at hf
    have hnone := h.only tp hf
    rw [Standing.pending, offsetsIn_cons] at hnone
    split at hnone
    · cases hnone
    · exact hnone
  owed tp c hc := by
    rw [front?_rest r rest batched batched' hpositions]
    rcases howed tp c hc with ⟨rfl, rfl⟩ | ⟨hne, hc⟩
    · rw [h.front_head, Option.map_some, Deed.gain_resolved, if_pos rfl]
    · rw [h.owed tp c hc, Option.map_some, Deed.gain_resolved, if_neg (Ne.symm hne),
        Int.add_zero]
  stores := hstores
  batches := hbatches
  auto := hauto.trans h.auto
  subscribed := hsubscribed.trans h.subscribed
  away := nofun

/-- The offset after the record is committed. -/
theorem committed (h : Coherent plan (.reading (r :: rest) batched) s)
    (hplan : plan.strategy = .afterRecord) :
    Coherent plan (.readingOn rest batched) s := by
  have hstored := h.stores (by rw [hplan]; decide)
  have hbatched : ∀ tp, (if rest.isEmpty then ∅ else batched).get? tp = none := by
    intro tp
    split
    · rfl
    · exact h.batches (by rw [hplan]; decide) tp
  refine h.resolve h.tidy rfl rfl rfl (fun tp c hc => ?_) (fun _ => hstored) (fun _ => hbatched)
  rw [Standing.owes?, Standing.batched, hbatched, hstored] at hc
  cases hc

/-- The record is remembered for the commit of the batch. -/
theorem remembered (h : Coherent plan (.reading (r :: rest) batched) s)
    (hplan : plan.strategy = .afterBatch) :
    Coherent plan (.reading rest (batched.insert r.topicPartition r.offset)) s := by
  refine h.resolve h.tidy rfl rfl rfl (fun tp c hc => ?_) h.stores (fun hne => absurd hplan hne)
  rw [Standing.owes?, Standing.batched, Dict.get?_insert] at hc
  by_cases htp : tp = r.topicPartition
  · rw [if_pos htp] at hc
    exact .inl ⟨htp, (Option.some.inj hc).symm⟩
  · rw [if_neg htp] at hc
    exact .inr ⟨htp, hc⟩

/-- The last record of a batch is resolved, and the batch is committed. -/
theorem committedBatch (h : Coherent plan (.reading [r] batched) s)
    (hplan : plan.strategy = .afterBatch) : Coherent plan (.reading [] ∅) s := by
  have hstored := h.stores (by rw [hplan]; decide)
  refine h.resolve h.tidy rfl rfl rfl (fun tp c hc => ?_) (fun _ => hstored) (fun _ _ => rfl)
  rw [Standing.owes?, hstored] at hc
  cases hc

/-- The offset after the record is stored. -/
theorem kept (h : Coherent plan (.reading (r :: rest) batched) s)
    (hplan : plan.strategy = .auto) (hstore : s.store [offsetAfter r] = (.ok (), s')) :
    Coherent plan (.readingOn rest batched) s' := by
  have hget := Session.stored_offsetAfter hstore
  have hbatched : ∀ tp, (if rest.isEmpty then ∅ else batched).get? tp = none := by
    intro tp
    split
    · rfl
    · exact h.batches (by rw [hplan]; decide) tp
  obtain ⟨hassigned, rfl⟩ := Session.store_ok hstore
  refine h.resolve ⟨h.tidy.positions, fun tp c hc => ?_⟩ rfl rfl rfl (fun tp c hc => ?_)
    (fun hne => absurd hplan hne) (fun _ => hbatched)
  · rw [hget] at hc
    split at hc
    next htp => exact htp ▸ hassigned
    next => exact h.tidy.stored tp c hc
  · rw [Standing.owes?, Standing.batched, hbatched, Option.map_none, Option.none_or, hget] at hc
    split at hc
    next htp => exact .inl ⟨htp, (Option.some.inj hc).symm⟩
    next htp =>
      refine .inr ⟨htp, ?_⟩
      rw [Standing.owes?, h.batches (by rw [hplan]; decide) tp]
      exact hc

end Reading

/-- A worker that joins its group has nothing there yet. -/
theorem joined (h : Coherent plan .outside s) (topics : List String) (b : Broker) :
    Coherent plan (.reading [] ∅) (s.subscribe topics b).1 where
  tidy := ⟨h.tidy.positions, h.tidy.stored⟩
  run _ _ _ := ⟨0, rfl⟩
  only _ _ := rfl
  owed tp c hc := nomatch h.owed tp c hc
  stores := h.stores
  batches _ _ := rfl
  auto := h.auto
  subscribed := rfl
  away := nofun

/-- A worker that stops drops its records, and owes what is stored. -/
theorem closing {pending : List RawRecord} {batched : Dict TopicPartition Int}
    (h : Coherent plan (.reading pending batched) s) : Coherent plan .closing s where
  tidy := h.tidy
  run _ _ _ := ⟨0, rfl⟩
  only _ _ := rfl
  owed tp c hc := by
    rw [Standing.front?, ← hc]
    rfl
  stores := h.stores
  batches _ _ := rfl
  auto := h.auto
  subscribed := h.subscribed
  away := nofun

/-- A worker that has left its group has nothing there. -/
theorem gone (h : Coherent plan standing s) (b : Broker) :
    Coherent plan .gone (s.leave b).1 := by
  have hauto : (s.leave b).1.autoCommit = plan.strategy.isAuto :=
    (Session.same_leave s b).autoCommit.trans h.auto
  have hnothing : (s.leave b).1.subscribed = false ∧ (s.leave b).1.positions = ∅ ∧
      (s.leave b).1.assigned = [] ∧ ∀ tp, (s.leave b).1.stored.get? tp = none := by
    rcases Session.leave_cases s b with ⟨hsub, hleave⟩ | ⟨-, hsub, hassigned, hpos, hstored⟩
    · -- It never joined, and has had nothing all along.
      rw [hleave]
      have hmember := h.subscribed.symm.trans hsub
      have hassigned := h.assigned_eq_nil hmember
      refine ⟨hsub, h.away hmember, hassigned, fun tp => ?_⟩
      refine Option.eq_none_iff_forall_ne_some.mpr fun c hc => ?_
      have hmem := h.tidy.stored tp c hc
      rw [hassigned] at hmem
      cases hmem
    · exact ⟨hsub, hpos, hassigned, fun tp => by rw [hstored]; rfl⟩
  obtain ⟨hsub, hpos, hassigned, hstored⟩ := hnothing
  exact
    { tidy :=
        { positions := fun tp => by rw [hassigned, hpos]; exact ⟨nofun, nofun⟩
          stored := fun tp c hc => by rw [hstored tp] at hc; cases hc }
      run := nofun
      only := fun _ _ => rfl
      owed := fun tp c hc => by
        rw [Standing.owes?, hstored tp] at hc
        cases hc
      stores := fun _ => hstored
      batches := fun _ _ => rfl
      auto := hauto
      subscribed := hsub
      away := fun _ => hpos }

end Coherent

/-! ### A fetch -/

namespace Coherent

variable {b b' : Broker} {room : Nat} {records : List RawRecord}

/-- The front after a fetch: a partition that is kept keeps its front, and in one that is
gained the session begins. -/
theorem front_fetch (h : Coherent plan (.reading [] ∅) s)
    (hfetch : s.fetch room b = .ok (records, s', b')) (tp : TopicPartition) :
    (Standing.reading records ∅).front? s' tp =
      if tp ∈ (s.sync b).assigned then
        some (((Standing.reading [] ∅).front? s tp).getD
          (s.startOffset b (b.group s.group) tp))
      else none := by
  obtain ⟨positions, nextStart, rfl, rfl, hreads⟩ := Session.fetch_ok hfetch
  -- The positions are taken over first, and then moved over the records that are found.
  rw [front?_nil, ← Session.positions_sync h.tidy b tp]
  cases hp : (s.sync b).positions.get? tp with
  | none =>
    rw [Standing.front?, (hreads.none tp hp).1]
    rfl
  | some p =>
    obtain ⟨n, hafter, hrecords⟩ := hreads.run tp p hp
    rw [front?_eq_some_iff, hrecords, length_offsetsFrom]
    exact hafter

/-- What is stored after a fetch was stored before, and in a partition that is kept. -/
theorem stored_fetch (h : Coherent plan (.reading [] ∅) s)
    (hfetch : s.fetch room b = .ok (records, s', b')) {c : Int}
    (hc : s'.stored.get? tp = some c) :
    tp ∈ (s.sync b).assigned ∧ s.stored.get? tp = some c := by
  obtain ⟨positions, nextStart, rfl, -, -⟩ := Session.fetch_ok hfetch
  have hsync := Session.stored_of_publish hc
  rw [Session.stored_sync h.tidy] at hsync
  split at hsync
  next hkept => exact ⟨hkept, hsync⟩
  next => cases hsync

theorem fetch (h : Coherent plan (.reading [] ∅) s)
    (hfetch : s.fetch room b = .ok (records, s', b')) :
    Coherent plan (.reading records ∅) s' where
  tidy := h.tidy.fetch hfetch
  run tp f hf := by
    obtain ⟨positions, nextStart, rfl, -, hreads⟩ := Session.fetch_ok hfetch
    rw [front?_eq_some_iff] at hf
    cases hp : (s.sync b).positions.get? tp with
    | none =>
      rw [(hreads.none tp hp).1] at hf
      cases hf
    | some p =>
      obtain ⟨n, hafter, hrecords⟩ := hreads.run tp p hp
      refine ⟨n, ?_⟩
      have hf : positions.get? tp = _ := hf
      rw [hafter, hrecords, length_offsetsFrom] at hf
      have hpf : p = f := by
        have := Option.some.inj hf
        omega
      rw [Standing.pending, hrecords, hpf]
  only tp hf := by
    obtain ⟨positions, nextStart, rfl, -, hreads⟩ := Session.fetch_ok hfetch
    cases hp : (s.sync b).positions.get? tp with
    | none => exact (hreads.none tp hp).2
    | some p =>
      obtain ⟨n, hafter, -⟩ := hreads.run tp p hp
      rw [Standing.front?, hafter] at hf
      cases hf
  owed tp c hc := by
    obtain ⟨hkept, hstored⟩ := h.stored_fetch hfetch hc
    rw [h.front_fetch hfetch, if_pos hkept, h.stored_eq_front hstored, Option.getD_some]
  stores hplan tp := by
    refine Option.eq_none_iff_forall_ne_some.mpr fun c hc => ?_
    have hstored := (h.stored_fetch hfetch hc).2
    rw [h.stores hplan tp] at hstored
    cases hstored
  batches _ _ := rfl
  auto := by
    obtain ⟨positions, nextStart, rfl, -, -⟩ := Session.fetch_ok hfetch
    exact ((Session.same_sync s b).trans (Session.same_publish _ b)).autoCommit.trans h.auto
  subscribed := by
    obtain ⟨positions, nextStart, rfl, -, -⟩ := Session.fetch_ok hfetch
    show ((s.sync b).publish b).1.subscribed = true
    rw [Session.subscribed_publish, Session.subscribed_sync]
    exact h.subscribed
  away := nofun

end Coherent

end StreamDispatch
