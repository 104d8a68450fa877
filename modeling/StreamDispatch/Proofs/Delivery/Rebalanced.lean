import StreamDispatch.Proofs.Delivery.Exclusive
import StreamDispatch.Proofs.Session.Consistent
import StreamDispatch.Proofs.Worker.Failing

/-!
# Batches and rebalances

A worker polls a batch and takes its records one after the other. Meanwhile others join the group
and leave it, topics are created, and the partitions of the batch may be dealt to somebody else
before the worker is through with it. The worker does not notice. What its session has changes only
with the next fetch or when it leaves, and as long as there is a record at hand it does neither
(`StreamDispatch.Move.holds`). So all of the batch stays in partitions that the session has, and
storing the offset after a record is never refused.

None of this depends on who the others are. So it is not said of histories, in which they are other
workers, but of one worker in any surroundings (`StreamDispatch.Worker.Reachable`): between two of
its events the broker may have become any other one, as long as each group is dealt out to its
members. The workers of histories are among these (`StreamDispatch.History.reachable`).

## Main definitions

* `StreamDispatch.Worker.Reachable`: what may become of a worker, and which batch it polled last.
* `StreamDispatch.Worker.Steady`: what holds of it all the time.

## Main statements

* `StreamDispatch.Session.collections_agree`: what sessions keep agrees, and no worker fails to
  store an offset.
-/

namespace StreamDispatch

namespace Move

variable {plan : Plan} {d d' : Desk} {deed : Deed}

/-- **What a move does to the partitions of a worker**, and to the records at hand. -/
inductive Holds (d d' : Desk) : Prop
  /-- It keeps its partitions, and gets no records. -/
  | keeps (assigned : d'.session.assigned = d.session.assigned)
      (pending : d'.standing.pending <:+ d.standing.pending)
  /-- It leaves, and then it has neither. -/
  | leaves (assigned : d'.session.assigned = []) (pending : d'.standing.pending = [])
  /-- It fetches, which it does without a record at hand. -/
  | fetches (pending : d.standing.pending = [])
      (assigned : d'.session.assigned = d.session.assigned ∨
        d'.session.assigned = (d.broker.group d.session.group).share d.session.member)

theorem holds (h : Move plan d deed d') (hc : Coherent plan d.standing d.session) :
    Holds d d' := by
  have hc' := h.coherent hc
  cases h with
  | idle => exact .keeps rfl List.suffix_rfl
  | join => exact .keeps rfl List.suffix_rfl
  | @fetch s s' b b' records h =>
    obtain ⟨positions, nextStart, rfl, -, -⟩ := Session.fetch_ok h
    refine .fetches rfl ?_
    rw [show Session.assigned _ = _ from Session.assigned_publish (s.sync b) b]
    exact Session.assigned_sync s b
  | @storeRecord s s' _ r _ _ _ h =>
    obtain ⟨-, rfl⟩ := Session.store_ok h
    exact .keeps rfl (List.suffix_cons r _)
  | refuseStore h =>
    obtain ⟨-, rfl⟩ := Session.store_error h
    exact .keeps rfl List.nil_suffix
  | leave => exact .leaves (hc'.assigned_eq_nil rfl) rfl
  | cutOff => exact .leaves (hc'.assigned_eq_nil rfl) rfl
  | @commitRecord _ _ _ r => exact .keeps rfl (List.suffix_cons r _)
  | @rememberRecord _ _ r => exact .keeps rfl (List.suffix_cons r _)
  | _ => exact .keeps rfl List.nil_suffix

end Move

/-! ### One worker in any surroundings -/

namespace Worker

variable {w w' : Worker} {batch : List RawRecord}

/-- The batch that a worker has polled last: what it has at hand now, if it had nothing at hand
before, and otherwise the one that it had polled by then. -/
def batchAfter (w w' : Worker) (batch : List RawRecord) : List RawRecord :=
  if w.activity.standing.pending.isEmpty then w'.activity.standing.pending else batch

/-- **What may become of a worker**, with the batch that it has polled last. Before each of its
events the surroundings may have changed in any way, but groups are dealt out to their members. -/
inductive Reachable : Worker → List RawRecord → Prop
  | new {w : Worker} (h : w.New) : Reachable w []
  /-- It is asked to stop, or not even that. -/
  | aside {w w' : Worker} {batch : List RawRecord} (before : Reachable w batch) (h : w.Kept w') :
      Reachable w' batch
  /-- Something happens to it. -/
  | event {t : Turn} {batch : List RawRecord} (before : Reachable t.worker batch)
      (current : t.broker.Current) (ev : WorkerEvent) (now : Nat) :
      Reachable (ev.apply now t).worker (t.worker.batchAfter (ev.apply now t).worker batch)

/-- **What holds of a worker all the time.** -/
structure Steady (w : Worker) (batch : List RawRecord) : Prop where
  coherent : Coherent w.plan w.activity.standing w.session
  settled : w.Settled
  once : w.session.assigned.Nodup
  /-- The records at hand are what is left of the batch. -/
  left : w.activity.standing.pending <:+ batch
  /-- As long as something is left, the worker has the partitions of the whole batch. -/
  assigned : w.activity.standing.pending ≠ [] →
    ∀ r ∈ batch, r.topicPartition ∈ w.session.assigned
  notHeldUp : ¬w.activity.HeldUp
  notBlamed : ¬w.phase.Blames .storeOffsets

namespace Steady

theorem consistent (h : w.Steady batch) : w.session.Consistent :=
  h.coherent.tidy.consistent h.once fun hout =>
    h.coherent.assigned_eq_nil (h.coherent.subscribed.symm.trans hout)

theorem new (h : w.New) : w.Steady [] := by
  have hcoherent : Coherent w.plan w.activity.standing w.session := by
    rw [h.activity]
    exact h.coherent
  have hnone : w.session.assigned = [] := h.coherent.assigned_eq_nil rfl
  refine ⟨hcoherent, h.settled, ?_, ?_, fun _ _ hr => absurd hr List.not_mem_nil, ?_, ?_⟩
  · rw [hnone]
    exact .nil
  · rw [h.activity]
    exact List.suffix_rfl
  · rw [h.activity]
    exact Turn.not_heldUp_of_ne nofun
  · intro hblames
    cases h.phase.symm.trans hblames.isTerminal

theorem kept (h : w.Steady batch) (hk : w.Kept w') : w'.Steady batch := by
  refine ⟨?_, h.settled.kept hk, ?_, ?_, ?_, ?_, fun hblames => ?_⟩
  · rw [hk.plan, hk.activity, hk.session]
    exact h.coherent
  · rw [hk.session]
    exact h.once
  · rw [hk.activity]
    exact h.left
  · rw [hk.activity, hk.session]
    exact h.assigned
  · rw [hk.activity]
    exact h.notHeldUp
  · rw [hk.final (hk.phase.symm.trans hblames.isTerminal)] at hblames
    exact h.notBlamed hblames

section Event

variable {t : Turn} (h : t.worker.Steady batch) (ev : WorkerEvent) (now : Nat)

include h

theorem coherent_event :
    Coherent (ev.apply now t).worker.plan (ev.apply now t).worker.activity.standing
      (ev.apply now t).worker.session := by
  obtain ⟨deed, hdid, -, -⟩ := ev.did now t
  rw [hdid.plan]
  exact hdid.move.coherent h.coherent

theorem holds_event : Move.Holds t.desk (ev.apply now t).desk := by
  obtain ⟨deed, hdid, -, -⟩ := ev.did now t
  exact hdid.move.holds h.coherent

/-- The partitions are still there once: what is taken over is dealt out once. -/
theorem once_event (hcurrent : t.broker.Current) :
    (ev.apply now t).worker.session.assigned.Nodup := by
  rcases h.holds_event ev now with ⟨hkept, -⟩ | ⟨hnone, -⟩ | ⟨-, hkept | hshare⟩
  · exact hkept ▸ h.once
  · exact hnone ▸ .nil
  · exact hkept ▸ h.once
  · exact hshare ▸ Group.share_nodup (hcurrent t.worker.session.group) t.worker.session.member

/-- **The batch after an event** is the one before, as long as something is left of it, and then
its partitions are still there. -/
theorem batch_event :
    (ev.apply now t).worker.activity.standing.pending <:+
        t.worker.batchAfter (ev.apply now t).worker batch ∧
      ((ev.apply now t).worker.activity.standing.pending ≠ [] →
        ∀ r ∈ t.worker.batchAfter (ev.apply now t).worker batch,
          r.topicPartition ∈ (ev.apply now t).worker.session.assigned) := by
  have hcoherent := h.coherent_event ev now
  by_cases hrests : t.worker.activity.standing.pending = []
  · have hbatch : t.worker.batchAfter (ev.apply now t).worker batch =
        (ev.apply now t).worker.activity.standing.pending := by
      rw [batchAfter, hrests, List.isEmpty_nil, if_pos rfl]
    rw [hbatch]
    exact ⟨List.suffix_rfl, fun _ r hr => hcoherent.mem_assigned hr⟩
  · have hbatch : t.worker.batchAfter (ev.apply now t).worker batch = batch := by
      rw [batchAfter, if_neg (mt List.isEmpty_iff.mp hrests)]
    rw [hbatch]
    rcases h.holds_event ev now with ⟨hkept, hpending⟩ | ⟨-, hpending⟩ | ⟨hnone, -⟩
    · refine ⟨hpending.trans h.left, fun _ r hr => ?_⟩
      rw [show (ev.apply now t).worker.session.assigned = _ from hkept]
      exact h.assigned hrests r hr
    · rw [show (ev.apply now t).worker.activity.standing.pending = [] from hpending]
      exact ⟨List.nil_suffix, fun hne => absurd rfl hne⟩
    · exact absurd hnone hrests

/-- No event makes a worker fail with an offset that is not stored. -/
theorem notBlamed_event : ¬(ev.apply now t).worker.phase.Blames .storeOffsets := by
  rintro ⟨fault, hfault, hfailed⟩
  rcases ev.failed_cases h.settled now hfailed with hbefore | hcloses | ⟨message, hbroken⟩
  · exact h.notBlamed ⟨fault, hfault, hbefore⟩
  · exact h.notHeldUp ⟨_, hcloses, fault, hfault, rfl⟩
  · rw [hbroken] at hfailed
    refine Phase.not_blames_breakdown message .storeOffsets ⟨fault, hfault, ?_⟩
    rw [hbroken]

theorem event (hcurrent : t.broker.Current) :
    (ev.apply now t).worker.Steady (t.worker.batchAfter (ev.apply now t).worker batch) where
  coherent := h.coherent_event ev now
  settled := (ev.passes now h.settled).settled
  once := h.once_event ev now hcurrent
  left := (h.batch_event ev now).1
  assigned := (h.batch_event ev now).2
  notHeldUp := by
    refine ev.not_heldUp now (fun job stage hactivity => h.coherent.mem_assigned ?_) h.notHeldUp
    rw [hactivity]
    exact List.mem_cons_self
  notBlamed := h.notBlamed_event ev now

end Event

end Steady

theorem Reachable.steady (h : w.Reachable batch) : w.Steady batch := by
  induction h with
  | new h => exact .new h
  | aside _ hk ih => exact ih.kept hk
  | event _ hcurrent ev now ih => exact ih.event ev now hcurrent

end Worker

/-! ### The workers of a history -/

/-- **The workers of a history are reachable**: what the others do there are surroundings like
any. -/
theorem History.reachable {D H : Type} (events : List (Event D H)) :
    ∀ (place : Nat) (w : Worker), (of events).system.workers[place]? = some w →
      ∃ batch, w.Reachable batch := by
  induction events using List.reverseRecOn with
  | nil =>
    intro place w hw
    cases hw
  | append_singleton events e ih =>
    intro place w' hw'
    rw [system_concat] at hw'
    rcases System.becomes (sound events).settled e hw' with
      ⟨-, hnew⟩ | ⟨w, hw, hkept, -⟩ | ⟨w, ev, deed, rfl, hacts⟩
    · exact ⟨[], .new hnew⟩
    · obtain ⟨batch, hreachable⟩ := ih place w hw
      exact ⟨batch, .aside hreachable hkept⟩
    · obtain ⟨batch, hreachable⟩ := ih place w hacts.before
      rw [System.apply, System.workers_turn hacts.before, if_pos rfl] at hw'
      obtain rfl := Option.some.inj hw'
      exact ⟨_, .event (t := ⟨w, _, _⟩) hreachable (enrolled events).current ev _⟩

/-- **What sessions keep agrees, and no worker fails to store an offset.** A session has a position
in each of its partitions and in no other, each partition once, stored offsets in its partitions
only, and nothing at all outside of its group, whatever was asked for, and in the hands of a worker
as well. So whatever becomes of the group of a worker, the batch at hand stays in partitions of its
session, and none of its requests to store an offset is what it fails with. -/
theorem Session.collections_agree {D H : Type} :
    (∀ requests label s, (Stand.of requests).sessions.get? label = some s → s.Consistent) ∧
    (∀ (events : List (Event D H)) (place : Nat) (w : Worker),
      (History.of events).system.workers[place]? = some w → ∃ batch, w.Reachable batch) ∧
    ∀ (w : Worker) (batch : List RawRecord), w.Reachable batch →
      w.session.Consistent ∧
      (∀ job stage, w.activity = .working job stage →
        (∃ done, batch = done ++ job.record :: job.rest) ∧
          ∀ r ∈ batch, r.topicPartition ∈ w.session.assigned) ∧
      ¬w.phase.Blames .storeOffsets := by
  refine ⟨Stand.consistent, History.reachable, fun w batch hreachable => ?_⟩
  have hsteady := hreachable.steady
  refine ⟨hsteady.consistent, fun job stage hactivity => ?_, hsteady.notBlamed⟩
  have hpending : w.activity.standing.pending = job.record :: job.rest := by
    rw [hactivity]
    rfl
  obtain ⟨done, hdone⟩ := hsteady.left
  rw [hpending] at hdone
  exact ⟨⟨done, hdone.symm⟩, hsteady.assigned (by rw [hpending]; exact List.cons_ne_nil _ _)⟩

namespace History

/-- A registration of one worker that reads the orders and stores offsets. -/
def storingReader (name : String) : Registration Unit Unit :=
  { orderReader name with
    consumer := .given { ConsumerConfig.default with commitStrategy := .auto } }

/-- A worker polls three records of a partition. Another one joins the group and takes the
partition over, and only then the first one accepts the first of its records. -/
def storedHandover : List (Event Unit Unit) :=
  [.createTopic "orders" ⟨2, 1, ∅⟩, .produce secondOrders ⟨none, none, 0, []⟩,
    .produce secondOrders ⟨none, none, 0, []⟩, .produce secondOrders ⟨none, none, 0, []⟩,
    .submit (storingReader "first"), .work 0 .start, .work 0 .poll,
    .submit (storingReader "second"), .work 1 .start, .work 1 .poll] ++ accepts 0

/-- A session of two has a topic to itself that was created after it had joined. Of two workers
the second has taken over the partition, and the first one has stored an offset there all the same,
and is at work on the rest of its batch. -/
theorem collections_agree_storedHandover :
    (∃ s, (Stand.of Stand.twoReaders).sessions.get? "left" = some s ∧
      ⟨"refunds", 0⟩ ∈ s.assigned ∧ s.Consistent) ∧
    secondOrders ∈ ((of storedHandover).system.broker.group "default").share 1 ∧
    ∃ w batch, (of storedHandover).system.workers[0]? = some w ∧ w.session.member = 0 ∧
      w.session.stored.get? secondOrders = some 1 ∧
      (∃ job stage done, w.activity = .working job stage ∧
        batch = done ++ job.record :: job.rest) ∧
      (∀ r ∈ batch, r.topicPartition ∈ w.session.assigned) ∧ w.session.Consistent ∧
      ¬w.phase.Blames .storeOffsets := by
  obtain ⟨hsessions, hworkers, hreachable⟩ := Session.collections_agree (D := Unit) (H := Unit)
  have hleft : ((Stand.of Stand.twoReaders).sessions.get? "left").map (fun s =>
      decide (⟨"refunds", 0⟩ ∈ s.assigned)) = some true := by decide
  have hview : (of storedHandover).system.workers[0]?.map (fun w =>
      (w.session.member, w.session.stored.get? secondOrders,
        w.activity.standing.pending.length)) = some (0, some 1, 2) := by decide
  refine ⟨?_, by decide, ?_⟩
  · obtain ⟨s, hs, htp⟩ := Option.map_eq_some_iff.mp hleft
    exact ⟨s, hs, of_decide_eq_true htp, hsessions _ _ s hs⟩
  · obtain ⟨w, hw, hw'⟩ := Option.map_eq_some_iff.mp hview
    obtain ⟨hmember, hw'⟩ := Prod.mk.inj hw'
    obtain ⟨hstored, hpending⟩ := Prod.mk.inj hw'
    obtain ⟨job, stage, hactivity⟩ : ∃ job stage, w.activity = .working job stage := by
      cases hactivity : w.activity with
      | working job stage => exact ⟨job, stage, rfl⟩
      | _ =>
        rw [hactivity] at hpending
        cases hpending
    obtain ⟨batch, hbatch⟩ := hworkers storedHandover 0 w hw
    obtain ⟨hconsistent, hholds, hfails⟩ := hreachable w batch hbatch
    obtain ⟨⟨done, hdone⟩, hassigned⟩ := hholds job stage hactivity
    exact ⟨w, batch, hw, hmember, hstored, ⟨job, stage, done, hactivity, hdone⟩, hassigned,
      hconsistent, hfails⟩

end History

end StreamDispatch
