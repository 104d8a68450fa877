import StreamDispatch.Proofs.System.Event

/-!
# At least once

A group's progress never runs ahead of what its workers have resolved: every record below a
committed offset was accepted by a handler or skipped by a policy before, in whatever order
things happened. This is what is left to rely on when workers are cut off, requests fail, and
partitions change hands in the middle of a batch, because a record may then be resolved
again, but is never passed over.

The invariant is about fronts as well as commits. Whatever lies below a committed offset of
the group, and whatever lies below the front of any of its workers, is resolved
(`StreamDispatch.History.Covers`). A front moves only over what is resolved, a new front
begins at a committed offset, or at the beginning, and whatever is committed is a front.

A session that begins at the end of partitions without progress passes records over by
intent, so the group has to be without such sessions.
-/

namespace StreamDispatch

namespace History

variable {D H : Type} {h : History} {group : String} {tp : TopicPartition}

/-- Everything in a partition below an offset is resolved for a group. -/
def Covers (h : History) (group : String) (tp : TopicPartition) (bound : Int) : Prop :=
  ∀ o, 0 ≤ o → o < bound →
    ∃ x ∈ h.resolved, x.group = group ∧ x.partition = tp ∧ x.offset = o

/-- Everything below progress and below fronts of a group is resolved. -/
structure Covered (h : History) (group : String) : Prop where
  committed : ∀ tp c, h.system.broker.committed group tp = some c → h.Covers group tp c
  front : ∀ w ∈ h.system.workers, w.session.group = group → ∀ tp f,
    w.activity.standing.front? w.session tp = some f → h.Covers group tp f

/-- What is resolved stays resolved. -/
theorem Covers.extend {bound : Int} (hc : h.Covers group tp bound) (e : Event D H) :
    (h.extend e).Covers group tp bound := by
  intro o hnonneg hlt
  obtain ⟨x, hx, heq⟩ := hc o hnonneg hlt
  exact ⟨x, List.mem_append_left _ hx, heq⟩

theorem covers_zero (h : History) (group : String) (tp : TopicPartition) :
    h.Covers group tp 0 := by
  intro o hnonneg hlt
  omega

theorem covered_empty (group : String) : Covered empty group where
  committed _ _ hc := nomatch hc
  front _ hw := absurd hw List.not_mem_nil

section Act

variable {e : Event D H} {place : Nat} {w w' : Worker} {ev : WorkerEvent} {deed : Deed}
  {sys' : System}

/-- Over what a worker resolves, its front moves on. -/
theorem Covers.gain (hacts : h.system.Acts place w ev deed w' sys')
    (hcoherent : Coherent w.plan w.activity.standing w.session) {f : Int}
    (hf : w.activity.standing.front? w.session tp = some f)
    (hc : h.Covers w.session.group tp f) :
    (h.extend (.work place ev : Event D H)).Covers w.session.group tp (f + deed.gain tp) := by
  intro o hnonneg hlt
  by_cases hbelow : o < f
  · exact hc.extend _ o hnonneg hbelow
  · -- The offset is the front, and it is just being resolved.
    rw [Deed.gain] at hlt
    split at hlt
    next r hr =>
      split at hlt
      next htp =>
        have hfront := hacts.move.front_resolved hcoherent hr
        rw [htp] at hfront
        have hoffset : r.offset = o := by
          have := Option.some.inj (hfront.symm.trans hf)
          omega
        refine ⟨⟨place, w.session.group, r.topicPartition, r.offset⟩, ?_, rfl, htp, hoffset⟩
        refine List.mem_append_right _ ?_
        rw [System.resolution?, hacts.before, Option.bind_some, ← hacts.resolved, hr]
        exact List.mem_singleton.mpr rfl
      next => omega
    next => omega

end Act

/-- **One more event** keeps everything below progress and fronts resolved. -/
theorem Covered.extend (hc : h.Covered group) (hsound : h.system.Sound) (e : Event D H)
    (hstart : h.FromStart group) : (h.extend e).Covered group := by
  rcases System.apply_cases hsound.settled e with
    ⟨haside, -⟩ | ⟨place, w, ev, deed, w', rfl, hacts⟩
  · constructor
    · intro tp c hcommitted
      rw [system_extend, haside.committed] at hcommitted
      exact (hc.committed tp c hcommitted).extend e
    · intro v hv hgroup tp f hf
      rcases haside.mem_cases hv with ⟨w, hw, hkept⟩ | hnew
      · rw [hkept.activity, hkept.session] at hf
        rw [hkept.session] at hgroup
        exact (hc.front w hw hgroup tp f hf).extend e
      · rw [hnew.activity] at hf
        cases hf
  · have hw := List.mem_of_getElem? hacts.before
    have hcoherent := hsound.coherent w hw
    have hmove := hacts.move
    constructor
    · intro tp c hcommitted
      by_cases hgroup : group = w.session.group
      · subst hgroup
        rcases hmove.committed hcoherent tp with hsame | ⟨f, hf, hnew⟩
        · exact (hc.committed tp c (hsame.symm.trans hcommitted)).extend _
        · obtain rfl : f + deed.gain tp = c := Option.some.inj (hnew.symm.trans hcommitted)
          exact (hc.front w hw rfl tp f hf).gain hacts hcoherent hf
      · -- Nobody commits for another group than its own.
        have hsame := hmove.sameBut.committed hgroup tp
        exact (hc.committed tp c (hsame.symm.trans hcommitted)).extend _
    · intro v hv hgroup tp f hf
      rcases hacts.mem_cases hv with rfl | hv
      · have hgroup : w.session.group = group := hmove.same.group.symm.trans hgroup
        subst hgroup
        rcases hmove.front hcoherent hf with ⟨f₀, hf₀, rfl⟩ | ⟨-, -, rfl⟩
        · exact (hc.front w hw rfl tp f₀ hf₀).gain hacts hcoherent hf₀
        · -- A new front is at the committed offset, or at the beginning.
          rw [Session.startOffset_eq (hstart w hw rfl)]
          cases hcommitted : h.system.broker.committed w.session.group tp with
          | none => exact covers_zero _ _ _
          | some c => exact (hc.committed tp c hcommitted).extend _
      · exact (hc.front v hv hgroup tp f hf).extend _

theorem covered (events : List (Event D H)) (hstart : (of events).FromStart group) :
    (of events).Covered group := by
  induction events using List.reverseRecOn with
  | nil => exact covered_empty group
  | append_singleton events e ih =>
    rw [of_concat] at hstart ⊢
    have hbefore := hstart.of_extend (sound events)
    exact (ih hbefore).extend (sound events) e hbefore

/-- **No record is passed over by a commit**: in every history, every offset below one that is
committed for a group was resolved before by a worker of the group, as long as no session of
the group begins at the end of partitions. -/
theorem resolved_of_committed (events : List (Event D H)) (group : String)
    (hstart : (of events).FromStart group) {tp : TopicPartition} {c : Int}
    (hc : (of events).system.broker.committed group tp = some c) {o : Int} (hnonneg : 0 ≤ o)
    (hlt : o < c) :
    ∃ x ∈ (of events).resolved, x.group = group ∧ x.partition = tp ∧ x.offset = o :=
  (covered events hstart).committed tp c hc o hnonneg hlt

/-- The last of the records that changed hands. -/
theorem resolved_of_committed_handover :
    ∃ x ∈ (of handover).resolved,
      x.group = "default" ∧ x.partition = secondOrders ∧ x.offset = 2 :=
  resolved_of_committed handover "default" (by decide +kernel) (c := 3) (by decide +kernel)
    (by decide) (by decide)

end History

end StreamDispatch
