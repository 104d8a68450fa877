import StreamDispatch.Proofs.System.Submission

/-!
# What happens aside from the workers

Topics and records appear, requests are made to fail, registrations come and go, and workers
are asked to stop. All this happens aside from what workers do: it changes no progress and no
group's members, it takes no partition away from anybody, and it leaves every worker where it
is; at most there are new workers that have not begun (`StreamDispatch.System.Aside`).

Submitting a registration is no exception: all that comes of it are new workers, with new
numbers, and clearing away the one before touches no worker
(`StreamDispatch.System.evict_ok`).

## Main statements

* `StreamDispatch.System.Aside`: what happens aside, as a relation.
* `StreamDispatch.System.aside_submit`: submitting a registration happens aside.
-/

namespace StreamDispatch

/-! ### Workers that are left alone -/

/-- A worker is where it was; at most it was asked to stop. -/
structure Worker.Kept (w w' : Worker) : Prop where
  plan : w'.plan = w.plan
  session : w'.session = w.session
  activity : w'.activity = w.activity
  metrics : w'.metrics = w.metrics
  phase : w'.phase.isTerminal = w.phase.isTerminal
  final : w.phase.isTerminal = true → w'.phase = w.phase
  order : w.InOrder → w'.InOrder

/-- A worker that has not begun. -/
structure Worker.New (w : Worker) : Prop where
  activity : w.activity = .unstarted
  metrics : w.metrics = .empty
  phase : w.phase.isTerminal = false
  order : w.InOrder
  coherent : Coherent w.plan .outside w.session

namespace Worker

variable {u w w' : Worker}

theorem Kept.refl (w : Worker) : w.Kept w := ⟨rfl, rfl, rfl, rfl, rfl, fun _ => rfl, id⟩

theorem Kept.trans (h : u.Kept w) (h' : w.Kept w') : u.Kept w' :=
  ⟨h'.plan.trans h.plan, h'.session.trans h.session, h'.activity.trans h.activity,
    h'.metrics.trans h.metrics, h'.phase.trans h.phase,
    fun hphase => (h'.final (h.phase.trans hphase)).trans (h.final hphase),
    h'.order ∘ h.order⟩

theorem New.kept (h : w.New) (hk : w.Kept w') : w'.New where
  activity := hk.activity.trans h.activity
  metrics := hk.metrics.trans h.metrics
  phase := hk.phase.trans h.phase
  order := hk.order h.order
  coherent := by
    rw [hk.plan, hk.session]
    exact h.coherent

theorem New.settled (h : w.New) : w.Settled where
  isOver hphase := by
    rw [h.phase] at hphase
    cases hphase
  closing p hp := by
    rw [h.activity] at hp
    cases hp
  told hover := by rcases hover with hover | hover <;> rw [h.activity] at hover <;> cases hover
  broken message hpanicked := by
    rw [h.activity] at hpanicked
    cases hpanicked

theorem Settled.kept (h : w.Settled) (hk : w.Kept w') : w'.Settled where
  isOver := by rw [hk.phase, hk.activity]; exact h.isOver
  closing := by rw [hk.activity]; exact h.closing
  told := by rw [hk.phase, hk.activity]; exact h.told
  broken message hpanicked hphase := by
    rw [hk.activity] at hpanicked
    rw [hk.phase] at hphase
    rw [hk.final hphase]
    exact h.broken message hpanicked hphase

end Worker

namespace System

/-- **What happens aside from the workers.** -/
structure Aside (sys sys' : System) : Prop where
  committed : ∀ name tp, sys'.broker.committed name tp = sys.broker.committed name tp
  members : ∀ name, (sys'.broker.group name).members = (sys.broker.group name).members
  current : sys.broker.Current → sys'.broker.Current
  partitions : ∀ topic count, sys.broker.partitionsOf topic = some count →
    sys'.broker.partitionsOf topic = some count
  nextMember : sys.broker.nextMember ≤ sys'.broker.nextMember
  kept : ∀ (i : Nat) (w : Worker), sys.workers[i]? = some w →
    ∃ w', sys'.workers[i]? = some w' ∧ w.Kept w'
  fresh : ∀ (i : Nat) (w' : Worker), sys'.workers[i]? = some w' →
    (∃ w, sys.workers[i]? = some w ∧ w.Kept w') ∨ w'.New
  /-- New workers have new numbers. -/
  numbers : ∃ fresh : List Nat,
    sys'.workers.map (·.session.member) = sys.workers.map (·.session.member) ++ fresh ∧
      fresh.Nodup ∧ ∀ m ∈ fresh, sys.broker.nextMember ≤ m ∧ m < sys'.broker.nextMember

namespace Aside

theorem refl (sys : System) : sys.Aside sys where
  committed _ _ := rfl
  members _ := rfl
  current h := h
  partitions _ _ h := h
  nextMember := Nat.le_refl _
  kept _ w h := ⟨w, h, .refl w⟩
  fresh _ w h := .inl ⟨w, h, .refl w⟩
  numbers := ⟨[], (List.append_nil _).symm, .nil, nofun⟩

theorem trans {a b c : System} (h : a.Aside b) (h' : b.Aside c) : a.Aside c where
  committed name tp := (h'.committed name tp).trans (h.committed name tp)
  members name := (h'.members name).trans (h.members name)
  current hc := h'.current (h.current hc)
  partitions topic count hp := h'.partitions topic count (h.partitions topic count hp)
  nextMember := Nat.le_trans h.nextMember h'.nextMember
  kept i w hw := by
    obtain ⟨w₁, hw₁, hk₁⟩ := h.kept i w hw
    obtain ⟨w₂, hw₂, hk₂⟩ := h'.kept i w₁ hw₁
    exact ⟨w₂, hw₂, hk₁.trans hk₂⟩
  fresh i w₂ hw₂ := by
    rcases h'.fresh i w₂ hw₂ with ⟨w₁, hw₁, hk₂⟩ | hnew
    · rcases h.fresh i w₁ hw₁ with ⟨w, hw, hk₁⟩ | hnew
      · exact .inl ⟨w, hw, hk₁.trans hk₂⟩
      · exact .inr (hnew.kept hk₂)
    · exact .inr hnew
  numbers := by
    obtain ⟨first, hfirst, hnodup, hbounds⟩ := h.numbers
    obtain ⟨second, hsecond, hnodup', hbounds'⟩ := h'.numbers
    refine ⟨first ++ second, by rw [hsecond, hfirst, List.append_assoc], ?_, ?_⟩
    · -- The first numbers are used up when the second ones are given out.
      refine List.nodup_append.mpr ⟨hnodup, hnodup', fun m hm n hn hmn => ?_⟩
      have := (hbounds m hm).2
      have := (hbounds' n hn).1
      omega
    · intro m hm
      have hle := h.nextMember
      have hle' := h'.nextMember
      rcases List.mem_append.mp hm with hm | hm
      · have := hbounds m hm
        omega
      · have := hbounds' m hm
        omega

/-- Only the broker changes, and there at most the number of the next member of what is seen
here. -/
theorem of_broker {sys sys' : System} (hworkers : sys'.workers = sys.workers)
    (hgroups : sys'.broker.groups = sys.broker.groups)
    (hparts : sys'.broker.partitionsOf = sys.broker.partitionsOf)
    (hnext : sys.broker.nextMember ≤ sys'.broker.nextMember) : sys.Aside sys' where
  committed name tp := by
    rw [Broker.committed, Broker.committed, Broker.group, Broker.group, hgroups]
  members name := by rw [Broker.group, Broker.group, hgroups]
  current hc := hc.congr hgroups hparts
  partitions topic count hp := by rw [hparts, hp]
  nextMember := hnext
  kept i w hw := ⟨w, by rw [hworkers, hw], .refl w⟩
  fresh i w hw := .inl ⟨w, by rw [← hworkers, hw], .refl w⟩
  numbers := ⟨[], by rw [hworkers, List.append_nil], .nil, nofun⟩

end Aside

/-! ### Turns that only ask -/

/-- A step that leaves the worker where it is and does not touch the broker. -/
def Asks (step : Turn → Turn) : Prop :=
  ∀ t : Turn, (step t).broker = t.broker ∧ t.worker.Kept (step t).worker

theorem asks_requestStop : Asks Turn.requestStop :=
  fun t => ⟨rfl, rfl, rfl, rfl, rfl, t.isTerminal_requestStop, t.announces_requestStop.final,
    t.announces_requestStop.inOrder⟩

theorem asks_abandon : Asks Turn.abandon :=
  fun _ => ⟨rfl, rfl, rfl, rfl, rfl, rfl, fun _ => rfl, id⟩

theorem Asks.turn {step : Turn → Turn} (hstep : Asks step) (sys : System) (place : Nat) :
    sys.Aside (sys.turn place step) := by
  cases hw : sys.workers[place]? with
  | none =>
    rw [turn_of_none hw]
    exact .refl sys
  | some w =>
    obtain ⟨hbroker, hkept⟩ := hstep ⟨w, sys.broker, sys.samples⟩
    have hturn : (sys.turn place step).broker = sys.broker := by
      rw [turn_eq hw]
      exact hbroker
    refine
      { committed := fun _ _ => by rw [hturn]
        members := fun _ => by rw [hturn]
        current := fun hc => by rw [hturn]; exact hc
        partitions := fun _ _ hp => by rw [hturn]; exact hp
        nextMember := Nat.le_of_eq (by rw [hturn])
        kept := fun i v hv => ?_
        fresh := fun i v hv => ?_
        numbers := ⟨[], ?_, .nil, nofun⟩ }
    · rw [workers_turn hw]
      by_cases hi : i = place
      · subst hi
        obtain rfl : w = v := Option.some.inj (hw.symm.trans hv)
        exact ⟨_, if_pos rfl, hkept⟩
      · exact ⟨v, by rw [if_neg hi, hv], .refl v⟩
    · rw [workers_turn hw] at hv
      split at hv
      next hi =>
        subst hi
        obtain rfl := Option.some.inj hv
        exact .inl ⟨w, hw, hkept⟩
      next => exact .inl ⟨v, hv, .refl v⟩
    · rw [List.append_nil]
      exact members_turn hw (congrArg Session.member hkept.session)

theorem Asks.turns {step : Turn → Turn} (hstep : Asks step) (places : List Nat) (sys : System) :
    sys.Aside (sys.turns places step) := by
  induction places generalizing sys with
  | nil => exact .refl sys
  | cons place rest ih => exact (hstep.turn sys place).trans (ih (sys.turn place step))

/-! ### Submitting -/

/-- Submitting a registration happens aside: its workers are new, and so are their numbers. -/
theorem aside_submit {D H : Type} (r : Registration D H) {sys : System}
    (hs : ∀ w ∈ sys.workers, w.Settled) : sys.Aside (sys.submit r).2 := by
  cases he : sys.engine with
  | none =>
    simp only [submit, he]
    exact .refl sys
  | some e =>
    have hsubmits := submits r hs he
    generalize sys.submit r = result at hsubmits
    cases hsubmits with
    | duplicate _ _ => exact .refl sys
    | untaken _ hnext => exact .of_broker rfl rfl rfl hnext
    | rejected _ => exact .of_broker rfl rfl rfl (Nat.le_refl _)
    | @launched listener consumer sessions calls _ _ _ hunjoined hnumbers =>
      have hnew : ∀ w ∈ workersFor r listener consumer sessions, w.New := by
        intro w hw
        obtain ⟨id, s, hs, rfl⟩ := mem_workersFor r listener consumer hw
        exact ⟨rfl, rfl, rfl, List.pairwise_singleton _ _, (hunjoined s hs).coherent rfl⟩
      refine
        { committed := fun _ _ => rfl
          members := fun _ => rfl
          current := fun hc => hc.congr rfl rfl
          partitions := fun _ _ hp => hp
          nextMember := Nat.le_add_right _ _
          kept := fun i w hw => ⟨w, ?_, .refl w⟩
          fresh := fun i w hw => ?_
          numbers := ⟨List.range' sys.broker.nextMember listener.maxInstances, ?_, ?_, ?_⟩ }
      · -- New workers come after the others, which stay at their places.
        exact (List.getElem?_append_left (List.getElem?_eq_some_iff.mp hw).1).trans hw
      · by_cases hi : i < sys.workers.length
        · exact .inl ⟨w, (List.getElem?_append_left hi).symm.trans hw, .refl w⟩
        · have hlater := (List.getElem?_append_right (Nat.le_of_not_lt hi)).symm.trans hw
          exact .inr (hnew w (List.mem_of_getElem? hlater))
      · show (sys.workers ++ workersFor r listener consumer sessions).map _ = _
        rw [List.map_append, members_workersFor, hnumbers]
      · exact List.nodup_range'
      · intro m hm
        rw [List.mem_range'_1] at hm
        exact hm

/-! ### Topics, stops and engines -/

theorem aside_createTopic (sys : System) (topic : String) (description : TopicDescription) :
    sys.Aside { sys with broker := sys.broker.createTopic topic description } where
  committed name tp := Broker.committed_createTopic sys.broker topic description name tp
  members name := Broker.members_createTopic sys.broker topic description name
  current hc := hc.createTopic topic description
  partitions _ _ hp := Broker.partitionsOf_createTopic sys.broker topic description hp
  nextMember := Nat.le_of_eq (Broker.nextMember_createTopic sys.broker topic description).symm
  kept _ w hw := ⟨w, hw, .refl w⟩
  fresh _ w hw := .inl ⟨w, hw, .refl w⟩
  numbers := ⟨[], (List.append_nil _).symm, .nil, nofun⟩

theorem aside_requestStop (sys : System) : sys.Aside sys.requestStop := by
  rw [requestStop]
  split
  · exact asks_requestStop.turns _ sys
  · exact .refl sys

theorem aside_dropEngine (sys : System) : sys.Aside sys.dropEngine := by
  rw [dropEngine]
  split
  · exact (asks_abandon.turns _ sys).trans (.of_broker rfl rfl rfl (Nat.le_refl _))
  · exact .refl sys

end System

end StreamDispatch
