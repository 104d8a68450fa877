import StreamDispatch.Proofs.Config.EntryRules

/-!
# The first thing that is wrong with settings

Settings are checked in one walk: over the brokers, then the listeners, the consumers and the
topics, each by their names. The walk ends at the first thing that is wrong. What can be wrong is
said here without it. A *place* (`StreamDispatch.Settings.Place`) is a broker or an entry, places
are in order, and at each of them settings have a fault or not
(`StreamDispatch.Settings.Faulty`), whatever is wrong elsewhere. The walk then reports the fault
at the least faulty place (`StreamDispatch.Settings.reports_check`).

Topics are the part where that is not plain. Two entries may be for one topic of the broker, and
then they have to expect the same of it. An entry is at fault if *some* earlier entry for its
topic expects something else; but the walk compares it with the *latest* earlier one only, which
it finds in a table that is overwritten at each step. What makes this enough is the invariant that
the earlier entries for one topic all agree, which holds as long as the walk goes on
(`StreamDispatch.Settings.reports_checkTopics`).

## Main definitions

* `StreamDispatch.Settings.Consistent`: settings that make sense.
* `StreamDispatch.Settings.Place`, `StreamDispatch.Settings.Place.Before`: places and their order.
* `StreamDispatch.Settings.Faulty`: what is wrong at a place, and how it is reported.
* `StreamDispatch.Settings.Reports`: a check that reports the first of some faults.

## Main statements

* `StreamDispatch.Settings.consistent_iff`: settings make sense exactly if nothing is wrong at any
  place.
* `StreamDispatch.Settings.check_verdict`: what the check of settings comes to.
-/

namespace StreamDispatch

namespace Settings

/-! ### Places -/

/-- The entries are looked at kind by kind. -/
def turnOf : ConfigKind → Nat
  | .listener => 1
  | .consumer => 2
  | .topic => 3

theorem turnOf_inj {kind kind' : ConfigKind} (h : turnOf kind = turnOf kind') : kind = kind' := by
  cases kind <;> cases kind' <;> first | rfl | cases h

/-- Where something can be wrong: at a broker, or at an entry of some kind. -/
inductive Place
  | broker (index : Nat)
  | entry (kind : ConfigKind) (name : String)

namespace Place

/-- How a place is called in reports. -/
def path : Place → String
  | .broker index => s!"brokers[{index}]"
  | .entry kind name => s!"{kind.name}s.{name}"

/-- Brokers come first, then listeners, consumers and topics. -/
def part : Place → Nat
  | .broker _ => 0
  | .entry kind _ => turnOf kind

/-- **The order of places**: by parts, and within a part by index or name. -/
inductive Before : Place → Place → Prop
  | part {p q : Place} (lt : p.part < q.part) : Before p q
  | index {i j : Nat} (lt : i < j) : Before (.broker i) (.broker j)
  | name {kind : ConfigKind} {a b : String} (lt : compare a b = .lt) :
      Before (.entry kind a) (.entry kind b)

theorem Before.asymm {p q : Place} (h : p.Before q) : ¬ q.Before p := by
  rintro (lt' | lt' | lt')
  · rcases h with lt | _ | _
    · exact Nat.lt_asymm lt lt'
    · exact Nat.lt_irrefl _ lt'
    · exact Nat.lt_irrefl _ lt'
  · rcases h with lt | lt | _
    · exact Nat.lt_irrefl _ lt
    · exact Nat.lt_asymm lt lt'
  · rcases h with lt | _ | lt
    · exact Nat.lt_irrefl _ lt
    · rw [Std.OrientedCmp.gt_of_lt lt] at lt'
      cases lt'

theorem Before.irrefl (p : Place) : ¬ p.Before p := fun h => h.asymm h

/-- Of two places that are not the same, one comes first. -/
theorem before_trichotomy (p q : Place) : p.Before q ∨ p = q ∨ q.Before p := by
  rcases Nat.lt_trichotomy p.part q.part with hlt | heq | hlt
  · exact .inl (.part hlt)
  · rcases p with i | ⟨kind, a⟩ <;> rcases q with j | ⟨kind', b⟩
    · rcases Nat.lt_trichotomy i j with hlt | rfl | hlt
      · exact .inl (.index hlt)
      · exact .inr (.inl rfl)
      · exact .inr (.inr (.index hlt))
    · cases kind' <;> cases heq
    · cases kind <;> cases heq
    · obtain rfl := turnOf_inj heq
      cases hname : compare a b with
      | lt => exact .inl (.name hname)
      | eq => exact .inr (.inl (by rw [Std.LawfulEqCmp.eq_of_compare hname]))
      | gt => exact .inr (.inr (.name (Std.OrientedCmp.lt_of_gt hname)))
  · exact .inr (.inr (.part hlt))

end Place

/-! ### What can be wrong -/

/-- The entries for a topic of the broker whose names come before a name, in order. -/
def earlierFor (s : Settings) (topic name : String) : List (String × TopicExpectation) :=
  s.topics.entries.filter fun e => e.2.topicName = topic ∧ compare e.1 name = .lt

/-- **What is wrong at a place, and how it is reported.** A listener or a topic can be wrong in
two ways, and breaking a rule counts first. Two entries for one topic of the broker that expect
different things are the fault of the one that comes later; its report names the latest of the
earlier ones. -/
inductive Faulty (s : Settings) : Place → Error → Prop
  | broker {index : Nat} {address : String} (here : s.brokers[index]? = some address)
      (blank : isBlank address = true) :
      s.Faulty (.broker index) (.invalidField (Place.broker index).path .blankBroker)
  | listenerRules {name : String} {c : ListenerConfig} (here : s.listeners.get? name = some c)
      (broken : c.violations ≠ []) :
      s.Faulty (.entry .listener name)
        (.invalidField s!"{(Place.entry .listener name).path}.{violatedFields c.violations}"
          (.violations c.violations))
  | metadataField {name field : String} {c : ListenerConfig}
      (here : s.listeners.get? name = some c) (rules : c.violations = [])
      (listed : field ∈ c.metadataFields) (blank : isBlank field = true) :
      s.Faulty (.entry .listener name)
        (.invalidField s!"{(Place.entry .listener name).path}.metadata_fields"
          .blankMetadataField)
  | consumerRules {name : String} {c : ConsumerConfig} (here : s.consumers.get? name = some c)
      (broken : c.violations ≠ []) :
      s.Faulty (.entry .consumer name)
        (.invalidField s!"{(Place.entry .consumer name).path}.{violatedFields c.violations}"
          (.violations c.violations))
  | topicRules {name : String} {t : TopicExpectation} (here : s.topics.get? name = some t)
      (broken : t.violations ≠ []) :
      s.Faulty (.entry .topic name)
        (.invalidField s!"{(Place.entry .topic name).path}.{violatedFields t.violations}"
          (.violations t.violations))
  | conflict {name other : String} {t u : TopicExpectation} (here : s.topics.get? name = some t)
      (rules : t.violations = []) (differs : ∃ e ∈ s.earlierFor t.topicName name, e.2 ≠ t)
      (latest : (s.earlierFor t.topicName name).getLast? = some (other, u)) :
      s.Faulty (.entry .topic name)
        (.invalidField (Place.entry .topic name).path (.conflictingTopic t.topicName other))

/-- At one place there is one fault. -/
theorem Faulty.unique {s : Settings} {p : Place} {e e' : Error} (h : s.Faulty p e)
    (h' : s.Faulty p e') : e = e' := by
  cases h with
  | broker => cases h' with
    | broker => rfl
  | listenerRules here broken => cases h' with
    | listenerRules here' =>
      obtain rfl := Option.some.inj (here.symm.trans here')
      rfl
    | metadataField here' rules =>
      obtain rfl := Option.some.inj (here.symm.trans here')
      exact absurd rules broken
  | metadataField here rules => cases h' with
    | listenerRules here' broken =>
      obtain rfl := Option.some.inj (here.symm.trans here')
      exact absurd rules broken
    | metadataField => rfl
  | consumerRules here => cases h' with
    | consumerRules here' =>
      obtain rfl := Option.some.inj (here.symm.trans here')
      rfl
  | topicRules here broken => cases h' with
    | topicRules here' =>
      obtain rfl := Option.some.inj (here.symm.trans here')
      rfl
    | conflict here' rules =>
      obtain rfl := Option.some.inj (here.symm.trans here')
      exact absurd rules broken
  | conflict here rules differs latest => cases h' with
    | topicRules here' broken =>
      obtain rfl := Option.some.inj (here.symm.trans here')
      exact absurd rules broken
    | conflict here' rules' differs' latest' =>
      obtain rfl := Option.some.inj (here.symm.trans here')
      obtain ⟨rfl, -⟩ := Prod.mk.inj (Option.some.inj (latest.symm.trans latest'))
      rfl

/-- **Settings that make sense.** -/
structure Consistent (s : Settings) : Prop where
  brokers : ∀ address ∈ s.brokers, isBlank address = false
  listeners : ∀ name c, s.listeners.get? name = some c →
    1 ≤ c.pollTimeoutMs ∧ 1 ≤ c.maxInstances ∧ 1 ≤ c.maxPollRecords ∧
      ∀ field ∈ c.metadataFields, isBlank field = false
  consumers : ∀ name c, s.consumers.get? name = some c → c.groupId ≠ "" ∧ c.clientIdPrefix ≠ ""
  topics : ∀ name t, s.topics.get? name = some t → t.topicName ≠ "" ∧
    (∀ n, t.partitionCount = some n → 1 ≤ n) ∧ ∀ n, t.replicationFactor = some n → 1 ≤ n
  aliases : ∀ name name' t t', s.topics.get? name = some t → s.topics.get? name' = some t' →
    t.topicName = t'.topicName → t = t'

/-! ### Reporting the first fault -/

/-- **A check reports the first of some faults**: it passes if there are none, and else it fails
with a fault at a place before which there is none. -/
def Reports (x : Except Error Unit) (Fault : Place → Error → Prop) : Prop :=
  (x = .ok () ∧ ∀ p e, ¬ Fault p e) ∨
    ∃ p e, x = .error e ∧ Fault p e ∧ ∀ q e', Fault q e' → ¬ q.Before p

namespace Reports

variable {x y : Except Error Unit} {Fault More : Place → Error → Prop}

/-- A check at a single place. -/
theorem single (x : Except Error Unit) (p : Place) :
    Reports x fun q e => q = p ∧ x = .error e := by
  rcases x with e | ⟨⟩
  · refine .inr ⟨p, e, rfl, ⟨rfl, rfl⟩, ?_⟩
    rintro q e' ⟨rfl, -⟩
    exact Place.Before.irrefl q
  · exact .inl ⟨rfl, fun p e h => by cases h.2⟩

/-- **Two checks in turn**, the second of which is about later places. It only has to report the
first of its faults if it is its turn at all. -/
theorem andThen (hx : Reports x Fault) (hy : x = .ok () → Reports y More)
    (hlater : ∀ p e q e', Fault p e → More q e' → p.Before q) :
    Reports (x >>= fun _ => y) fun p e => Fault p e ∨ More p e := by
  rcases hx with ⟨rfl, hnone⟩ | ⟨p, e, rfl, hfault, hfirst⟩
  · rcases hy rfl with ⟨rfl, hno⟩ | ⟨p, e, rfl, hmore, hfirst⟩
    · exact .inl ⟨rfl, fun p e h => h.elim (hnone p e) (hno p e)⟩
    · exact .inr ⟨p, e, rfl, .inr hmore, fun q e' h =>
        h.elim (fun h => absurd h (hnone q e')) (hfirst q e')⟩
  · exact .inr ⟨p, e, rfl, .inl hfault, fun q e' h =>
      h.elim (hfirst q e') fun h => (hlater p e q e' hfault h).asymm⟩

theorem congr (h : Reports x Fault) (hiff : ∀ p e, Fault p e ↔ More p e) : Reports x More := by
  obtain rfl : Fault = More := funext fun p => funext fun e => propext (hiff p e)
  exact h

/-- A check that reports the first fault passes exactly if there is none. -/
theorem eq_ok_iff (h : Reports x Fault) : x = .ok () ↔ ∀ p e, ¬ Fault p e := by
  rcases h with ⟨rfl, hnone⟩ | ⟨p, e, rfl, hfault, -⟩
  · exact iff_of_true rfl hnone
  · exact iff_of_false (by rintro ⟨⟩) fun hnone => hnone p e hfault

/-- What it fails with is the fault at the first place, if there is one fault at each. -/
theorem eq_error_iff (h : Reports x Fault)
    (hunique : ∀ p e e', Fault p e → Fault p e' → e = e') (e : Error) :
    x = .error e ↔ ∃ p, Fault p e ∧ ∀ q e', Fault q e' → ¬ q.Before p := by
  constructor
  · rintro rfl
    rcases h with ⟨hok, -⟩ | ⟨p, _, heq, hfault, hfirst⟩
    · cases hok
    · cases heq
      exact ⟨p, hfault, hfirst⟩
  · rintro ⟨p, hfault, hfirst⟩
    rcases h with ⟨-, hnone⟩ | ⟨q, e', rfl, hfault', hfirst'⟩
    · exact absurd hfault (hnone p e)
    · rcases p.before_trichotomy q with hbefore | rfl | hbefore
      · exact absurd hbefore (hfirst' p e hfault)
      · rw [hunique p e e' hfault hfault']
      · exact absurd hbefore (hfirst q e' hfault')

end Reports

/-! ### Brokers, listeners and consumers -/

theorem reports_checkBrokers (addresses : List String) (index : Nat) :
    Reports (checkBrokers index addresses) fun p e =>
      ∃ i address, addresses[i]? = some address ∧ isBlank address = true ∧
        p = .broker (index + i) ∧ e = .invalidField (Place.broker (index + i)).path .blankBroker := by
  induction addresses generalizing index with
  | nil => exact .inl ⟨rfl, by rintro p e ⟨i, address, hi, -⟩; cases hi⟩
  | cons first rest ih =>
    rw [checkBrokers]
    split
    next hblank =>
      refine .inr ⟨.broker index, _, rfl, ⟨0, first, rfl, hblank, rfl, rfl⟩, ?_⟩
      rintro q e' ⟨i, address, -, -, rfl, -⟩ hbefore
      rcases hbefore with lt | lt
      · exact Nat.lt_irrefl _ lt
      · omega
    next hblank =>
      refine (ih (index + 1)).congr fun p e => ?_
      constructor
      · rintro ⟨i, address, hi, hfault⟩
        refine ⟨i + 1, address, hi, ?_⟩
        rwa [show index + (i + 1) = index + 1 + i by omega]
      · rintro ⟨i, address, hi, hfault⟩
        rcases i with _ | i
        · cases hi
          exact absurd hfault.1 hblank
        · refine ⟨i, address, hi, ?_⟩
          rwa [show index + 1 + i = index + (i + 1) by omega]

/-- Entries of one kind are checked by their names. -/
theorem reports_checkEntries {α : Type} {check : String → α → Except Error Unit}
    (kind : ConfigKind) {entries : List (String × α)} (h : SortedEntries entries) :
    Reports (checkEntries check entries) fun p e =>
      ∃ name a, (name, a) ∈ entries ∧ p = .entry kind name ∧ check name a = .error e := by
  induction entries with
  | nil => exact .inl ⟨rfl, by rintro p e ⟨_, _, hmem, -⟩; cases hmem⟩
  | cons first rest ih =>
    obtain ⟨name, a⟩ := first
    obtain ⟨hfirst, hrest⟩ := List.pairwise_cons.mp h
    refine ((Reports.single (check name a) (.entry kind name)).andThen (fun _ => ih hrest) ?_).congr
      fun p e => ?_
    · rintro p e q e' ⟨rfl, -⟩ ⟨name', a', hmem, rfl, -⟩
      exact .name (hfirst _ hmem)
    · constructor
      · rintro (⟨rfl, herror⟩ | ⟨name', a', hmem, hfault⟩)
        · exact ⟨name, a, List.mem_cons_self, rfl, herror⟩
        · exact ⟨name', a', List.mem_cons_of_mem _ hmem, hfault⟩
      · rintro ⟨name', a', hmem, rfl, herror⟩
        rcases List.mem_cons.mp hmem with heq | hmem
        · cases heq
          exact .inl ⟨rfl, herror⟩
        · exact .inr ⟨name', a', hmem, rfl, herror⟩

theorem checkViolations_eq_error_iff {path : String} {broken : List Violation} {e : Error} :
    checkViolations path broken = .error e ↔
      broken ≠ [] ∧ e = .invalidField s!"{path}.{violatedFields broken}" (.violations broken) := by
  cases broken <;> simp [checkViolations, eq_comm]

theorem checkListener_eq_error_iff {s : Settings} {name : String} {c : ListenerConfig}
    (here : s.listeners.get? name = some c) {e : Error} :
    checkListener name c = .error e ↔ s.Faulty (.entry .listener name) e := by
  constructor
  · intro h
    by_cases hrules : c.violations = []
    · rw [checkListener, checkViolations_eq_ok_iff.mpr hrules] at h
      simp only [bind, Except.bind] at h
      split at h
      next hblank =>
        obtain ⟨field, hlisted, hfield⟩ := List.any_eq_true.mp hblank
        cases h
        exact .metadataField here hrules hlisted hfield
      next => cases h
    · rw [checkListener, checkViolations_eq_error_iff.mpr ⟨hrules, rfl⟩] at h
      cases h
      exact .listenerRules here hrules
  · rintro (_ | ⟨here', hbroken⟩ | ⟨here', hrules, hlisted, hblank⟩) <;>
      obtain rfl := Option.some.inj (here.symm.trans here')
    · rw [checkListener, checkViolations_eq_error_iff.mpr ⟨hbroken, rfl⟩]
      rfl
    · rw [checkListener, checkViolations_eq_ok_iff.mpr hrules]
      exact if_pos (List.any_eq_true.mpr ⟨_, hlisted, hblank⟩)

theorem checkConsumer_eq_error_iff {s : Settings} {name : String} {c : ConsumerConfig}
    (here : s.consumers.get? name = some c) {e : Error} :
    checkConsumer name c = .error e ↔ s.Faulty (.entry .consumer name) e := by
  rw [checkConsumer, checkViolations_eq_error_iff]
  constructor
  · rintro ⟨hbroken, rfl⟩
    exact .consumerRules here hbroken
  · rintro (_ | _ | _ | ⟨here', hbroken⟩)
    obtain rfl := Option.some.inj (here.symm.trans here')
    exact ⟨hbroken, rfl⟩

/-! ### Topics -/

section Topics

variable {s : Settings} {before after : List (String × TopicExpectation)} {name : String}
  {t : TopicExpectation}

/-- The names in the walk over the topics: those before an entry, and those after it. -/
theorem topics_in_order (h : s.topics.entries = before ++ (name, t) :: after) :
    (∀ e ∈ before, compare e.1 name = .lt) ∧ ∀ e ∈ after, compare name e.1 = .lt := by
  have hsorted := s.topics.sorted
  rw [h] at hsorted
  obtain ⟨-, hafter, hcross⟩ := List.pairwise_append.mp hsorted
  exact ⟨fun e he => hcross e he _ List.mem_cons_self, (List.pairwise_cons.mp hafter).1⟩

/-- The earlier entries are those that the walk has passed. -/
theorem earlierFor_eq (h : s.topics.entries = before ++ (name, t) :: after) (topic : String) :
    s.earlierFor topic name = before.filter fun e => e.2.topicName = topic := by
  obtain ⟨hbefore, hafter⟩ := topics_in_order h
  have hpassed : (before.filter fun e => e.2.topicName = topic ∧ compare e.1 name = .lt) =
      before.filter fun e => e.2.topicName = topic :=
    List.filter_congr fun e he => by simp [hbefore e he]
  have hleft : ((name, t) :: after).filter
      (fun e => e.2.topicName = topic ∧ compare e.1 name = .lt) = [] := by
    refine List.filter_eq_nil_iff.mpr fun e he hlt => ?_
    have hbefore := (of_decide_eq_true hlt).2
    rcases List.mem_cons.mp he with rfl | he
    · simp [Std.ReflCmp.compare_self] at hbefore
    · simp [Std.OrientedCmp.gt_of_lt (hafter e he)] at hbefore
  rw [earlierFor, h, List.filter_append, hpassed, hleft, List.append_nil]

/-- The faults of some topics. -/
def FaultyAmong (s : Settings) (entries : List (String × TopicExpectation)) (p : Place)
    (e : Error) : Prop :=
  (∃ entry ∈ entries, p = .entry .topic entry.1) ∧ s.Faulty p e

/-- A fault of the topic whose turn it is comes first. -/
theorem reports_here (h : s.topics.entries = before ++ (name, t) :: after) {e : Error}
    (hfault : s.Faulty (.entry .topic name) e) :
    Reports (.error e) (s.FaultyAmong ((name, t) :: after)) := by
  refine .inr ⟨_, e, rfl, ⟨⟨_, List.mem_cons_self, rfl⟩, hfault⟩, ?_⟩
  rintro q e' ⟨⟨entry, hentry, rfl⟩, -⟩
  rcases List.mem_cons.mp hentry with rfl | hentry
  · exact Place.Before.irrefl _
  · exact (Place.Before.name ((topics_in_order h).2 entry hentry)).asymm

/-- A topic that obeys its rules and agrees with the earlier ones is passed over. -/
theorem reports_later (hhere : s.topics.get? name = some t) (hrules : t.violations = [])
    (hsame : ∀ e ∈ s.earlierFor t.topicName name, e.2 = t) {x : Except Error Unit}
    (hx : Reports x (s.FaultyAmong after)) : Reports x (s.FaultyAmong ((name, t) :: after)) := by
  refine hx.congr fun p e => ?_
  constructor
  · rintro ⟨⟨entry, hentry, rfl⟩, hfault⟩
    exact ⟨⟨entry, List.mem_cons_of_mem _ hentry, rfl⟩, hfault⟩
  · rintro ⟨⟨entry, hentry, rfl⟩, hfault⟩
    rcases List.mem_cons.mp hentry with rfl | hentry
    · rcases hfault with _ | _ | _ | _ | ⟨hhere', hbroken⟩ | ⟨hhere', -, ⟨entry, hentry, hne⟩, -⟩ <;>
        obtain rfl := Option.some.inj (hhere.symm.trans hhere')
      · exact absurd hrules hbroken
      · exact absurd (hsame entry hentry) hne
    · exact ⟨⟨entry, hentry, rfl⟩, hfault⟩

/-- **The walk over the topics** reports the first fault among those that are left, provided that
its table has the latest of those that it has passed for each topic of the broker, and that they
agree. -/
theorem reports_checkTopics (passed : List (String × TopicExpectation))
    {seen : Dict String (String × TopicExpectation)} (hentries : s.topics.entries = passed ++ after)
    (hseen : ∀ topic, seen.get? topic =
      (passed.filter fun e => e.2.topicName = topic).getLast?)
    (hagree : ∀ e ∈ passed, ∀ e' ∈ passed, e.2.topicName = e'.2.topicName → e.2 = e'.2) :
    Reports (checkTopics after seen) (s.FaultyAmong after) := by
  induction after generalizing passed seen with
  | nil => exact .inl ⟨rfl, by rintro p e ⟨⟨_, hmem, -⟩, -⟩; cases hmem⟩
  | cons first after ih =>
    obtain ⟨name, t⟩ := first
    have hhere : s.topics.get? name = some t :=
      s.topics.mem_entries_iff.mp (hentries ▸ List.mem_append_cons_self)
    have hearlier := earlierFor_eq hentries t.topicName
    have hlatest : seen.get? t.topicName = (s.earlierFor t.topicName name).getLast? := by
      rw [hearlier, hseen]
    -- If the entry agrees with all that were passed, then so do all of them with the entry.
    have hgoesOn : t.violations = [] → (∀ e ∈ s.earlierFor t.topicName name, e.2 = t) →
        Reports (checkTopics after (seen.insert t.topicName (name, t)))
          (s.FaultyAmong ((name, t) :: after)) := by
      intro hrules hsame
      refine reports_later hhere hrules hsame (ih (passed ++ [(name, t)]) ?_ ?_ ?_)
      · rw [hentries, List.append_assoc, List.singleton_append]
      · intro topic
        rw [Dict.get?_insert, List.filter_append, hseen]
        by_cases htopic : topic = t.topicName
        · simp [htopic]
        · simp [htopic, Ne.symm htopic]
      · have hwith : ∀ e ∈ passed, e.2.topicName = t.topicName → e.2 = t := fun e he htopic =>
          hsame e (hearlier ▸ List.mem_filter.mpr ⟨he, decide_eq_true htopic⟩)
        intro e he e' he' htopic
        rcases List.mem_append.mp he with he | he <;> rcases List.mem_append.mp he' with he' | he'
        · exact hagree e he e' he' htopic
        · obtain rfl := List.mem_singleton.mp he'
          exact hwith e he htopic
        · obtain rfl := List.mem_singleton.mp he
          exact (hwith e' he' htopic.symm).symm
        · rw [List.mem_singleton.mp he, List.mem_singleton.mp he']
    rw [checkTopics]
    by_cases hrules : t.violations = []
    · rw [checkViolations_eq_ok_iff.mpr hrules]
      simp only [bind, Except.bind]
      split
      next other earlier hfound =>
        rw [hlatest] at hfound
        have hmem := List.mem_of_getLast? hfound
        split
        next hne => exact reports_here hentries (.conflict hhere hrules ⟨_, hmem, hne⟩ hfound)
        next heq =>
          -- The latest one stands for all of them.
          obtain rfl : earlier = t := Decidable.of_not_not heq
          rw [hearlier] at hmem
          obtain ⟨hmem, htopic⟩ := List.mem_filter.mp hmem
          refine hgoesOn hrules fun e he => ?_
          obtain ⟨he, htopic'⟩ := List.mem_filter.mp (hearlier ▸ he)
          exact hagree e he _ hmem (of_decide_eq_true htopic')
      next hnone =>
        rw [hlatest, List.getLast?_eq_none_iff] at hnone
        exact hgoesOn hrules fun e he => absurd (hnone ▸ he) List.not_mem_nil
    · have hfault := reports_here hentries (.topicRules hhere hrules)
      rw [checkViolations.eq_def]
      split
      next hnil => exact absurd hnil hrules
      next => exact hfault

end Topics

/-! ### All parts -/

section Parts

variable {s : Settings} {x y : Except Error Unit} {n : Nat}

/-- The faults of one part. -/
def FaultyIn (s : Settings) (n : Nat) (p : Place) (e : Error) : Prop := p.part = n ∧ s.Faulty p e

/-- The faults from some part on. -/
def FaultyFrom (s : Settings) (n : Nat) (p : Place) (e : Error) : Prop := n ≤ p.part ∧ s.Faulty p e

/-- A part, and then the parts after it. -/
theorem Reports.followedBy (hx : Reports x (s.FaultyIn n)) (hy : Reports y (s.FaultyFrom (n + 1))) :
    Reports (x >>= fun _ => y) (s.FaultyFrom n) := by
  refine (hx.andThen (fun _ => hy) ?_).congr fun p e => ?_
  · rintro p e q e' ⟨rfl, -⟩ ⟨hlater, -⟩
    exact .part hlater
  · constructor
    · rintro (⟨rfl, hfault⟩ | ⟨hlater, hfault⟩)
      · exact ⟨Nat.le_refl _, hfault⟩
      · exact ⟨Nat.le_of_succ_le hlater, hfault⟩
    · rintro ⟨hle, hfault⟩
      rcases Nat.eq_or_lt_of_le hle with rfl | hlater
      · exact .inl ⟨rfl, hfault⟩
      · exact .inr ⟨hlater, hfault⟩

theorem reports_brokers (s : Settings) : Reports (checkBrokers 0 s.brokers) (s.FaultyIn 0) := by
  refine (reports_checkBrokers s.brokers 0).congr fun p e => ?_
  constructor
  · rintro ⟨i, address, here, hblank, rfl, rfl⟩
    rw [Nat.zero_add]
    exact ⟨rfl, .broker here hblank⟩
  · rintro ⟨hpart, hfault⟩
    rcases hfault with ⟨here, hblank⟩ | _ | _ | _ | _ | _
    · refine ⟨_, _, here, hblank, ?_⟩
      rw [Nat.zero_add]
      exact ⟨rfl, rfl⟩
    all_goals cases hpart

/-- A part whose entries are checked each by itself. -/
theorem reports_entries {α : Type} {check : String → α → Except Error Unit}
    {entries : Dict String α} (kind : ConfigKind)
    (hcheck : ∀ name a e, entries.get? name = some a →
      (check name a = .error e ↔ s.Faulty (.entry kind name) e))
    (hhere : ∀ p e, s.FaultyIn (turnOf kind) p e →
      ∃ name a, entries.get? name = some a ∧ p = .entry kind name) :
    Reports (checkEntries check entries.entries) (s.FaultyIn (turnOf kind)) := by
  refine (reports_checkEntries kind entries.sorted).congr fun p e => ?_
  constructor
  · rintro ⟨name, a, hmem, rfl, h⟩
    exact ⟨rfl, (hcheck name a e (entries.mem_entries_iff.mp hmem)).mp h⟩
  · intro h
    obtain ⟨name, a, here, rfl⟩ := hhere p e h
    exact ⟨name, a, entries.mem_entries_iff.mpr here, rfl, (hcheck name a e here).mpr h.2⟩

theorem reports_listeners (s : Settings) :
    Reports (checkEntries checkListener s.listeners.entries) (s.FaultyIn 1) := by
  refine reports_entries .listener (fun _ _ _ here => checkListener_eq_error_iff here) ?_
  rintro p e ⟨hpart, _ | ⟨here, _⟩ | ⟨here, _, _, _⟩ | _ | _ | _⟩
  case listenerRules | metadataField => exact ⟨_, _, here, rfl⟩
  all_goals cases hpart

theorem reports_consumers (s : Settings) :
    Reports (checkEntries checkConsumer s.consumers.entries) (s.FaultyIn 2) := by
  refine reports_entries .consumer (fun _ _ _ here => checkConsumer_eq_error_iff here) ?_
  rintro p e ⟨hpart, _ | _ | _ | ⟨here, _⟩ | _ | _⟩
  case consumerRules => exact ⟨_, _, here, rfl⟩
  all_goals cases hpart

theorem reports_topics (s : Settings) :
    Reports (checkTopics s.topics.entries ∅) (s.FaultyFrom 3) := by
  refine (reports_checkTopics [] rfl (fun _ => rfl)
    fun _ he => absurd he List.not_mem_nil).congr fun p e => ?_
  constructor
  · rintro ⟨⟨entry, -, rfl⟩, hfault⟩
    exact ⟨Nat.le_refl _, hfault⟩
  · rintro ⟨hpart, hfault⟩
    obtain ⟨name, t, here, rfl⟩ : ∃ name t, s.topics.get? name = some t ∧
        p = .entry .topic name := by
      rcases hfault with _ | _ | _ | _ | ⟨here, _⟩ | ⟨here, _, _, _⟩
      case topicRules | conflict => exact ⟨_, _, here, rfl⟩
      all_goals simp [Place.part, turnOf] at hpart
    exact ⟨⟨_, s.topics.mem_entries_iff.mpr here, rfl⟩, hfault⟩

end Parts

/-- **The check of settings reports the first fault.** -/
theorem reports_check (s : Settings) : Reports s.check s.Faulty :=
  (s.reports_brokers.followedBy (s.reports_listeners.followedBy
    (s.reports_consumers.followedBy s.reports_topics))).congr fun _ _ =>
      ⟨fun h => h.2, fun h => ⟨Nat.zero_le _, h⟩⟩

/-! ### Settings that make sense -/

/-- Two entries for one topic of the broker that expect different things are the fault of the
later one, unless this breaks a rule as well. -/
theorem exists_faulty {s : Settings} {name name' : String} {t t' : TopicExpectation}
    (hname : s.topics.get? name = some t) (hname' : s.topics.get? name' = some t')
    (hlt : compare name' name = .lt) (hne : t' ≠ t) (htopic : t.topicName = t'.topicName) :
    ∃ e, s.Faulty (.entry .topic name) e := by
  by_cases hrules : t.violations = []
  · have hearlier : (name', t') ∈ s.earlierFor t.topicName name :=
      List.mem_filter.mpr ⟨s.topics.mem_entries_iff.mpr hname',
        decide_eq_true ⟨htopic.symm, hlt⟩⟩
    obtain ⟨⟨other, u⟩, hlatest⟩ : ∃ e, (s.earlierFor t.topicName name).getLast? = some e :=
      ⟨_, List.getLast?_eq_some_getLast (List.ne_nil_of_mem hearlier)⟩
    exact ⟨_, .conflict hname hrules ⟨_, hearlier, hne⟩ hlatest⟩
  · exact ⟨_, .topicRules hname hrules⟩

/-- **Settings make sense exactly if nothing is wrong at any place.** -/
theorem consistent_iff (s : Settings) : s.Consistent ↔ ∀ p e, ¬ s.Faulty p e := by
  constructor
  · rintro h p e (⟨here, hblank⟩ | ⟨here, hbroken⟩ | ⟨here, -, hlisted, hblank⟩ | ⟨here, hbroken⟩ |
      ⟨here, hbroken⟩ | ⟨here, -, ⟨⟨name', t'⟩, hearlier, hne⟩, -⟩)
    · rw [h.brokers _ (List.mem_of_getElem? here)] at hblank
      cases hblank
    · obtain ⟨hpoll, hmax, hrecords, -⟩ := h.listeners _ _ here
      exact hbroken (ListenerConfig.violations_eq_nil_iff.mpr ⟨hmax, hrecords, hpoll⟩)
    · rw [(h.listeners _ _ here).2.2.2 _ hlisted] at hblank
      cases hblank
    · exact hbroken (ConsumerConfig.violations_eq_nil_iff.mpr (h.consumers _ _ here).symm)
    · obtain ⟨hname, hpartitions, hreplicas⟩ := h.topics _ _ here
      exact hbroken (TopicExpectation.violations_eq_nil_iff.mpr ⟨hpartitions, hreplicas, hname⟩)
    · obtain ⟨hmem, hsame⟩ := List.mem_filter.mp hearlier
      have here' := s.topics.mem_entries_iff.mp hmem
      exact hne (h.aliases _ _ _ _ here' here (of_decide_eq_true hsame).1)
  · intro h
    constructor
    case brokers =>
      intro address hlisted
      obtain ⟨i, hi⟩ := List.getElem?_of_mem hlisted
      exact Bool.eq_false_iff.mpr fun hblank => h _ _ (.broker hi hblank)
    case listeners =>
      intro name c here
      have hrules : c.violations = [] :=
        Decidable.of_not_not fun hbroken => h _ _ (.listenerRules here hbroken)
      obtain ⟨hmax, hrecords, hpoll⟩ := ListenerConfig.violations_eq_nil_iff.mp hrules
      refine ⟨hpoll, hmax, hrecords, fun field hlisted => ?_⟩
      exact Bool.eq_false_iff.mpr fun hblank => h _ _ (.metadataField here hrules hlisted hblank)
    case consumers =>
      intro name c here
      have hrules : c.violations = [] :=
        Decidable.of_not_not fun hbroken => h _ _ (.consumerRules here hbroken)
      exact (ConsumerConfig.violations_eq_nil_iff.mp hrules).symm
    case topics =>
      intro name t here
      have hrules : t.violations = [] :=
        Decidable.of_not_not fun hbroken => h _ _ (.topicRules here hbroken)
      obtain ⟨hpartitions, hreplicas, hname⟩ := TopicExpectation.violations_eq_nil_iff.mp hrules
      exact ⟨hname, hpartitions, hreplicas⟩
    case aliases =>
      intro name name' t t' here here' htopic
      by_contra hne
      -- One of the two names comes later.
      cases hname : compare name name' with
      | lt =>
        obtain ⟨e, hfault⟩ := exists_faulty here' here hname hne htopic.symm
        exact h _ e hfault
      | eq =>
        rw [Std.LawfulEqCmp.eq_of_compare hname, here'] at here
        exact hne (Option.some.inj here).symm
      | gt =>
        obtain ⟨e, hfault⟩ :=
          exists_faulty here here' (Std.OrientedCmp.lt_of_gt hname) (Ne.symm hne) htopic
        exact h _ e hfault

/-- **What the check of settings comes to.** It accepts exactly the settings that make sense. What
it refuses others with is the fault at the first place where they have one: in the order of
brokers, listeners, consumers and topics, each by their names. Among the entries for one topic of
the broker this is the first that differs from an earlier one. -/
theorem check_verdict (s : Settings) :
    (s.check = .ok () ↔ s.Consistent) ∧
      ∀ e, s.check = .error e ↔
        ∃ p, s.Faulty p e ∧ ∀ q e', s.Faulty q e' → ¬ q.Before p := by
  refine ⟨?_, s.reports_check.eq_error_iff fun p e e' => Faulty.unique⟩
  rw [s.consistent_iff]
  exact s.reports_check.eq_ok_iff

/-- Settings with four entries for the orders, of which the first two agree. -/
def ordersAliases : Settings :=
  { empty with topics := (∅ : Dict String TopicExpectation)
      |>.insert "d" { TopicExpectation.named "orders" with partitionCount := some 5 }
      |>.insert "c" { TopicExpectation.named "orders" with partitionCount := some 4 }
      |>.insert "b" (.named "orders")
      |>.insert "a" (.named "orders") }

theorem check_verdict_aliases :
    ¬ ordersAliases.Consistent ∧
      ∃ p, ordersAliases.Faulty p
          (.invalidField "topics.c" (.conflictingTopic "orders" "b")) ∧
        ∀ q e, ordersAliases.Faulty q e → ¬ q.Before p := by
  have hcheck : ordersAliases.check =
      .error (.invalidField "topics.c" (.conflictingTopic "orders" "b")) := rfl
  refine ⟨fun h => ?_, (check_verdict ordersAliases).2 _ |>.mp hcheck⟩
  rw [(check_verdict ordersAliases).1.mpr h] at hcheck
  cases hcheck

end Settings

end StreamDispatch
