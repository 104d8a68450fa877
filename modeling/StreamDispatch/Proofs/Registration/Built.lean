import Mathlib.Data.List.Induction
import StreamDispatch.Proofs.Config.EntryRules
import StreamDispatch.Registration.Walk

/-!
# What a walk through the stages comes to

Building a registration ends at the first thing that is wrong with it. What can be wrong is said
here without that: `StreamDispatch.Walk.faults` lists everything that is wrong with a walk, topic by
topic and then part by part, each fault whatever else is wrong. A walk without faults is a
well-formed one (`StreamDispatch.Walk.faults_eq_nil_iff`), and building another fails with the first
of its faults (`StreamDispatch.Walk.build_eq_error_iff`).

The one part where that is not plain are topics of one name. A topic is at fault if *any* topic
before it has its name. The check goes by a set of names that it has seen, and it stops at a topic
that is at fault in another way. But it goes on only past topics without faults, so that the set
holds the names of all topics before the one at hand
(`StreamDispatch.Draft.checkTopicsFrom_eq`).

| part | its fault | where it stands among the faults |
|---|---|---|
| the topics | there are none | first |
| a topic | a blank name, the name of an earlier topic, a broken rule | in the order of the topics |
| the decoders | the key decoder is missing, the value decoder is missing | after the topics |
| the listener, the consumer | a blank name, a broken rule | last |

## Main definitions

* `StreamDispatch.Walk.WellFormed`: what a registration needs.
* `StreamDispatch.Walk.faults`: what is wrong with a walk, in order.
* `StreamDispatch.Walk.Keeps`: a registration has what was given on the way.

## Main statements

* `StreamDispatch.Walk.build_verdict`: when a registration is built, what it has, and what building
  it fails with otherwise.
-/

namespace StreamDispatch

/-- A text names something if not all of it is white space. -/
def NamesSomething (s : String) : Prop := ∃ c ∈ s.toList, isBlankChar c = false

theorem isBlank_eq_false_iff {s : String} : isBlank s = false ↔ NamesSomething s := by
  simp only [isBlank, NamesSomething, List.all_eq_false, Bool.not_eq_true]

theorem NamesSomething.ne_empty {s : String} (h : NamesSomething s) : s ≠ "" := by
  rintro rfl
  obtain ⟨c, hc, -⟩ := h
  cases hc

/-! ### The first of some faults -/

/-- A fault, if there is a reason for it. -/
def faultIf (reason : Prop) [Decidable reason] (e : Error) : List Error :=
  if reason then [e] else []

theorem faultIf_eq_nil_iff {reason : Prop} [Decidable reason] {e : Error} :
    faultIf reason e = [] ↔ ¬reason := by
  simp [faultIf]

/-- The check that ends at the first of some faults. -/
def firstOf (faults : List Error) : Except Error Unit := faults.head?.elim (.ok ()) .error

theorem firstOf_cons {e : Error} {faults : List Error} : firstOf (e :: faults) = .error e := rfl

theorem firstOf_eq_ok_iff {faults : List Error} : firstOf faults = .ok () ↔ faults = [] := by
  rcases faults with _ | ⟨e, faults⟩ <;> simp [firstOf]

theorem firstOf_eq_error_iff {faults : List Error} {e : Error} :
    firstOf faults = .error e ↔ faults.head? = some e := by
  rcases faults with _ | ⟨e', faults⟩ <;> simp [firstOf]

/-- The faults of two parts are checked in turn. -/
theorem firstOf_append {faults faults' : List Error} :
    firstOf (faults ++ faults') = firstOf faults >>= fun _ => firstOf faults' := by
  rcases faults with _ | ⟨e, faults⟩ <;> rfl

theorem firstOf_faultIf {reason : Prop} [Decidable reason] {e : Error} :
    firstOf (faultIf reason e) = if reason then .error e else .ok () := by
  unfold faultIf
  split <;> rfl

namespace Draft

/-! ### What is wrong with the topics -/

/-- What is wrong with a topic that comes after some others. -/
def topicFaults (before : List TopicExpectation) (t : TopicExpectation) : List Error :=
  faultIf (isBlank t.topicName = true) (.misconfigured .blankTopic) ++
    faultIf (t.topicName ∈ before.map (·.topicName))
      (.misconfigured (.duplicateTopic t.topicName)) ++
    faultIf (t.violations ≠ [])
      (.invalidField s!"topics.{t.topicName}" (.violations t.violations))

/-- What is wrong with any of the topics, in their order. -/
def allTopicFaults (topics : List TopicExpectation) : List Error :=
  topics.zipIdx.flatMap fun p => topicFaults (topics.take p.2) p.1

theorem topicFaults_eq_nil_iff {before : List TopicExpectation} {t : TopicExpectation} :
    topicFaults before t = [] ↔
      isBlank t.topicName = false ∧ t.topicName ∉ before.map (·.topicName) ∧
        t.violations = [] := by
  simp only [topicFaults, List.append_eq_nil_iff, faultIf_eq_nil_iff, Bool.not_eq_true, not_not,
    and_assoc]

/-- Checking topics ends at the first fault of the first one that has any. The names that are
`seen` are those of all topics before. -/
theorem checkTopicsFrom_eq {seen : List String} (before : List TopicExpectation)
    {topics : List TopicExpectation}
    (hseen : ∀ name, name ∈ seen ↔ name ∈ before.map (·.topicName)) :
    checkTopicsFrom seen topics =
      firstOf ((topics.zipIdx before.length).flatMap fun p =>
        topicFaults ((before ++ topics).take p.2) p.1) := by
  induction topics generalizing seen before with
  | nil => rfl
  | cons t rest ih =>
    have htake : (before ++ t :: rest).take before.length = before := List.take_left
    rw [List.zipIdx_cons, List.flatMap_cons, htake, firstOf_append, checkTopicsFrom]
    by_cases hblank : isBlank t.topicName = true
    · rw [if_pos hblank, topicFaults, faultIf, if_pos hblank]
      rfl
    rw [if_neg hblank]
    by_cases hdouble : t.topicName ∈ before.map (·.topicName)
    · have hcontains : seen.contains t.topicName = true :=
        List.contains_iff_mem.mpr ((hseen _).mpr hdouble)
      rw [if_pos hcontains, topicFaults, faultIf_eq_nil_iff.mpr hblank, faultIf, if_pos hdouble]
      rfl
    have hcontains : ¬seen.contains t.topicName = true := fun h =>
      hdouble ((hseen _).mp (List.contains_iff_mem.mp h))
    rw [if_neg hcontains]
    split
    next hrules =>
      have hnone : topicFaults before t = [] :=
        topicFaults_eq_nil_iff.mpr ⟨Bool.not_eq_true _ ▸ hblank, hdouble, hrules⟩
      have hseen' : ∀ name, name ∈ t.topicName :: seen ↔
          name ∈ (before ++ [t]).map (·.topicName) := by
        intro name
        rw [List.mem_cons, hseen, List.map_append, List.mem_append, List.map_singleton,
          List.mem_singleton, or_comm]
      rw [hnone, ih (before ++ [t]) hseen', List.length_append, List.append_assoc]
      rfl
    next hrules =>
      rw [topicFaults, faultIf_eq_nil_iff.mpr hblank, faultIf_eq_nil_iff.mpr hdouble, faultIf,
        if_pos hrules]
      rfl

/-- **Topics have no faults** if every name names something, no two are the same, and the numbers
that are set are not zero. -/
theorem allTopicFaults_eq_nil_iff {topics : List TopicExpectation} :
    allTopicFaults topics = [] ↔
      (∀ t ∈ topics, NamesSomething t.topicName ∧
        (∀ n, t.partitionCount = some n → 1 ≤ n) ∧ ∀ n, t.replicationFactor = some n → 1 ≤ n) ∧
        (topics.map (·.topicName)).Nodup := by
  have hcheck : checkTopicsFrom [] topics = firstOf (allTopicFaults topics) :=
    checkTopicsFrom_eq [] fun _ => Iff.rfl
  rw [← firstOf_eq_ok_iff, ← hcheck, checkTopicsFrom_eq_ok_iff]
  refine and_congr_left fun _ => forall₂_congr fun t _ => ?_
  rw [isBlank_eq_false_iff, TopicExpectation.violations_eq_nil_iff]
  constructor
  · rintro ⟨hname, ⟨hcount, hfactor, -⟩, -⟩
    exact ⟨hname, hcount, hfactor⟩
  · rintro ⟨hname, hcount, hfactor⟩
    exact ⟨hname, ⟨hcount, hfactor, hname.ne_empty⟩, List.not_mem_nil⟩

/-! ### What is wrong with the other parts -/

section Config

variable {α : Type} {kind : ConfigKind} {violations : α → List Violation}

/-- What is wrong with a configuration. -/
def configFaults (kind : ConfigKind) (violations : α → List Violation) (ref : ConfigRef α) :
    List Error :=
  ref.config?.elim [] (fun config =>
      faultIf (violations config ≠ []) (.invalidField kind.field (.violations (violations config)))) ++
    ref.name?.elim [] fun name =>
      faultIf (isBlank name = true) (.misconfigured (.blankConfigName kind))

theorem checkConfig_eq {ref : ConfigRef α} :
    checkConfig kind violations ref = firstOf (configFaults kind violations ref) := by
  rcases ref with config | name
  · rw [checkConfig, configFaults]
    split
    next hrules =>
      simp only [ConfigRef.config?, ConfigRef.name?, Option.elim, List.append_nil, firstOf_faultIf,
        hrules, ne_eq, not_true_eq_false, if_false]
    next hrules =>
      simp only [ConfigRef.config?, ConfigRef.name?, Option.elim, List.append_nil, firstOf_faultIf]
      rw [if_pos hrules]
  · simp only [checkConfig, configFaults, ConfigRef.config?, ConfigRef.name?, Option.elim,
      List.nil_append, firstOf_faultIf]

/-- A configuration has no faults if it obeys its rules, or if its name names something. -/
theorem configFaults_eq_nil_iff {ref : ConfigRef α} :
    configFaults kind violations ref = [] ↔
      (∀ config, ref = .given config → violations config = []) ∧
        ∀ name, ref = .named name → NamesSomething name := by
  rcases ref with config | name <;>
    simp [configFaults, ConfigRef.config?, ConfigRef.name?, faultIf_eq_nil_iff,
      isBlank_eq_false_iff]

end Config

/-- Something that is needed is missing, or it is there. -/
theorem needed_eq {α : Type} {cause : ConfigurationCause} {given : Option α} :
    (needed cause given >>= fun _ => .ok ()) =
      firstOf (faultIf (given = none) (.misconfigured cause)) := by
  rw [firstOf_faultIf]
  cases given <;> rfl

end Draft

variable {D H : Type}

namespace Walk

/-! ### What was given on the way -/

/-- Giving decoders changes the decoders alone, and of each kind the latest one counts. -/
theorem foldl_decodedBy {calls : List (DecoderCall D)} {draft : Draft D H}
    (hkey : draft.keyDecoder = none) (hvalue : draft.valueDecoder = none) :
    calls.foldl Draft.decodedBy draft =
      { draft with
        keyDecoder := (calls.filterMap (·.key?)).getLast?
        valueDecoder := (calls.filterMap (·.value?)).getLast? } := by
  induction calls using List.reverseRecOn with
  | nil => cases draft; cases hkey; cases hvalue; rfl
  | append_singleton calls call ih =>
    rw [List.foldl_append, ih]
    rcases call with decoder | decoder <;>
      simp [Draft.decodedBy, DecoderCall.key?, DecoderCall.value?]

/-- The last stage gives policies and names, and of each the latest one counts. -/
theorem foldl_after {calls : List LastCall} {draft : Draft D H}
    (hpolicy : draft.policy = none) (hname : draft.name = none) :
    calls.foldl Draft.after draft =
      { draft with
        policy := (calls.filterMap (·.policy?)).getLast?
        name := (calls.filterMap (·.name?)).getLast? } := by
  induction calls using List.reverseRecOn with
  | nil => cases draft; cases hpolicy; cases hname; rfl
  | append_singleton calls call ih =>
    rw [List.foldl_append, ih]
    rcases call with policy | name <;>
      simp [Draft.after, Draft.onError, Draft.called, LastCall.policy?, LastCall.name?]

/-- **The draft of a walk** has what was given, and of what may be given repeatedly the latest. -/
theorem draft_eq (w : Walk D H) :
    w.draft =
      { listener := w.listener.ref .default
        topics := w.topics.expectations
        checksTopics := w.topicChecks ≠ 0
        consumer := w.consumer.ref .default
        keyDecoder := w.keyDecoders.getLast?
        valueDecoder := w.valueDecoders.getLast?
        handler := w.handler
        policy := w.policies.getLast?
        name := w.names.getLast? } := by
  rw [draft, foldl_decodedBy rfl rfl, foldl_after rfl rfl]
  rfl

/-- A registration has what was given on the way. -/
structure Keeps (w : Walk D H) (r : Registration D H) : Prop where
  topics : r.topics = w.topics.expectations
  checksTopics : r.checksTopics = true ↔ w.topicChecks ≠ 0
  listener : r.listener = w.listener.ref .default
  consumer : r.consumer = w.consumer.ref .default
  keyDecoder : w.keyDecoders.getLast? = some r.keyDecoder
  valueDecoder : w.valueDecoders.getLast? = some r.valueDecoder
  handler : r.handler = w.handler
  /-- The latest policy counts. -/
  policy : ∀ policy, w.policies.getLast? = some policy → r.policy = policy
  /-- Where none is given, every failure stops the worker. -/
  stops : w.policies = [] → ∀ record failure, r.policy.decide record failure = .ok .stop
  /-- The latest name counts. -/
  name : ∀ name, w.names.getLast? = some name → NamesSomething name → r.name = name
  /-- Where it names nothing, or none is given, the topics give the name. -/
  joined : (∀ name, w.names.getLast? = some name → ¬NamesSomething name) →
    r.name = ",".intercalate (r.topics.map (·.topicName))

/-! ### What is wrong with a walk -/

/-- What a registration needs. -/
structure WellFormed (w : Walk D H) : Prop where
  topics : w.topics.expectations ≠ []
  topicNames : ∀ t ∈ w.topics.expectations, NamesSomething t.topicName
  distinct : (w.topics.expectations.map (·.topicName)).Nodup
  partitionCount : ∀ t ∈ w.topics.expectations, ∀ n, t.partitionCount = some n → 1 ≤ n
  replicationFactor : ∀ t ∈ w.topics.expectations, ∀ n, t.replicationFactor = some n → 1 ≤ n
  keyDecoder : ∃ d, .key d ∈ w.decoders
  valueDecoder : ∃ d, .value d ∈ w.decoders
  listener : ∀ c, w.listener.ref .default = .given c →
    1 ≤ c.pollTimeoutMs ∧ 1 ≤ c.maxInstances ∧ 1 ≤ c.maxPollRecords
  listenerName : ∀ name, w.listener.ref .default = .named name → NamesSomething name
  consumer : ∀ c, w.consumer.ref .default = .given c → c.groupId ≠ "" ∧ c.clientIdPrefix ≠ ""
  consumerName : ∀ name, w.consumer.ref .default = .named name → NamesSomething name

/-- Everything that is wrong with a walk, in the order in which it is looked for. -/
def faults (w : Walk D H) : List Error :=
  faultIf (w.topics.expectations = []) (.misconfigured .noTopics) ++
    Draft.allTopicFaults w.topics.expectations ++
    faultIf (w.keyDecoders = []) (.misconfigured .keyDecoderMissing) ++
    faultIf (w.valueDecoders = []) (.misconfigured .valueDecoderMissing) ++
    Draft.configFaults .listener ListenerConfig.violations (w.listener.ref .default) ++
    Draft.configFaults .consumer ConsumerConfig.violations (w.consumer.ref .default)

/-- A key decoder was given exactly if there is a call that gives one. -/
theorem keyDecoders_eq_nil_iff {w : Walk D H} :
    w.keyDecoders = [] ↔ ¬∃ d, .key d ∈ w.decoders := by
  rw [keyDecoders, List.filterMap_eq_nil_iff, not_exists]
  constructor
  · intro h d hd
    cases h _ hd
  · rintro h (d | d) hcall
    · exact absurd hcall (h d)
    · rfl

/-- A value decoder was given exactly if there is a call that gives one. -/
theorem valueDecoders_eq_nil_iff {w : Walk D H} :
    w.valueDecoders = [] ↔ ¬∃ d, .value d ∈ w.decoders := by
  rw [valueDecoders, List.filterMap_eq_nil_iff, not_exists]
  constructor
  · intro h d hd
    cases h _ hd
  · rintro h (d | d) hcall
    · rfl
    · exact absurd hcall (h d)

/-- **A walk without faults is a well-formed one.** -/
theorem faults_eq_nil_iff {w : Walk D H} : w.faults = [] ↔ w.WellFormed := by
  simp only [faults, List.append_eq_nil_iff, faultIf_eq_nil_iff, Draft.allTopicFaults_eq_nil_iff,
    Draft.configFaults_eq_nil_iff, ListenerConfig.violations_eq_nil_iff,
    ConsumerConfig.violations_eq_nil_iff, keyDecoders_eq_nil_iff, valueDecoders_eq_nil_iff, not_not]
  constructor
  · rintro ⟨⟨⟨⟨⟨hsome, htopics, hdistinct⟩, hkey⟩, hvalue⟩, hlistener, hlname⟩, hconsumer, hcname⟩
    exact {
      topics := hsome
      topicNames := fun t ht => (htopics t ht).1
      distinct := hdistinct
      partitionCount := fun t ht => (htopics t ht).2.1
      replicationFactor := fun t ht => (htopics t ht).2.2
      keyDecoder := hkey
      valueDecoder := hvalue
      listener := fun c hc =>
        have ⟨hinstances, hrecords, htimeout⟩ := hlistener c hc
        ⟨htimeout, hinstances, hrecords⟩
      listenerName := hlname
      consumer := fun c hc => (hconsumer c hc).symm
      consumerName := hcname }
  · intro h
    refine ⟨⟨⟨⟨⟨h.topics, fun t ht => ?_, h.distinct⟩, h.keyDecoder⟩, h.valueDecoder⟩,
      fun c hc => ?_, h.listenerName⟩, fun c hc => (h.consumer c hc).symm, h.consumerName⟩
    · exact ⟨h.topicNames t ht, h.partitionCount t ht, h.replicationFactor t ht⟩
    · obtain ⟨htimeout, hinstances, hrecords⟩ := h.listener c hc
      exact ⟨hinstances, hrecords, htimeout⟩

/-! ### What building comes to -/

/-- Building a registration makes all checks in turn. -/
theorem build_checks {draft : Draft D H} :
    (draft.build >>= fun _ => .ok ()) =
      Draft.checkTopics draft.topics >>= fun _ =>
        (Draft.needed .keyDecoderMissing draft.keyDecoder >>= fun _ => .ok ()) >>= fun _ =>
          (Draft.needed .valueDecoderMissing draft.valueDecoder >>= fun _ => .ok ()) >>= fun _ =>
            Draft.checkConfig .listener ListenerConfig.violations draft.listener >>= fun _ =>
              Draft.checkConfig .consumer ConsumerConfig.violations draft.consumer := by
  rw [Draft.build]
  rcases Draft.checkTopics draft.topics with e | _
  · rfl
  rcases Draft.needed .keyDecoderMissing draft.keyDecoder with e | _
  · rfl
  rcases Draft.needed .valueDecoderMissing draft.valueDecoder with e | _
  · rfl
  rcases Draft.checkConfig .listener ListenerConfig.violations draft.listener with e | _
  · rfl
  rcases Draft.checkConfig .consumer ConsumerConfig.violations draft.consumer with e | _ <;> rfl

/-- Topics are checked for being there, and then one by one. -/
theorem checkTopics_eq {topics : List TopicExpectation} :
    Draft.checkTopics topics =
      firstOf (faultIf (topics = []) (.misconfigured .noTopics) ++ Draft.allTopicFaults topics) := by
  rw [Draft.checkTopics]
  rcases topics with _ | ⟨t, rest⟩
  · rfl
  · exact Draft.checkTopicsFrom_eq [] fun _ => Iff.rfl

/-- The checks end at the first fault. -/
theorem build_eq_firstOf (w : Walk D H) :
    (w.build >>= fun _ => .ok ()) = firstOf w.faults := by
  rw [build, build_checks, draft_eq, checkTopics_eq, Draft.needed_eq, Draft.needed_eq,
    Draft.checkConfig_eq, Draft.checkConfig_eq, faults]
  simp only [firstOf_append, bind_assoc, List.getLast?_eq_none_iff]

/-- **Building fails with the first fault.** -/
theorem build_eq_error_iff {w : Walk D H} {e : Error} :
    w.build = .error e ↔ w.faults.head? = some e := by
  rw [← firstOf_eq_error_iff, ← build_eq_firstOf]
  rcases w.build with e' | r
  · exact ⟨fun h => by cases h; rfl, fun h => by cases h; rfl⟩
  · exact ⟨nofun, nofun⟩

/-- **A registration is built from a well-formed walk**, and from no other. -/
theorem exists_build_eq_ok_iff {w : Walk D H} : (∃ r, w.build = .ok r) ↔ w.WellFormed := by
  rw [← faults_eq_nil_iff, ← firstOf_eq_ok_iff, ← build_eq_firstOf, bind_eq_ok_iff]
  exact exists_congr fun r => (and_iff_left rfl).symm

/-- A name that names nothing is not chosen. -/
theorem chosenName_of_not {name : Option String} {topics : List TopicExpectation}
    (h : ∀ s, name = some s → ¬NamesSomething s) :
    Draft.chosenName name topics = ",".intercalate (topics.map (·.topicName)) := by
  unfold Draft.chosenName
  split
  next s =>
    have hblank : isBlank s = true := by
      by_contra hnot
      exact h s rfl (isBlank_eq_false_iff.mp (Bool.not_eq_true _ ▸ hnot))
    rw [if_pos hblank]
    rfl
  next => rfl

/-- What is built has what was given. -/
theorem keeps_of_build {w : Walk D H} {r : Registration D H} (h : w.build = .ok r) :
    w.Keeps r := by
  rw [build, draft_eq, Draft.build] at h
  obtain ⟨⟨⟩, -, h⟩ := bind_eq_ok_iff.mp h
  obtain ⟨key, hkey, h⟩ := bind_eq_ok_iff.mp h
  obtain ⟨value, hvalue, h⟩ := bind_eq_ok_iff.mp h
  obtain ⟨⟨⟩, -, h⟩ := bind_eq_ok_iff.mp h
  obtain ⟨⟨⟩, -, h⟩ := bind_eq_ok_iff.mp h
  cases h
  exact {
    topics := rfl
    checksTopics := decide_eq_true_iff
    listener := rfl
    consumer := rfl
    keyDecoder := Draft.needed_eq_ok_iff.mp hkey
    valueDecoder := Draft.needed_eq_ok_iff.mp hvalue
    handler := rfl
    policy := fun policy hpolicy => by simp only [hpolicy, Option.getD_some]
    stops := fun hnone _ _ => by simp only [hnone, List.getLast?_nil, Option.getD_none]; rfl
    name := fun name hname hsome => by
      simp only [hname, Draft.chosenName, isBlank_eq_false_iff.mpr hsome]
      rfl
    joined := fun hname => chosenName_of_not hname }

/-- **A registration is built from what is well formed, and keeps it.** Building succeeds exactly if
the walk is well formed. What is built has what was given on the way, and what was given repeatedly
as it was given last. Building anything else fails with the first of its faults: those of the topics
in their order, then those of the decoders, of the listener and of the consumer. -/
theorem build_verdict (w : Walk D H) :
    ((∃ r, w.build = .ok r) ↔ w.WellFormed) ∧ (∀ r, w.build = .ok r → w.Keeps r) ∧
      ∀ e, w.build = .error e ↔ w.faults.head? = some e :=
  ⟨exists_build_eq_ok_iff, fun _ => keeps_of_build, fun _ => build_eq_error_iff⟩

/-- A walk that reads some topics and is right in every other part. Only its decoders are given more
than once. -/
def reading (topics : List String) : Walk String Unit where
  listener := .standard
  topics := .several topics
  topicChecks := 1
  consumer := .named "billing"
  decoders := [.value "text", .key "word", .value "bytes"]
  handler := ()
  last := [.called " "]

/-- Two topics give the name where a blank one is given, and of the decoders the latest counts. Of
three topics with two faults, the first is what building fails with. -/
theorem build_verdict_orders :
    (∃ r, (reading ["orders", "payments"]).build = .ok r ∧ r.name = "orders,payments" ∧
        r.valueDecoder = "bytes") ∧
      (reading ["orders", " ", "orders"]).build = .error (.misconfigured .blankTopic) := by
  obtain ⟨hbuilt, hkeeps, -⟩ := build_verdict (reading ["orders", "payments"])
  obtain ⟨-, -, hfails⟩ := build_verdict (reading ["orders", " ", "orders"])
  obtain ⟨r, hr⟩ := hbuilt.mpr (faults_eq_nil_iff.mp (by decide))
  have hk := hkeeps r hr
  refine ⟨⟨r, hr, ?_, ?_⟩, (hfails _).mpr (by decide)⟩
  · rw [hk.joined, hk.topics]
    · rfl
    · rintro name ⟨⟩ hsome
      revert hsome
      rw [← isBlank_eq_false_iff]
      decide
  · exact Option.some.inj (hk.valueDecoder.symm.trans rfl)

end Walk

end StreamDispatch
