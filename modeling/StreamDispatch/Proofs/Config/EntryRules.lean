import Mathlib.Data.List.Nodup
import StreamDispatch.Config.Consistent
import StreamDispatch.Engine.Submit
import StreamDispatch.Registration

/-!
# One entry, in the settings and in a registration

A listener, a consumer or an expected topic can be written into the settings, or given directly
with a registration. In the settings it is checked when they are loaded. In a registration it is
checked twice, when the registration is built and when its configurations are resolved. What is
accepted in one place should be accepted in the other.

The rules of single fields are the same everywhere, so that consumers are treated alike
(`StreamDispatch.Settings.check_ofConsumer`). But each side also knows one thing that the other
does not look at:

| entry | only the settings refuse | only a registration refuses |
|---|---|---|
| listener | a blank metadata field | |
| topic | | a name of white space alone |

Apart from these two, both sides accept the same
(`StreamDispatch.Draft.entry_rules`); that they do differ there is shown at one entry of each kind
(`StreamDispatch.Draft.entry_rules_differ`).

## Main definitions

* `StreamDispatch.Settings.ofListener`, `StreamDispatch.Settings.ofConsumer`,
  `StreamDispatch.Settings.ofTopic`: settings with a single entry.
* `StreamDispatch.Draft.AcceptedBy`: a registration is built, and an engine resolves it.
-/

namespace StreamDispatch

/-- Of two checks in turn both have passed. -/
theorem bind_eq_ok_iff {ε α β : Type} {x : Except ε α} {f : α → Except ε β} {b : β} :
    x >>= f = .ok b ↔ ∃ a, x = .ok a ∧ f a = .ok b := by
  cases x with
  | error e => exact ⟨nofun, nofun⟩
  | ok a =>
    refine ⟨fun h => ⟨a, rfl, h⟩, ?_⟩
    rintro ⟨_, h, hf⟩
    cases h
    exact hf

/-! ### What is checked in the settings -/

theorem checkViolations_eq_ok_iff {path : String} {broken : List Violation} :
    checkViolations path broken = .ok () ↔ broken = [] := by
  cases broken <;> simp [checkViolations]

namespace Settings

theorem checkListener_eq_ok_iff {name : String} {c : ListenerConfig} :
    checkListener name c = .ok () ↔
      c.violations = [] ∧ ∀ field ∈ c.metadataFields, isBlank field = false := by
  rw [checkListener, bind_eq_ok_iff]
  constructor
  · rintro ⟨⟨⟩, hrules, hfields⟩
    refine ⟨checkViolations_eq_ok_iff.mp hrules, fun field hfield => ?_⟩
    split at hfields
    next => cases hfields
    next hany => simpa using fun h => hany (List.any_eq_true.mpr ⟨field, hfield, h⟩)
  · rintro ⟨hrules, hfields⟩
    refine ⟨(), checkViolations_eq_ok_iff.mpr hrules, ?_⟩
    rw [if_neg]
    simpa using hfields

/-- Settings whose only entry is a listener. -/
def ofListener (name : String) (c : ListenerConfig) : Settings :=
  { empty with listeners := (∅ : Dict String ListenerConfig).insert name c }

/-- Settings whose only entry is a consumer. -/
def ofConsumer (name : String) (c : ConsumerConfig) : Settings :=
  { empty with consumers := (∅ : Dict String ConsumerConfig).insert name c }

/-- Settings whose only entry is a topic. -/
def ofTopic (name : String) (t : TopicExpectation) : Settings :=
  { empty with topics := (∅ : Dict String TopicExpectation).insert name t }

/-- A single entry passes if it passes its own check. -/
theorem checkEntries_singleton {α : Type} {check : String → α → Except Error Unit} {name : String}
    {a : α} : checkEntries check [(name, a)] = .ok () ↔ check name a = .ok () := by
  rw [checkEntries, bind_eq_ok_iff]
  exact ⟨fun ⟨⟨⟩, h, _⟩ => h, fun h => ⟨(), h, rfl⟩⟩

/-- A listener in the settings has to obey its rules and to name its metadata fields. -/
theorem check_ofListener {name : String} {c : ListenerConfig} :
    (ofListener name c).check = .ok () ↔
      c.violations = [] ∧ ∀ field ∈ c.metadataFields, isBlank field = false := by
  have hentry : checkEntries checkListener [(name, c)] = .ok () ↔ _ :=
    checkEntries_singleton.trans checkListener_eq_ok_iff
  rw [← hentry, check, bind_eq_ok_iff]
  refine ⟨?_, fun h => ⟨(), rfl, bind_eq_ok_iff.mpr ⟨(), h, rfl⟩⟩⟩
  rintro ⟨⟨⟩, -, h⟩
  obtain ⟨⟨⟩, h, -⟩ := bind_eq_ok_iff.mp h
  exact h

/-- A consumer in the settings has to obey its rules. -/
theorem check_ofConsumer {name : String} {c : ConsumerConfig} :
    (ofConsumer name c).check = .ok () ↔ c.violations = [] := by
  have hentry : checkEntries checkConsumer [(name, c)] = .ok () ↔ _ :=
    checkEntries_singleton.trans checkViolations_eq_ok_iff
  rw [← hentry, check, bind_eq_ok_iff]
  refine ⟨?_, fun h => ⟨(), rfl, bind_eq_ok_iff.mpr ⟨(), rfl, bind_eq_ok_iff.mpr ⟨(), h, rfl⟩⟩⟩⟩
  rintro ⟨⟨⟩, -, h⟩
  obtain ⟨⟨⟩, -, h⟩ := bind_eq_ok_iff.mp h
  obtain ⟨⟨⟩, h, -⟩ := bind_eq_ok_iff.mp h
  exact h

/-- A topic in the settings has to obey its rules. -/
theorem check_ofTopic {name : String} {t : TopicExpectation} :
    (ofTopic name t).check = .ok () ↔ t.violations = [] := by
  show (checkViolations s!"topics.{name}" t.violations >>= fun _ => .ok ()) = .ok () ↔ _
  rw [bind_eq_ok_iff]
  exact ⟨fun ⟨⟨⟩, h, _⟩ => checkViolations_eq_ok_iff.mp h,
    fun h => ⟨(), checkViolations_eq_ok_iff.mpr h, rfl⟩⟩

end Settings

/-! ### What is checked in a registration -/

theorem Engine.checkRules_eq_ok_iff {kind : ConfigKind} {broken : List Violation} :
    checkRules kind broken = .ok () ↔ broken = [] := by
  cases broken <;> simp [checkRules]

namespace Draft

variable {D H : Type}

/-- A registration is accepted: it can be built, and the engine resolves its configurations. -/
def AcceptedBy (draft : Draft D H) (e : Engine) : Prop :=
  ∃ r, draft.build = .ok r ∧ ∃ configs, e.resolve r = .ok configs

/-- A configuration given directly is checked for its rules alone. -/
theorem checkConfig_given {α : Type} {kind : ConfigKind} {violations : α → List Violation}
    {config : α} : checkConfig kind violations (.given config) = .ok () ↔ violations config = [] := by
  rw [checkConfig]
  split
  next h => exact iff_of_true rfl h
  next h => exact iff_of_false nofun h

theorem checkTopicsFrom_eq_ok_iff {seen : List String} {topics : List TopicExpectation} :
    checkTopicsFrom seen topics = .ok () ↔
      (∀ t ∈ topics, isBlank t.topicName = false ∧ t.violations = [] ∧ t.topicName ∉ seen) ∧
        (topics.map (·.topicName)).Nodup := by
  induction topics generalizing seen with
  | nil => simp [checkTopicsFrom]
  | cons t rest ih =>
    rw [checkTopicsFrom, List.forall_mem_cons, List.map_cons, List.nodup_cons]
    split
    next hblank => simp [hblank]
    next hblank =>
      split
      next hseen => simp_all
      next hseen =>
        split
        next hrules =>
          rw [ih]
          simp only [List.mem_map, List.mem_cons]
          grind
        next hrules => simp_all

/-- **Topics are accepted** if there are any, each has a name that is not blank and obeys its
rules, and no two have one name. -/
theorem checkTopics_eq_ok_iff {topics : List TopicExpectation} :
    checkTopics topics = .ok () ↔
      topics ≠ [] ∧ (∀ t ∈ topics, isBlank t.topicName = false ∧ t.violations = []) ∧
        (topics.map (·.topicName)).Nodup := by
  rw [checkTopics]
  cases topics with
  | nil => simp
  | cons t rest => simp [checkTopicsFrom_eq_ok_iff]

/-- The engine finds a configuration, and it obeys its rules. -/
def Resolves {α : Type} (violations : α → List Violation) (found : Except Error α) : Prop :=
  ∃ config, found = .ok config ∧ violations config = []

/-- The configurations of a registration are resolved if both of them are. -/
theorem resolve_isOk_iff {e : Engine} {r : Registration D H} :
    (∃ configs, e.resolve r = .ok configs) ↔
      Resolves ListenerConfig.violations (e.resolveListener r.listener) ∧
        Resolves ConsumerConfig.violations (e.resolveConsumer r.consumer) := by
  simp only [Engine.resolve, bind_eq_ok_iff]
  constructor
  · rintro ⟨_, listener, hl, consumer, hc, ⟨⟩, hlrules, ⟨⟩, hcrules, -⟩
    exact ⟨⟨listener, hl, Engine.checkRules_eq_ok_iff.mp hlrules⟩,
      ⟨consumer, hc, Engine.checkRules_eq_ok_iff.mp hcrules⟩⟩
  · rintro ⟨⟨listener, hl, hlrules⟩, ⟨consumer, hc, hcrules⟩⟩
    exact ⟨(listener, consumer), listener, hl, consumer, hc,
      (), Engine.checkRules_eq_ok_iff.mpr hlrules, (), Engine.checkRules_eq_ok_iff.mpr hcrules, rfl⟩

theorem needed_eq_ok_iff {α : Type} {cause : ConfigurationCause} {given : Option α} {a : α} :
    needed cause given = .ok a ↔ given = some a := by
  cases given <;> simp [needed]

/-- **What accepting a registration takes**, for each of its parts. -/
theorem acceptedBy_iff {draft : Draft D H} {e : Engine} :
    draft.AcceptedBy e ↔
      checkTopics draft.topics = .ok () ∧
        (draft.keyDecoder.isSome ∧ draft.valueDecoder.isSome) ∧
        (checkConfig .listener ListenerConfig.violations draft.listener = .ok () ∧
          Resolves ListenerConfig.violations (e.resolveListener draft.listener)) ∧
        checkConfig .consumer ConsumerConfig.violations draft.consumer = .ok () ∧
          Resolves ConsumerConfig.violations (e.resolveConsumer draft.consumer) := by
  simp only [AcceptedBy, build, bind_eq_ok_iff, needed_eq_ok_iff, resolve_isOk_iff,
    Option.isSome_iff_exists]
  constructor
  · rintro ⟨r, ⟨⟨⟩, htopics, key, hkey, value, hvalue, ⟨⟩, hl, ⟨⟩, hc, hr⟩, hlistener, hconsumer⟩
    cases hr
    exact ⟨htopics, ⟨⟨key, hkey⟩, ⟨value, hvalue⟩⟩, ⟨hl, hlistener⟩, hc, hconsumer⟩
  · rintro ⟨htopics, ⟨⟨key, hkey⟩, ⟨value, hvalue⟩⟩, ⟨hl, hlistener⟩, hc, hconsumer⟩
    exact ⟨_, ⟨(), htopics, key, hkey, value, hvalue, (), hl, (), hc, rfl⟩, hlistener, hconsumer⟩

/-- A consumer given directly is found with the shared properties, which no rule is about. -/
theorem resolves_given_consumer {e : Engine} {c : ConsumerConfig} :
    Resolves ConsumerConfig.violations (e.resolveConsumer (.given c)) ↔ c.violations = [] := by
  cases hsettings : e.settings <;>
    simp [Resolves, Engine.resolveConsumer, hsettings, bind_eq_ok_iff, ConfigRef.resolve,
      Settings.applyConnection, ConsumerConfig.violations]

/-! ### Both sides together -/

section Entries

variable {draft : Draft D H} {e : Engine} (h : draft.AcceptedBy e)

include h

/-- In a registration that is right otherwise, a listener only has to obey its rules. -/
theorem AcceptedBy.listener_iff {c : ListenerConfig} :
    { draft with listener := .given c }.AcceptedBy e ↔ c.violations = [] := by
  rw [acceptedBy_iff] at h ⊢
  obtain ⟨htopics, hdecoders, -, hconsumer⟩ := h
  refine ⟨fun h => checkConfig_given.mp h.2.2.1.1, fun hrules => ?_⟩
  exact ⟨htopics, hdecoders, ⟨checkConfig_given.mpr hrules, c, rfl, hrules⟩, hconsumer⟩

/-- In a registration that is right otherwise, a consumer only has to obey its rules. -/
theorem AcceptedBy.consumer_iff {c : ConsumerConfig} :
    { draft with consumer := .given c }.AcceptedBy e ↔ c.violations = [] := by
  rw [acceptedBy_iff] at h ⊢
  obtain ⟨htopics, hdecoders, hlistener, -⟩ := h
  refine ⟨fun h => checkConfig_given.mp h.2.2.2.1, fun hrules => ?_⟩
  exact ⟨htopics, hdecoders, hlistener, checkConfig_given.mpr hrules,
    resolves_given_consumer.mpr hrules⟩

/-- In a registration that is right otherwise, a topic that has another name than the others only
has to obey its rules and to have a name that is not blank. -/
theorem AcceptedBy.topic_iff {t other : TopicExpectation} {before after : List TopicExpectation}
    (htopics : draft.topics = before ++ other :: after)
    (hname : ∀ u ∈ before ++ after, u.topicName ≠ t.topicName) :
    { draft with topics := before ++ t :: after }.AcceptedBy e ↔
      t.violations = [] ∧ isBlank t.topicName = false := by
  rw [acceptedBy_iff, checkTopics_eq_ok_iff] at h ⊢
  rw [htopics] at h
  obtain ⟨⟨-, hall, hnodup⟩, hrest⟩ := h
  constructor
  · rintro ⟨⟨-, hall, -⟩, -⟩
    exact (hall t List.mem_append_cons_self).symm
  · rintro ⟨hrules, hblank⟩
    refine ⟨⟨by simp, fun u hu => ?_, ?_⟩, hrest⟩
    · rcases List.mem_append.mp hu with hu | hu
      · exact hall u (List.mem_append_left _ hu)
      · rcases List.mem_cons.mp hu with rfl | hu
        · exact ⟨hblank, hrules⟩
        · exact hall u (List.mem_append_right _ (List.mem_cons_of_mem _ hu))
    · -- The name takes the place of one that was there once.
      rw [List.map_append, List.map_cons, List.nodup_middle, List.nodup_cons, ← List.map_append]
        at hnodup ⊢
      refine ⟨fun hmem => ?_, hnodup.2⟩
      obtain ⟨u, hu, hsame⟩ := List.mem_map.mp hmem
      exact hname u hu hsame

/-- **The settings and a registration have the same rules for an entry**, but for two: a blank
metadata field is refused only in the settings, and a topic whose name is white space only in a
registration. The registration is right otherwise: it is accepted with some other entry in the
same place, and no other topic has the name of the one at hand. -/
theorem entry_rules (name : String) :
    (∀ c : ListenerConfig, (Settings.ofListener name c).check = .ok () ↔
        { draft with listener := .given c }.AcceptedBy e ∧
          ∀ field ∈ c.metadataFields, isBlank field = false) ∧
      (∀ c : ConsumerConfig, (Settings.ofConsumer name c).check = .ok () ↔
        { draft with consumer := .given c }.AcceptedBy e) ∧
      ∀ (t other : TopicExpectation) (before after : List TopicExpectation),
        draft.topics = before ++ other :: after →
        (∀ u ∈ before ++ after, u.topicName ≠ t.topicName) →
        ({ draft with topics := before ++ t :: after }.AcceptedBy e ↔
          (Settings.ofTopic name t).check = .ok () ∧ isBlank t.topicName = false) := by
  refine ⟨fun c => ?_, fun c => ?_, fun t other before after htopics hname => ?_⟩
  · rw [Settings.check_ofListener, h.listener_iff]
  · rw [Settings.check_ofConsumer, h.consumer_iff]
  · rw [Settings.check_ofTopic, h.topic_iff htopics hname]

end Entries

/-- A registration that reads the orders and is right in every part. -/
def ordersDraft : Draft Unit Unit :=
  { ofHandler (D := Unit) () [.named "orders"] with keyDecoder := some (), valueDecoder := some () }

theorem ordersDraft_acceptedBy : ordersDraft.AcceptedBy .empty := by
  rw [acceptedBy_iff, checkTopics_eq_ok_iff]
  exact ⟨by decide, ⟨rfl, rfl⟩, ⟨rfl, _, rfl, rfl⟩, rfl, _, rfl, rfl⟩

theorem entry_rules_orders :
    ordersDraft.AcceptedBy .empty ∧
      ((Settings.ofListener "first" .default).check = .ok () ↔
        { ordersDraft with listener := .given .default }.AcceptedBy .empty ∧
          ∀ field ∈ ListenerConfig.default.metadataFields, isBlank field = false) ∧
      ((Settings.ofConsumer "first" .default).check = .ok () ↔
        { ordersDraft with consumer := .given .default }.AcceptedBy .empty) ∧
      ({ ordersDraft with topics := [.named "payments"] }.AcceptedBy .empty ↔
        (Settings.ofTopic "first" (.named "payments")).check = .ok () ∧
          isBlank "payments" = false) := by
  obtain ⟨hlistener, hconsumer, htopic⟩ := entry_rules ordersDraft_acceptedBy "first"
  exact ⟨ordersDraft_acceptedBy, hlistener .default, hconsumer .default,
    htopic (.named "payments") (.named "orders") [] [] rfl nofun⟩

/-- **Where the rules differ**: a listener with a blank metadata field is refused in the settings
and accepted in a registration, and a topic whose name is a space the other way round. -/
theorem entry_rules_differ :
    ((Settings.ofListener "first" { ListenerConfig.default with metadataFields := [" "] }).check ≠
        .ok () ∧
      { ordersDraft with
        listener := .given { ListenerConfig.default with metadataFields := [" "] } }.AcceptedBy
        .empty) ∧
      (Settings.ofTopic "first" (.named " ")).check = .ok () ∧
        ¬ { ordersDraft with topics := [.named " "] }.AcceptedBy .empty := by
  refine ⟨⟨fun h => ?_, ordersDraft_acceptedBy.listener_iff.mpr rfl⟩,
    Settings.check_ofTopic.mpr (by decide), fun h => ?_⟩
  · have hblank := (Settings.check_ofListener.mp h).2 " " (List.mem_singleton_self _)
    revert hblank
    decide
  · rw [acceptedBy_iff, checkTopics_eq_ok_iff] at h
    have hblank := (h.1.2.1 (.named " ") (List.mem_singleton_self _)).1
    revert hblank
    decide

end Draft

end StreamDispatch
