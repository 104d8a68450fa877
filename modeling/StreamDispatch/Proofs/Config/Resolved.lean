import StreamDispatch.Proofs.Config.EntryRules
import StreamDispatch.Proofs.System.Submission

/-!
# Configurations by name

A registration may give its listener and its consumer directly, or name entries of the settings.
Which of the two it does should make no difference.

For a listener that is plain, since an entry is taken as it is. A consumer is completed with the
properties that all consumers share. One that is named is completed twice, first when it is looked
up and then when the registration is resolved, while one that is given directly is completed only
once. It comes to the same because completing a consumer that is complete changes nothing
(`StreamDispatch.Settings.applyConnection_idem`), and this because a property that is there is
kept: where it comes from is one fallback after another, and falling back to the same once more
adds nothing (`StreamDispatch.Settings.get?_completeProperties`).

So a registration that names entries resolves as one that gives them directly
(`StreamDispatch.Engine.named_as_given`), and is also submitted as one
(`StreamDispatch.System.submit_named`).

## Main definitions

* `StreamDispatch.Settings.shared?`: what all consumers share.
* `StreamDispatch.Settings.Completes`: a consumer is another one, completed.
-/

namespace StreamDispatch

namespace Settings

/-! ### Completing a consumer -/

/-- The value of a property that all consumers share: it is the one in the settings, and if there
is none and the property is where the brokers are, it is their list, unless this is empty. -/
def shared? (s : Settings) (key : String) : Option String :=
  (s.properties.get? key).or
    (if key = brokersProperty ∧ s.brokers ≠ [] then some (",".intercalate s.brokers) else none)

/-- **Where a property comes from**: from the consumer, and else from what all consumers share. -/
theorem get?_completeProperties (s : Settings) (own : Dict String String) (key : String) :
    (s.completeProperties own).get? key = (own.get? key).or (s.shared? key) := by
  have hmerged := Dict.get?_foldl_insertIfAbsent_entries own s.properties
  rw [completeProperties, shared?, ← Option.or_assoc, ← hmerged]
  split
  next hbrokers => simp [List.isEmpty_iff.mp hbrokers]
  next hbrokers =>
    rw [Dict.get?_insertIfAbsent]
    by_cases hkey : key = brokersProperty
    · rw [if_pos hkey, if_pos ⟨hkey, by simpa using hbrokers⟩, hkey]
      exact Option.or_some.symm
    · rw [if_neg hkey, if_neg fun h => hkey h.1, Option.or_none]

theorem completeProperties_idem (s : Settings) (own : Dict String String) :
    s.completeProperties (s.completeProperties own) = s.completeProperties own := by
  refine Dict.ext_get? fun key => ?_
  rw [get?_completeProperties, get?_completeProperties, Option.or_assoc, Option.or_self]

/-- **Completing a consumer twice is completing it once.** -/
theorem applyConnection_idem (s : Settings) (c : ConsumerConfig) :
    s.applyConnection (s.applyConnection c) = s.applyConnection c := by
  rw [applyConnection, applyConnection, completeProperties_idem]

/-- **A consumer is another one, completed**: each property is that of the other one if it has it,
and else the shared one. All the rest is that of the other one. -/
structure Completes (s : Settings) (c completed : ConsumerConfig) : Prop where
  properties : ∀ key, completed.properties.get? key = (c.properties.get? key).or (s.shared? key)
  groupId : completed.groupId = c.groupId
  clientIdPrefix : completed.clientIdPrefix = c.clientIdPrefix
  commitStrategy : completed.commitStrategy = c.commitStrategy

/-- There is one way to complete a consumer. -/
theorem completes_iff {s : Settings} {c completed : ConsumerConfig} :
    s.Completes c completed ↔ completed = s.applyConnection c := by
  constructor
  · rintro ⟨hproperties, hgroup, hprefix, hstrategy⟩
    obtain ⟨groupId, clientIdPrefix, commitStrategy, properties⟩ := completed
    obtain rfl : properties = s.completeProperties c.properties :=
      Dict.ext_get? fun key => (hproperties key).trans (s.get?_completeProperties _ key).symm
    obtain rfl := hgroup
    obtain rfl := hprefix
    obtain rfl := hstrategy
    rfl
  · rintro rfl
    exact ⟨s.get?_completeProperties c.properties, rfl, rfl, rfl⟩

end Settings

/-! ### Resolving a registration -/

variable {D H : Type}

theorem Settings.find_eq_ok {α : Type} {kind : ConfigKind} {entries : Dict String α} {name : String}
    {a : α} (h : entries.get? name = some a) : Settings.find kind entries name = .ok a := by
  rw [Settings.find, h]

namespace Engine

variable {e : Engine} {s : Settings}

theorem resolveListener_named (hs : e.settings = some s) {name : String} {l : ListenerConfig}
    (h : s.listeners.get? name = some l) :
    e.resolveListener (.named name) = e.resolveListener (.given l) := by
  have hloaded : e.loaded .listener name = .ok s := by rw [loaded, hs]
  have hfound : s.listener name = .ok l := Settings.find_eq_ok h
  simp only [resolveListener, ConfigRef.resolve, hloaded, hfound, bind, Except.bind]

theorem resolveConsumer_given (hs : e.settings = some s) (c : ConsumerConfig) :
    e.resolveConsumer (.given c) = .ok (s.applyConnection c) := by
  simp only [resolveConsumer, ConfigRef.resolve, hs, bind, Except.bind]

/-- A consumer that is named has been completed before. -/
theorem resolveConsumer_named (hs : e.settings = some s) {name : String} {c : ConsumerConfig}
    (h : s.consumers.get? name = some c) :
    e.resolveConsumer (.named name) = e.resolveConsumer (.given c) := by
  have hloaded : e.loaded .consumer name = .ok s := by rw [loaded, hs]
  have hfound : s.consumer name = .ok (s.applyConnection c) := by
    rw [Settings.consumer, Settings.find_eq_ok h]
    rfl
  rw [resolveConsumer_given hs]
  simp only [resolveConsumer, ConfigRef.resolve, hloaded, hfound, hs, bind, Except.bind,
    s.applyConnection_idem]

/-- **A registration that names entries resolves as one that gives them directly.** What it
resolves to, if both entries obey their rules, is the listener as it is and the consumer completed,
and completing it once more would change nothing. -/
theorem named_as_given (hs : e.settings = some s) (r : Registration D H) :
    (∀ name l, s.listeners.get? name = some l →
        e.resolve { r with listener := .named name } =
          e.resolve { r with listener := .given l }) ∧
      (∀ name c, s.consumers.get? name = some c →
        e.resolve { r with consumer := .named name } =
          e.resolve { r with consumer := .given c }) ∧
      (∀ l c found completed,
        e.resolve { r with listener := .given l, consumer := .given c } = .ok (found, completed) ↔
          (l.violations = [] ∧ c.violations = []) ∧ found = l ∧ s.Completes c completed) ∧
      ∀ c, s.applyConnection (s.applyConnection c) = s.applyConnection c := by
  refine ⟨fun name l h => ?_, fun name c h => ?_, fun l c found completed => ?_,
    s.applyConnection_idem⟩
  · simp only [resolve, resolveListener_named hs h]
  · simp only [resolve, resolveConsumer_named hs h]
  · rw [Settings.completes_iff]
    simp only [resolve, resolveConsumer_given hs, bind_eq_ok_iff]
    constructor
    · rintro ⟨_, ⟨⟩, _, ⟨⟩, ⟨⟩, hl, ⟨⟩, hc, ⟨⟩⟩
      exact ⟨⟨checkRules_eq_ok_iff.mp hl, checkRules_eq_ok_iff.mp hc⟩, rfl, rfl⟩
    · rintro ⟨⟨hl, hc⟩, rfl, rfl⟩
      exact ⟨found, rfl, _, rfl, (), checkRules_eq_ok_iff.mpr hl, (),
        checkRules_eq_ok_iff.mpr hc, rfl⟩

/-- A consumer that says itself where its brokers are. -/
def connectedConsumer : ConsumerConfig :=
  { ConsumerConfig.default with
    properties := (∅ : Dict String String).insert "bootstrap.servers" "own:9092" }

/-- Settings that say three times where the brokers are: in their list, in the properties that all
consumers share, and in those of the only consumer. -/
def thriceConnected : Settings :=
  { Settings.empty with
    brokers := ["one:9092", "two:9092"]
    properties := (∅ : Dict String String)
      |>.insert "auto.offset.reset" "latest"
      |>.insert "bootstrap.servers" "shared:9092"
    consumers := (∅ : Dict String ConsumerConfig).insert "first" connectedConsumer
    listeners := (∅ : Dict String ListenerConfig).insert "first" .default }

theorem named_as_given_thriceConnected :
    (⟨some thriceConnected, []⟩ : Engine).resolve
        { History.orderReader "reader" with
          listener := .named "first", consumer := .named "first" } =
      .ok (.default, { connectedConsumer with
        properties := connectedConsumer.properties.insert "auto.offset.reset" "latest" }) := by
  obtain ⟨hlistener, -⟩ := named_as_given (e := ⟨some thriceConnected, []⟩) rfl
    { History.orderReader "reader" with consumer := .named "first" }
  obtain ⟨-, hconsumer, hgiven, -⟩ := named_as_given (e := ⟨some thriceConnected, []⟩) rfl
    { History.orderReader "reader" with listener := .given .default }
  rw [hlistener "first" .default rfl, hconsumer "first" connectedConsumer rfl]
  exact (hgiven _ _ _ _).mpr ⟨⟨rfl, rfl⟩, rfl, Settings.completes_iff.mpr rfl⟩

end Engine

/-! ### Submitting a registration -/

namespace System

variable {sys : System} {e : Engine} {s : Settings}

/-- What is submitted are resolved configurations, and how they were given is not looked at. -/
theorem submit_congr (he : sys.engine = some e) {r : Registration D H}
    {listener : ConfigRef ListenerConfig} {consumer : ConfigRef ConsumerConfig}
    (h : ∀ e' : Engine, e'.settings = e.settings →
      e'.resolve { r with listener := listener, consumer := consumer } = e'.resolve r) :
    sys.submit { r with listener := listener, consumer := consumer } = sys.submit r := by
  simp only [submit, he]
  cases hevict : sys.evict e r.name with
  | error error => rfl
  | ok cleared =>
    obtain ⟨sys', e'⟩ := cleared
    have hsettings : e'.settings = e.settings := by rw [(evict_without hevict).2, Engine.without]
    simp only [h e' hsettings]
    rfl

/-- **A registration that names entries is submitted as one that gives them directly.** -/
theorem submit_named (he : sys.engine = some e) (hs : e.settings = some s)
    {listener consumer : String} {l : ListenerConfig} {c : ConsumerConfig}
    (hl : s.listeners.get? listener = some l) (hc : s.consumers.get? consumer = some c)
    (r : Registration D H) :
    sys.submit { r with listener := .named listener, consumer := .named consumer } =
      sys.submit { r with listener := .given l, consumer := .given c } := by
  refine submit_congr he (r := { r with listener := .given l, consumer := .given c }) ?_
  intro e' hsettings
  rw [hs] at hsettings
  simp only [Engine.resolve, Engine.resolveListener_named hsettings hl,
    Engine.resolveConsumer_named hsettings hc]

end System

end StreamDispatch
