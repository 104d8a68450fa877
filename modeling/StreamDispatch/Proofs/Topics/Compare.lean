import StreamDispatch.Topic

/-!
# What comparing a topic reports

Comparing an expectation with a live topic walks over three kinds of fields and a map of
entries. What it is to find is said once, without the walk
(`StreamDispatch.TopicExpectation.Differs`): a topic that is not there differs by that alone,
and one that is there by each number and each entry that was expected to be otherwise. The walk
reports these differences and no others, so that it reports nothing exactly if the topic has
the expected shape.

## Main statements

* `StreamDispatch.TopicExpectation.mem_compare`: what is reported are the differences.
* `StreamDispatch.TopicExpectation.compare_eq_nil_iff`: nothing is reported exactly if the live
  topic satisfies the expectation.
-/

namespace StreamDispatch

namespace TopicExpectation

/-- **What counts as a difference** between an expectation and a live topic, which may be
missing. -/
inductive Differs (t : TopicExpectation) : Option TopicDescription → TopicMismatch → Prop
  | missingTopic : t.Differs none (.missingTopic t.topicName)
  | partitionCount {d : TopicDescription} {n : Nat} (expected : t.partitionCount = some n)
      (other : d.partitionCount ≠ n) :
      t.Differs (some d) (.partitionCount t.topicName n d.partitionCount)
  | replicationFactor {d : TopicDescription} {n : Nat} (expected : t.replicationFactor = some n)
      (other : d.replicationFactor ≠ n) :
      t.Differs (some d) (.replicationFactor t.topicName n d.replicationFactor)
  | configEntry {d : TopicDescription} {key value : String}
      (expected : t.configEntries.get? key = some value)
      (other : d.configEntries.get? key ≠ some value) :
      t.Differs (some d) (.configEntry t.topicName key value (d.configEntries.get? key))

theorem mem_compareCount {mismatch : Nat → Nat → TopicMismatch} {expected : Option Nat}
    {actual : Nat} {m : TopicMismatch} :
    m ∈ compareCount mismatch expected actual ↔
      ∃ n, expected = some n ∧ actual ≠ n ∧ m = mismatch n actual := by
  cases expected with
  | none => simp [compareCount]
  | some n =>
    rw [compareCount]
    split <;> grind

theorem mem_compareEntries {topic : String} {expected actual : Dict String String}
    {m : TopicMismatch} :
    m ∈ compareEntries topic expected actual ↔
      ∃ key value, expected.get? key = some value ∧ actual.get? key ≠ some value ∧
        m = .configEntry topic key value (actual.get? key) := by
  rw [compareEntries, List.mem_filterMap]
  constructor
  · rintro ⟨⟨key, value⟩, hmem, hm⟩
    split at hm
    next => cases hm
    next hother =>
      exact ⟨key, value, expected.mem_entries_iff.mp hmem, hother, (Option.some.inj hm).symm⟩
  · rintro ⟨key, value, hexpected, hother, rfl⟩
    exact ⟨(key, value), expected.mem_entries_iff.mpr hexpected, if_neg hother⟩

/-- **What is reported are the differences.** -/
theorem mem_compare {t : TopicExpectation} {actual : Option TopicDescription}
    {m : TopicMismatch} : m ∈ t.compare actual ↔ t.Differs actual m := by
  cases actual with
  | none =>
    rw [compare, List.mem_singleton]
    constructor
    · rintro rfl
      exact .missingTopic
    · rintro ⟨⟩
      rfl
  | some d =>
    rw [compare, List.mem_append, List.mem_append, mem_compareCount, mem_compareCount,
      mem_compareEntries]
    constructor
    · rintro ((⟨n, hexpected, hother, rfl⟩ | ⟨n, hexpected, hother, rfl⟩) |
        ⟨key, value, hexpected, hother, rfl⟩)
      · exact .partitionCount hexpected hother
      · exact .replicationFactor hexpected hother
      · exact .configEntry hexpected hother
    · intro h
      cases h with
      | partitionCount hexpected hother => exact .inl (.inl ⟨_, hexpected, hother, rfl⟩)
      | replicationFactor hexpected hother => exact .inl (.inr ⟨_, hexpected, hother, rfl⟩)
      | configEntry hexpected hother => exact .inr ⟨_, _, hexpected, hother, rfl⟩

/-- A live topic is as expected exactly if it differs in nothing. -/
theorem satisfiedBy_iff {t : TopicExpectation} {actual : Option TopicDescription} :
    t.satisfiedBy actual ↔ ∀ m, ¬ t.Differs actual m := by
  constructor
  · rintro ⟨d, rfl, hpartitions, hreplicas, hentries⟩ m h
    cases h with
    | partitionCount hexpected hother => exact hother (hpartitions _ hexpected)
    | replicationFactor hexpected hother => exact hother (hreplicas _ hexpected)
    | configEntry hexpected hother => exact hother (hentries _ _ hexpected)
  · intro h
    cases actual with
    | none => exact absurd .missingTopic (h _)
    | some d =>
      exact ⟨d, rfl, fun n hn => Decidable.of_not_not fun hne => h _ (.partitionCount hn hne),
        fun n hn => Decidable.of_not_not fun hne => h _ (.replicationFactor hn hne),
        fun key value hv => Decidable.of_not_not fun hne => h _ (.configEntry hv hne)⟩

/-- **Nothing is reported exactly if the live topic satisfies the expectation.** -/
theorem compare_eq_nil_iff {t : TopicExpectation} {actual : Option TopicDescription} :
    t.compare actual = [] ↔ t.satisfiedBy actual := by
  simp only [satisfiedBy_iff, List.eq_nil_iff_forall_not_mem, mem_compare]

end TopicExpectation

end StreamDispatch
