import Mathlib.Data.List.Basic
import StreamDispatch.Proofs.Topics.Compare

/-!
# What a report of differences is good for

Comparing an expectation with a live topic gives a report, and whoever gets it wants to act on
it. Three things make it fit for that.

* Each difference is in it once, and they are in a fixed order
  (`StreamDispatch.TopicMismatch.Precedes`): a topic that is missing, the number of partitions,
  the number of replicas, the entries by their keys.
* Each difference says what is really there, so the expectation can be *amended* by it
  (`StreamDispatch.TopicExpectation.amend`): the field it names gets the live value, and an entry
  that the topic does not have is given up.
* Amending one difference settles this one and no other
  (`StreamDispatch.TopicExpectation.differs_amend`). Hence amending all that are reported, in
  any order, leaves nothing to report.

The last point is what ties a reported value to its field: if two values changed places, or one
were left out, the amended expectation would still differ. Nothing can be amended about a topic
that is missing, which differs from every expectation.

## Main statements

* `StreamDispatch.TopicExpectation.precedes_compare`: reports are in order.
* `StreamDispatch.TopicExpectation.compare_exact`: what comparing reports, and that amending the
  expectation accordingly settles it.
-/

namespace StreamDispatch

/-! ### The order of a report -/

namespace TopicMismatch

/-- The part of a report that a difference belongs to. -/
def part : TopicMismatch → Nat
  | .missingTopic _ => 0
  | .partitionCount _ _ _ => 1
  | .replicationFactor _ _ _ => 2
  | .configEntry _ _ _ _ => 3

/-- **Which difference is reported before which**: it belongs to an earlier part, or it is about
an entry with a lesser key. -/
inductive Precedes : TopicMismatch → TopicMismatch → Prop
  | part {m m' : TopicMismatch} (lt : m.part < m'.part) : Precedes m m'
  | key {topic topic' key key' expected expected' : String} {actual actual' : Option String}
      (lt : Ord.compare key key' = .lt) :
      Precedes (.configEntry topic key expected actual) (.configEntry topic' key' expected' actual')

/-- Nothing is reported before itself. -/
theorem Precedes.ne {m m' : TopicMismatch} (h : m.Precedes m') : m ≠ m' := by
  rintro rfl
  cases h with
  | part lt => exact Nat.lt_irrefl _ lt
  | key lt => simp [Std.ReflCmp.compare_self] at lt

/-- Parts of a report that are in order each, one after the other. -/
theorem pairwise_precedes_append {report more : List TopicMismatch}
    (h : report.Pairwise Precedes) (hmore : more.Pairwise Precedes)
    (hparts : ∀ m ∈ report, ∀ m' ∈ more, m.part < m'.part) :
    (report ++ more).Pairwise Precedes :=
  List.pairwise_append.mpr ⟨h, hmore, fun m hm m' hm' => .part (hparts m hm m' hm')⟩

end TopicMismatch

namespace TopicExpectation

open TopicMismatch

theorem precedes_compareCount (mismatch : Nat → Nat → TopicMismatch) (expected : Option Nat)
    (actual : Nat) : (compareCount mismatch expected actual).Pairwise Precedes := by
  rcases expected with _ | n
  · exact .nil
  · rw [compareCount]
    split
    · exact .nil
    · exact List.pairwise_singleton _ _

theorem precedes_compareEntries (topic : String) (expected actual : Dict String String) :
    (compareEntries topic expected actual).Pairwise Precedes := by
  rw [compareEntries, List.pairwise_filterMap]
  refine expected.sorted.imp fun {e e'} hlt m hm m' hm' => ?_
  rw [Option.ite_none_left_eq_some, Option.some_inj] at hm hm'
  rw [← hm.2, ← hm'.2]
  exact .key hlt

/-- **Reports are in order.** -/
theorem precedes_compare (t : TopicExpectation) (actual : Option TopicDescription) :
    (t.compare actual).Pairwise Precedes := by
  rcases actual with _ | d
  · exact List.pairwise_singleton _ _
  · refine pairwise_precedes_append (pairwise_precedes_append (precedes_compareCount _ _ _)
      (precedes_compareCount _ _ _) ?_) (precedes_compareEntries _ _ _) ?_
    · intro m hm m' hm'
      obtain ⟨n, -, -, rfl⟩ := mem_compareCount.mp hm
      obtain ⟨n', -, -, rfl⟩ := mem_compareCount.mp hm'
      exact Nat.lt_succ_self 1
    · intro m hm m' hm'
      obtain ⟨_, _, -, -, rfl⟩ := mem_compareEntries.mp hm'
      rcases List.mem_append.mp hm with hm | hm <;>
        obtain ⟨n, -, -, rfl⟩ := mem_compareCount.mp hm <;> simp [TopicMismatch.part]

/-- Each difference is reported once. -/
theorem nodup_compare (t : TopicExpectation) (actual : Option TopicDescription) :
    (t.compare actual).Nodup :=
  (t.precedes_compare actual).imp Precedes.ne

/-! ### Amending an expectation -/

/-- **An expectation as a difference suggests it**: the field that it is about gets the live
value, and an entry that the live topic does not have is given up. -/
def amend (t : TopicExpectation) : TopicMismatch → TopicExpectation
  | .missingTopic _ => t
  | .partitionCount _ _ actual => { t with partitionCount := some actual }
  | .replicationFactor _ _ actual => { t with replicationFactor := some actual }
  | .configEntry _ key _ (some actual) =>
    { t with configEntries := t.configEntries.insert key actual }
  | .configEntry _ key _ none => { t with configEntries := t.configEntries.erase key }

/-- An expectation amended by all differences of a report. -/
def amendAll (t : TopicExpectation) (report : List TopicMismatch) : TopicExpectation :=
  report.foldl amend t

/-- The entries after an entry was amended. -/
theorem get?_amend (t : TopicExpectation) (topic key expected : String) (actual : Option String)
    (q : String) :
    (t.amend (.configEntry topic key expected actual)).configEntries.get? q =
      if q = key then actual else t.configEntries.get? q := by
  rcases actual with _ | actual
  · exact Dict.get?_erase t.configEntries key q
  · exact Dict.get?_insert t.configEntries key q actual

/-- An amended entry is all that is different. -/
theorem amend_entry (t : TopicExpectation) (topic key expected : String)
    (actual : Option String) :
    t.amend (.configEntry topic key expected actual) =
      { t with
        configEntries := (t.amend (.configEntry topic key expected actual)).configEntries } := by
  rcases actual with _ | actual <;> rfl

variable {t : TopicExpectation} {d : TopicDescription} {m : TopicMismatch}

/-- **Amending one difference settles this one, and no other.** -/
theorem differs_amend (h : t.Differs (some d) m) (m' : TopicMismatch) :
    (t.amend m).Differs (some d) m' ↔ t.Differs (some d) m' ∧ m' ≠ m := by
  cases h with
  | partitionCount hn hother =>
    constructor
    · rintro (_ | ⟨hlive, hstill⟩ | ⟨hn', hother'⟩ | ⟨hvalue', hother'⟩)
      · exact absurd (Option.some.inj hlive) hstill
      · exact ⟨.replicationFactor hn' hother', by rintro ⟨⟩⟩
      · exact ⟨.configEntry hvalue' hother', by rintro ⟨⟩⟩
    · rintro ⟨_ | ⟨hn', hother'⟩ | ⟨hn', hother'⟩ | ⟨hvalue', hother'⟩, hne⟩
      · obtain rfl := Option.some.inj (hn.symm.trans hn')
        exact absurd rfl hne
      · exact .replicationFactor hn' hother'
      · exact .configEntry hvalue' hother'
  | replicationFactor hn hother =>
    constructor
    · rintro (_ | ⟨hn', hother'⟩ | ⟨hlive, hstill⟩ | ⟨hvalue', hother'⟩)
      · exact ⟨.partitionCount hn' hother', by rintro ⟨⟩⟩
      · exact absurd (Option.some.inj hlive) hstill
      · exact ⟨.configEntry hvalue' hother', by rintro ⟨⟩⟩
    · rintro ⟨_ | ⟨hn', hother'⟩ | ⟨hn', hother'⟩ | ⟨hvalue', hother'⟩, hne⟩
      · exact .partitionCount hn' hother'
      · obtain rfl := Option.some.inj (hn.symm.trans hn')
        exact absurd rfl hne
      · exact .configEntry hvalue' hother'
  | @configEntry _ key value hvalue hother =>
    rw [amend_entry]
    constructor
    · rintro (_ | ⟨hn', hother'⟩ | ⟨hn', hother'⟩ | @⟨_, q, _, hlive, hstill⟩)
      · exact ⟨.partitionCount hn' hother', by rintro ⟨⟩⟩
      · exact ⟨.replicationFactor hn' hother', by rintro ⟨⟩⟩
      · rw [get?_amend] at hlive
        by_cases hq : q = key
        · -- The amended entry is as it is in the live topic.
          rw [if_pos hq] at hlive
          exact absurd (hq ▸ hlive) hstill
        · rw [if_neg hq] at hlive
          refine ⟨.configEntry hlive hstill, fun heq => hq ?_⟩
          injection heq
    · rintro ⟨_ | ⟨hn', hother'⟩ | ⟨hn', hother'⟩ | @⟨_, q, _, hvalue', hother'⟩, hne⟩
      · exact .partitionCount hn' hother'
      · exact .replicationFactor hn' hother'
      · refine .configEntry ?_ hother'
        rw [get?_amend, if_neg]
        · exact hvalue'
        · rintro rfl
          obtain rfl := Option.some.inj (hvalue.symm.trans hvalue')
          exact absurd rfl hne

/-- **Amending by several differences** settles these, and no other. -/
theorem differs_amendAll {report : List TopicMismatch}
    (hreport : ∀ m ∈ report, t.Differs (some d) m) (hnodup : report.Nodup) (m' : TopicMismatch) :
    (t.amendAll report).Differs (some d) m' ↔ t.Differs (some d) m' ∧ m' ∉ report := by
  induction report generalizing t with
  | nil => simp [amendAll]
  | cons m report ih =>
    obtain ⟨hm, hrest⟩ := List.forall_mem_cons.mp hreport
    obtain ⟨hfresh, hnodup⟩ := List.nodup_cons.mp hnodup
    -- What is left of the report is still different once its first difference is settled.
    have hleft : ∀ m' ∈ report, (t.amend m).Differs (some d) m' := fun m' hm' =>
      (differs_amend hm m').mpr ⟨hrest m' hm', fun heq => hfresh (heq ▸ hm')⟩
    rw [amendAll, List.foldl_cons, ← amendAll, ih hleft hnodup, differs_amend hm, List.mem_cons,
      not_or, and_assoc]

/-- **Amending by a whole report leaves nothing to report.** -/
theorem compare_amendAll (t : TopicExpectation) (d : TopicDescription) :
    (t.amendAll (t.compare (some d))).compare (some d) = [] := by
  refine List.eq_nil_iff_forall_not_mem.mpr fun m hm => ?_
  have hdiffers := (differs_amendAll (fun m hm => mem_compare.mp hm) (t.nodup_compare _) m).mp
    (mem_compare.mp hm)
  exact hdiffers.2 (mem_compare.mpr hdiffers.1)

/-! ### All of it -/

/-- Of the live entries only those matter that are expected. -/
theorem compare_congr {d' : TopicDescription} (hpartitions : d'.partitionCount = d.partitionCount)
    (hreplicas : d'.replicationFactor = d.replicationFactor)
    (hentries : ∀ key ∈ t.configEntries.keys,
      d'.configEntries.get? key = d.configEntries.get? key) :
    t.compare (some d') = t.compare (some d) := by
  have hcompare : compareEntries t.topicName t.configEntries d'.configEntries =
      compareEntries t.topicName t.configEntries d.configEntries := by
    refine List.filterMap_congr fun e he => ?_
    rw [hentries e.1 (List.mem_map_of_mem he)]
  rw [compare, compare, hpartitions, hreplicas, hcompare]

/-- **What comparing an expectation with the live topics reports.** Nothing, exactly if the topic
is there and as expected; and else each difference once and in order, with what was expected and
what is there. If the topic is there, then amending the expectation by the report settles
everything, and another topic that has the same in every place that the expectation is about
gives the same report. -/
theorem compare_exact (t : TopicExpectation) :
    (∀ actual, (t.compare actual = [] ↔ t.satisfiedBy actual) ∧
      (∀ m, m ∈ t.compare actual ↔ t.Differs actual m) ∧
      (t.compare actual).Nodup ∧ (t.compare actual).Pairwise Precedes) ∧
    ∀ d, (t.amendAll (t.compare (some d))).compare (some d) = [] ∧
      ∀ d' : TopicDescription, d'.partitionCount = d.partitionCount →
        d'.replicationFactor = d.replicationFactor →
        (∀ key ∈ t.configEntries.keys, d'.configEntries.get? key = d.configEntries.get? key) →
        t.compare (some d') = t.compare (some d) :=
  ⟨fun actual => ⟨compare_eq_nil_iff, fun _ => mem_compare, t.nodup_compare actual,
      t.precedes_compare actual⟩,
    fun d => ⟨t.compare_amendAll d, fun _ => compare_congr⟩⟩

/-- Three partitions are expected, and two entries. -/
def strictOrders : TopicExpectation :=
  ⟨"orders", some 3, some 1, .ofList [("cleanup.policy", "compact"), ("retention.ms", "1000")]⟩

/-- A topic with one partition, with one of the entries in another way and without the other. -/
def looseOrders : TopicDescription := ⟨1, 1, .ofList [("cleanup.policy", "delete")]⟩

/-- All three differences are reported, in order, also if the topic has an entry more; and
without them nothing is. -/
theorem compare_exact_strictOrders :
    strictOrders.compare (some looseOrders) =
        [.partitionCount "orders" 3 1,
          .configEntry "orders" "cleanup.policy" "compact" (some "delete"),
          .configEntry "orders" "retention.ms" "1000" none] ∧
      (strictOrders.amendAll (strictOrders.compare (some looseOrders))).compare
        (some looseOrders) = [] ∧
      strictOrders.compare (some { looseOrders with
          configEntries := looseOrders.configEntries.insert "segment.ms" "5" }) =
        strictOrders.compare (some looseOrders) := by
  obtain ⟨-, hlive⟩ := compare_exact strictOrders
  obtain ⟨hamended, hsame⟩ := hlive looseOrders
  exact ⟨by decide, hamended, hsame _ rfl rfl (by decide +kernel)⟩

end TopicExpectation

end StreamDispatch
