import Mathlib
import StreamDispatch.Proofs.Telemetry.Series

/-!
# What is exported of a registration

A counter has one series for each combination of labels. Whoever looks at a registration asks for
all series of a name that have some labels, whatever their other labels are, and adds up what they
show (`StreamDispatch.exported`); of a histogram there is one series for each registration
(`StreamDispatch.observed`). Both follow the samples: they show what the samples of the registration
contribute, and samples of other registrations do not matter.

A series is a word of 64 bits, and goes round. A sum of words then shows the lower word of what was
counted, and what was counted itself as long as that is no more than a word
(`StreamDispatch.Shows`).

## Main definitions

* `StreamDispatch.Series.Has`, `StreamDispatch.exported`, `StreamDispatch.observed`.
* `StreamDispatch.Shows`: a sum of words and a number.

## Main statements

* `StreamDispatch.shows_exported`: what the counters of a registration show.
* `StreamDispatch.observed_eq`: what the histograms of a registration show.
-/

namespace StreamDispatch

/-! ### Sums of words -/

/-- A number that is shown in words, and may have gone round, shows what was counted. -/
structure Shows (shown counted : Nat) : Prop where
  word : lowWord64 shown = lowWord64 counted
  exact : counted ≤ maxWord64 → shown = counted

theorem Shows.add {shown shown' counted counted' : Nat} (h : Shows shown counted)
    (h' : Shows shown' counted') : Shows (shown + shown') (counted + counted') where
  word := by rw [lowWord64_add, h.word, h'.word, ← lowWord64_add]
  exact hle := by
    rw [h.exact (Nat.le_trans (Nat.le_add_right _ _) hle),
      h'.exact (Nat.le_trans (Nat.le_add_left _ _) hle)]

theorem shows_lowWord64 (counted : Nat) : Shows (lowWord64 counted) counted where
  word := Nat.mod_mod _ _
  exact := lowWord64_eq_self

/-- A sum of what shows something shows the sum of it. -/
theorem shows_sum {α : Type} (l : List α) {shown counted : α → Nat}
    (h : ∀ a, Shows (shown a) (counted a)) : Shows (l.map shown).sum (l.map counted).sum := by
  induction l with
  | nil => exact ⟨rfl, fun _ => rfl⟩
  | cons a rest ih =>
    rw [List.map_cons, List.map_cons, List.sum_cons, List.sum_cons]
    exact (h a).add ih

/-! ### Sums over the entries of a dictionary -/

/-- The sum of the entries with some keys. -/
def Dict.sumOver (d : Dict Series Nat) (p : Series → Bool) : Nat :=
  ((d.entries.filter fun e => p e.1).map (·.2)).sum

/-- One entry apart from the others. -/
theorem Dict.sumOver_erase (d : Dict Series Nat) (p : Series → Bool) (k : Series) :
    d.sumOver p = (if p k then d.getD k 0 else 0) + (d.erase k).sumOver p := by
  cases hk : d.get? k with
  | none =>
    have hsame : d.erase k = d := by
      refine ext_get? fun q => ?_
      rw [get?_erase]
      split
      next hq => rw [hq, hk]
      next => rfl
    rw [hsame, getD, hk, Option.getD_none, ite_self, Nat.zero_add]
  | some v =>
    have hmem : ∀ e, e ∈ d.entries ↔ e ∈ (k, v) :: (d.erase k).entries := by
      rintro ⟨q, a⟩
      rw [mem_entries_iff, List.mem_cons, mem_entries_iff, get?_erase, Prod.mk.injEq]
      by_cases hq : q = k
      · rw [hq, hk, if_pos rfl]
        simp [eq_comm]
      · simp [hq]
    have hnew : (k, v) ∉ (d.erase k).entries := by
      rw [mem_entries_iff, get?_erase, if_pos rfl]
      exact (Option.some_ne_none v).symm
    have hperm := (List.perm_ext_iff_of_nodup d.nodup_entries
      (List.nodup_cons.mpr ⟨hnew, (d.erase k).nodup_entries⟩)).mpr hmem
    rw [sumOver, ((hperm.filter fun e => p e.1).map (·.2)).sum_eq, List.filter_cons, getD, hk,
      Option.getD_some]
    split
    next => rw [List.map_cons, List.sum_cons, sumOver]
    next => rw [Nat.zero_add, sumOver]

/-- **What is summed up by series** is what was contributed to them. -/
theorem sumOver_sumSeries (steps : List (Series × Nat)) (p : Series → Bool) :
    (sumSeries steps).sumOver p = ((steps.filter fun step => p step.1).map (·.2)).sum := by
  induction steps using List.reverseRecOn with
  | nil => rfl
  | append_singleton steps step ih =>
    obtain ⟨k, n⟩ := step
    have herase : ∀ v, ((sumSeries steps).insert k v).erase k = (sumSeries steps).erase k := by
      intro v
      refine Dict.ext_get? fun q => ?_
      rw [Dict.get?_erase, Dict.get?_erase]
      split
      next => rfl
      next hq => rw [Dict.get?_insert_of_ne _ hq]
    have hvalue : (((sumSeries steps).get? k).map (· + n)).getD n =
        (sumSeries steps).getD k 0 + n := by
      rw [Dict.getD]
      cases (sumSeries steps).get? k with
      | none => exact (Nat.zero_add n).symm
      | some sum => rfl
    rw [List.filter_append, List.map_append, List.sum_append, ← ih, sumSeries_concat,
      Dict.sumOver_erase _ p k, Dict.sumOver_erase (sumSeries steps) p k, herase, Dict.getD,
      Dict.get?_insert_self, Option.getD_some, hvalue, List.filter_singleton]
    cases p k with
    | false => exact (Nat.add_zero _).symm
    | true =>
      show _ + n + _ = _ + _ + n
      exact Nat.add_right_comm _ _ _

/-! ### Series with some labels -/

/-- Whether a series has a name and some labels, among others. -/
def Series.Has (name : String) (labels : List (String × String)) (s : Series) : Bool :=
  s.name == name && labels.all s.labels.contains

/-- The sum of what the counters of a name show, over all series of a registration that have some
labels. -/
def exported (samples : List Sample) (registration name : String)
    (labels : List (String × String)) : Nat :=
  (counters samples).sumOver (Series.Has name (("registration", registration) :: labels))

/-- The observations of a histogram of a registration. -/
def observed (samples : List Sample) (registration name : String) : List Float :=
  (histograms samples).getD (registrationSeries name registration []) []

/-- The registration of a sample. -/
def Sample.registration : Sample → String
  | .pollBatch r _ => r
  | .outcome r _ _ => r
  | .decision r _ => r
  | .commit r _ _ => r
  | .handlerDuration r _ => r
  | .workerStarted r => r
  | .workerStopped r _ => r

/-- The samples of a registration. -/
def samplesOf (samples : List Sample) (registration : String) : List Sample :=
  samples.filter (·.registration = registration)

/-- What a sample adds to the counters that have a name and some labels. -/
def Sample.adds (name : String) (labels : List (String × String)) (s : Sample) : Nat :=
  ((s.increments.filter fun step => step.1.Has name labels).map (·.2)).sum

/-- What a sample adds to the histograms of a name. -/
def Sample.observes (name : String) (s : Sample) : List Float :=
  (s.observations.filter fun step => step.1.name = name).map (·.2)

/-- A sample adds one at most to a counter that does not count offsets. -/
theorem Sample.adds_le_one (s : Sample) {name : String}
    (hname : name ≠ "consumer_committed_offsets_total") (labels : List (String × String)) :
    s.adds name labels ≤ 1 := by
  have hone : ∀ step : Series × Nat, step.2 = 1 →
      ((([step].filter fun step => step.1.Has name labels)).map (·.2)).sum ≤ 1 := by
    intro step hstep
    rw [List.filter_singleton]
    cases step.1.Has name labels with
    | false => exact Nat.zero_le 1
    | true => exact Nat.le_of_eq hstep
  cases s with
  | pollBatch r size => exact hone _ rfl
  | outcome r topic o => exact hone _ rfl
  | decision r d => exact hone _ rfl
  | commit r offsets success =>
    cases success with
    | false => exact hone _ rfl
    | true =>
      have hoffsets : (registrationSeries "consumer_committed_offsets_total" r []).Has name labels =
          false := by
        rw [Series.Has, registrationSeries, beq_eq_false_iff_ne.mpr hname.symm, Bool.false_and]
      rw [adds, increments, List.filter_cons, List.filter_cons_of_neg
        (by rw [hoffsets]; exact Bool.false_ne_true)]
      split
      · exact Nat.le_refl 1
      · exact Nat.zero_le 1
  | workerStopped r failed =>
    cases failed with
    | false => exact Nat.zero_le 1
    | true => exact hone _ rfl
  | _ => exact Nat.zero_le 1

/-- Samples of other registrations add nothing. -/
theorem Sample.adds_of_ne {s : Sample} {registration : String}
    (h : s.registration ≠ registration) (name : String) (labels : List (String × String)) :
    s.adds name (("registration", registration) :: labels) = 0 := by
  have hlabel : ∀ step ∈ s.increments, ("registration", registration) ∈ step.1.labels →
      s.registration = registration := by
    cases s with
    | commit r offsets success =>
      cases success <;> simp [increments, registrationSeries, Sample.registration, eq_comm]
    | workerStopped r failed =>
      cases failed <;> simp [increments, registrationSeries, Sample.registration, eq_comm]
    | _ => simp [increments, registrationSeries, Sample.registration, eq_comm]
  have hnone : s.increments.filter (fun step =>
      step.1.Has name (("registration", registration) :: labels)) = [] := by
    refine List.filter_eq_nil_iff.mpr fun step hmem hhas => h (hlabel step hmem ?_)
    rw [Series.Has, Bool.and_eq_true, List.all_cons, Bool.and_eq_true] at hhas
    exact List.contains_iff_mem.mp hhas.2.1
  rw [adds, hnone]
  rfl

/-- **What the counters of a registration show** is what its samples add to them. -/
theorem shows_exported (samples : List Sample) (registration name : String)
    (labels : List (String × String)) :
    Shows (exported samples registration name labels)
      ((samplesOf samples registration).map
        (·.adds name (("registration", registration) :: labels))).sum := by
  have hsum : (sumSeries (samples.flatMap Sample.increments)).sumOver
        (Series.Has name (("registration", registration) :: labels)) =
      ((samplesOf samples registration).map
        (·.adds name (("registration", registration) :: labels))).sum := by
    rw [sumOver_sumSeries]
    induction samples with
    | nil => rfl
    | cons s rest ih =>
      rw [List.flatMap_cons, List.filter_append, List.map_append, List.sum_append, ih, samplesOf,
        samplesOf, List.filter_cons]
      split
      next => rfl
      next h =>
        have hnone := Sample.adds_of_ne (of_decide_eq_false (Bool.eq_false_iff.mpr h)) name labels
        rw [Sample.adds] at hnone
        rw [hnone, Nat.zero_add]
  have hentries : ((sumSeries (samples.flatMap Sample.increments)).map fun _ n =>
      lowWord64 n).entries = (sumSeries (samples.flatMap Sample.increments)).entries.map
        fun e => (e.1, lowWord64 e.2) := rfl
  rw [← hsum, exported, counters, Dict.sumOver, Dict.sumOver, hentries, List.filter_map,
    List.map_map]
  exact shows_sum _ fun e => shows_lowWord64 e.2

/-- The observations of a series, in the order in which they are made. -/
theorem getD_histograms (samples : List Sample) (s : Series) :
    (histograms samples).getD s [] =
      ((samples.flatMap Sample.observations).filter fun step => step.1 = s).map (·.2) := by
  rw [histograms]
  generalize samples.flatMap Sample.observations = steps
  induction steps using List.reverseRecOn with
  | nil => rfl
  | append_singleton steps step ih =>
    rw [List.foldl_append, List.foldl_cons, List.foldl_nil, List.filter_append, List.map_append,
      ← ih, Dict.getD, Dict.get?_insert, List.filter_singleton]
    by_cases hs : step.1 = s
    · rw [if_pos hs.symm, hs, decide_eq_true rfl]
      rfl
    · rw [if_neg (Ne.symm hs), decide_eq_false hs]
      exact (List.append_nil _).symm

/-- **What a histogram of a registration shows** is what its samples observe, in order. -/
theorem observed_eq (samples : List Sample) (registration name : String) :
    observed samples registration name =
      (samplesOf samples registration).flatMap (·.observes name) := by
  have hone : ∀ s : Sample,
      (s.observations.filter fun step =>
          step.1 = registrationSeries name registration []).map (·.2) =
        if s.registration = registration then s.observes name else [] := by
    intro s
    cases s with
    | pollBatch r size =>
      by_cases hr : r = registration <;> by_cases hn : "consumer_poll_batch_size" = name <;>
        simp [Sample.observations, Sample.observes, Sample.registration, registrationSeries, hr, hn]
    | handlerDuration r millis =>
      by_cases hr : r = registration <;> by_cases hn : "consumer_handler_duration_ms" = name <;>
        simp [Sample.observations, Sample.observes, Sample.registration, registrationSeries, hr, hn]
    | _ => simp [Sample.observations, Sample.observes]
  rw [observed, getD_histograms]
  induction samples with
  | nil => rfl
  | cons s rest ih =>
    rw [List.flatMap_cons, List.filter_append, List.map_append, ih, hone, samplesOf, samplesOf,
      List.filter_cons]
    by_cases h : s.registration = registration
    · rw [if_pos h, decide_eq_true h, if_pos rfl, List.flatMap_cons]
    · rw [if_neg h, decide_eq_false h, if_neg Bool.false_ne_true, List.nil_append]

end StreamDispatch
