import StreamDispatch.Number.Fixed
import StreamDispatch.Number.Scale

/-!
# Running statistics

How long handlers take is summed up while it is measured: count, extremes, mean and
variance are kept up to date with every value, and no value is stored. The mean moves
towards each new value by its share, and the variance follows from the sum of squared
distances, which grows by the product of the distances before and after the move.

## Main definitions

* `RunningStats`, `RunningStats.push`.
* `StatsSummary`, `StatsSummary.text`.
-/

namespace StreamDispatch

/-- Statistics over the values so far. -/
structure RunningStats where
  count : Nat
  mean : Float
  /-- The sum of the squared distances from the mean. -/
  squares : Float
  min : Float
  max : Float
  deriving Inhabited

namespace RunningStats

/-- No values. -/
def empty : RunningStats := ⟨0, 0, 0, 0, 0⟩

/-- Takes in one more value. -/
def push (s : RunningStats) (x : Float) : RunningStats :=
  if s.count = 0 then ⟨1, x, 0, x, x⟩
  else
    let count := s.count + 1
    let before := x - s.mean
    let mean := s.mean + before / nearestFloat count
    let after := x - mean
    ⟨count, mean, s.squares + before * after, minNumber s.min x, maxNumber s.max x⟩

/-- Each value counts. -/
@[simp] theorem count_push (s : RunningStats) (x : Float) : (s.push x).count = s.count + 1 := by
  rw [push]
  split
  next h => rw [h]
  next => rfl

/-- The variance of the values as a sample; zero for fewer than two. -/
def variance (s : RunningStats) : Float :=
  if s.count < 2 then 0 else s.squares / nearestFloat (s.count - 1)

/-- The standard deviation of the values as a sample. -/
def stdDev (s : RunningStats) : Float := s.variance.sqrt

end RunningStats

/-- The figures of a report. -/
structure StatsSummary where
  count : Nat
  min : Float
  max : Float
  mean : Float
  stdDev : Float

/-- The figures of the values so far. -/
def RunningStats.summary (s : RunningStats) : StatsSummary :=
  ⟨s.count, s.min, s.max, s.mean, s.stdDev⟩

/-- The text of a report, with three decimal places. -/
def StatsSummary.text (s : StatsSummary) : String :=
  if s.count = 0 then "N/A"
  else
    s!"min={fixedText 3 s.min}, max={fixedText 3 s.max}, mean={fixedText 3 s.mean}, "
      ++ s!"std={fixedText 3 s.stdDev} (n={s.count})"

end StreamDispatch
