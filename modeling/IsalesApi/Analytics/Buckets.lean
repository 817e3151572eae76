import IsalesApi.Analytics.Endpoints

/-!
# The duration buckets

The five buckets are half-open and start at 0, and the last has no upper bound.
So they count each duration that is not negative once.
-/

namespace IsalesApi.Analytics

open Foundation

theorem countP_durationBuckets (d : Int) :
    durationBuckets.countP (fun b => inBucket b.2.1 b.2.2 d) = if 0 ≤ d then 1 else 0 := by
  simp only [durationBuckets, inBucket, List.countP_cons, List.countP_nil]
  grind

theorem sum_counts (durations : List Int) :
    ((distribution durations).buckets.map DurationBucket.count).sum =
      durations.countP fun d => 0 ≤ d := by
  have hcomm : (durationBuckets.map fun b => (durations.countP (inBucket b.2.1 b.2.2) : Int)).sum =
      (durations.map fun d => if 0 ≤ d then (1 : Int) else 0).sum := by
    rw [sum_countP_comm]
    simp only [countP_durationBuckets]
    push_cast
    rfl
  have hcount : (durations.map fun d => if 0 ≤ d then (1 : Int) else 0).sum =
      durations.countP fun d => 0 ≤ d := by
    simpa [tally] using tally_indicator (p := fun _ => true) (q := fun d : Int => 0 ≤ d)
      (l := durations)
  exact hcomm.trans hcount

theorem bounds_distribution (durations : List Int) :
    (distribution durations).buckets.map (fun b => (b.label, b.lowerSeconds, b.upperSeconds)) =
      durationBuckets := rfl

/-- A bucket counts the durations that meet its condition. -/
theorem count_distribution {durations : List Int} {b : DurationBucket}
    (h : b ∈ (distribution durations).buckets) :
    b.count = durations.countP (inBucket b.lowerSeconds b.upperSeconds) := by
  obtain ⟨bounds, _, rfl⟩ := List.mem_map.mp h
  rfl

/-- **The buckets partition the durations that are not negative.** Each counts
those between its bounds; a negative one is counted in `total` only. -/
theorem duration_buckets (durations : List Int) :
    (∀ d, durationBuckets.countP (fun b => inBucket b.2.1 b.2.2 d) = if 0 ≤ d then 1 else 0) ∧
    (distribution durations).buckets.map (fun b => (b.label, b.lowerSeconds, b.upperSeconds)) =
      durationBuckets ∧
    (∀ b ∈ (distribution durations).buckets,
      b.count = durations.countP (inBucket b.lowerSeconds b.upperSeconds)) ∧
    ((distribution durations).buckets.map DurationBucket.count).sum =
      durations.countP (fun d => 0 ≤ d) ∧
    (((distribution durations).buckets.map DurationBucket.count).sum =
      (distribution durations).total ↔ ∀ d ∈ durations, 0 ≤ d) := by
  refine ⟨countP_durationBuckets, bounds_distribution durations,
    fun b hb => count_distribution hb, sum_counts durations, ?_⟩
  rw [sum_counts]
  show ((durations.countP fun d => 0 ≤ d : Nat) : Int) = durations.length ↔ _
  rw [Nat.cast_inj, List.countP_eq_length]
  simp

/-- A negative duration is in no bucket. -/
theorem negative_duration_uncounted :
    ¬ ∀ durations : List Int, ((distribution durations).buckets.map DurationBucket.count).sum =
      (distribution durations).total :=
  fun h => absurd (h [-1]) (by decide)

end IsalesApi.Analytics
