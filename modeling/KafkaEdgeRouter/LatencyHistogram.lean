import KafkaEdgeRouter.CounterBank
import KafkaEdgeRouter.JsonText

/-!
# Latency histograms and their scrapes

A histogram is a bank of wrapping counters: `observe` adds one to the bucket of the duration, if
there is one, then one to the count and then the duration to the sum; `snapshot` loads the buckets
in order, then the count and then the sum. The rendered series adds up the buckets. A scrape can
catch a call between its first two additions, and then the finite buckets may exceed the count.
-/

namespace KafkaEdgeRouter.Metrics

/-- The upper bounds of the finite buckets in nanoseconds, and how they are printed in seconds. -/
def latencyBuckets : List (ℕ × String) :=
  [(10000, "0.00001"), (50000, "0.00005"), (100000, "0.0001"), (250000, "0.00025"),
    (500000, "0.0005"), (1000000, "0.001"), (2500000, "0.0025"), (5000000, "0.005"),
    (10000000, "0.01"), (25000000, "0.025"), (50000000, "0.05"), (100000000, "0.1"),
    (500000000, "0.5"), (1000000000, "1")]

def u64Size : ℕ := 2 ^ 64

inductive LatencyStage
  | decode
  | «match»
  | enqueue
  | protocolWrite
  | webhookAttempt
  | publish
  | endToEnd
  deriving DecidableEq

def LatencyStage.label : LatencyStage → String
  | .decode => "decode"
  | .match => "match"
  | .enqueue => "enqueue"
  | .protocolWrite => "protocol_write"
  | .webhookAttempt => "webhook_attempt"
  | .publish => "publish"
  | .endToEnd => "end_to_end"

inductive Counter
  | bucket (index : ℕ)
  | count
  | sumMicros
  deriving DecidableEq

def Counter.index : Counter → Option ℕ
  | .bucket i => some i
  | .count | .sumMicros => none

def bucketOf (nanos : ℕ) : Option ℕ := latencyBuckets.findIdx? fun upper => nanos ≤ upper.1

def observe (nanos : ℕ) : List (Counter × ℕ) :=
  (bucketOf nanos).toList.map (fun i => (.bucket i, 1)) ++
    [(.count, 1), (.sumMicros, min (nanos / 1000) (u64Size - 1))]

def snapshotLoads : List Counter :=
  (List.range latencyBuckets.length).map .bucket ++ [.count, .sumMicros]

/-- A histogram with the `observe` calls on it, each by its duration in nanoseconds, and the
snapshot that is taken of it. -/
abbrev Histogram := CounterBank ℕ Counter

namespace Histogram

abbrev Move := CounterBank.Move ℕ

def new : Histogram := CounterBank.start snapshotLoads

def step : Histogram → Move → Option Histogram := CounterBank.step u64Size observe

end Histogram

structure HistogramSnapshot where
  buckets : List ℕ
  count : ℕ
  sumMicros : ℕ

def Histogram.snapshot (h : Histogram) : HistogramSnapshot where
  buckets := (List.range latencyBuckets.length).map fun i => h.loaded (.bucket i)
  count := h.loaded .count
  sumMicros := h.loaded .sumMicros

def cumulative (total : ℕ) : List ℕ → List ℕ
  | [] => []
  | n :: buckets =>
      min (total + n) (u64Size - 1) :: cumulative (min (total + n) (u64Size - 1)) buckets

namespace HistogramSnapshot

def bucketValues (s : HistogramSnapshot) : List ℕ := cumulative 0 s.buckets

def bucketName (stage : LatencyStage) (le : String) : String :=
  "router_operation_latency_seconds_bucket\x7bstage=\"" ++ stage.label ++ "\",le=\"" ++ le ++
    "\"\x7d"

def bucketLine (stage : LatencyStage) (le : String) (value : ℕ) : String :=
  bucketName stage le ++ " " ++ toString value

def sixDigits (n : ℕ) : String := String.ofList ((Nat.toDigits 10 n).leftpad 6 '0')

def bucketLines (stage : LatencyStage) (s : HistogramSnapshot) : List String :=
  List.zipWith (fun upper value => bucketLine stage upper.2 value) latencyBuckets s.bucketValues ++
    [bucketLine stage "+Inf" s.count]

def render (stage : LatencyStage) (s : HistogramSnapshot) : List String :=
  s.bucketLines stage ++
    ["router_operation_latency_seconds_sum\x7bstage=\"" ++ stage.label ++ "\"\x7d " ++
        toString (s.sumMicros / 1000000) ++ "." ++ sixDigits (s.sumMicros % 1000000),
      "router_operation_latency_seconds_count\x7bstage=\"" ++ stage.label ++ "\"\x7d " ++
        toString s.count]

/-- The printed series is nondecreasing and ends at or below the value for `+Inf`. -/
def WellFormed (s : HistogramSnapshot) : Prop :=
  s.bucketValues.Pairwise (· ≤ ·) ∧ ∀ last ∈ s.bucketValues.getLast?, last ≤ s.count

/-- Every printed value is the number of the durations up to its bound. -/
def Exact (s : HistogramSnapshot) (durations : List ℕ) : Prop :=
  (∀ (i : ℕ) upper, latencyBuckets[i]? = some upper →
    s.bucketValues[i]? = some (durations.countP (· ≤ upper.1))) ∧
  s.count = durations.length

end HistogramSnapshot

/-- The bucket that a call has added to before that bucket was loaded. -/
def caughtBucket (w : Writer ℕ Counter) : Option ℕ := w.caught.findSome? fun a => a.1.index

/-- The call has added to the count before the count was loaded. -/
def caughtCount (w : Writer ℕ Counter) : Bool := w.caught.any fun a => a.1 = .count

namespace Histogram

def caughtIn (h : Histogram) (i : ℕ) : ℕ := h.writers.countP fun w => caughtBucket w = some i

/-- The calls that the snapshot caught in a bucket do not outnumber those that it caught in the
count, as counters that wrap have it. -/
def Balanced (h : Histogram) : Prop :=
  min (((List.range latencyBuckets.length).map fun i => h.caughtIn i % u64Size).sum)
    (u64Size - 1) ≤ h.writers.countP caughtCount % u64Size

/-- The calls caught in their bucket and not in the count. -/
def ahead (h : Histogram) : ℕ :=
  h.writers.countP fun w => (caughtBucket w).isSome && !caughtCount w

/-- The calls caught in the count and in no bucket. -/
def late (h : Histogram) : ℕ :=
  h.writers.countP fun w => caughtCount w && !(caughtBucket w).isSome

end Histogram

section Series

variable {total : ℕ} {buckets : List ℕ}

theorem total_le_of_mem_cumulative (htotal : total ≤ u64Size - 1) :
    ∀ v ∈ cumulative total buckets, total ≤ v := by
  induction buckets generalizing total with
  | nil => simp [cumulative]
  | cons n buckets ih =>
    have hnext : total ≤ min (total + n) (u64Size - 1) := by omega
    intro v hv
    rcases List.mem_cons.mp hv with rfl | hv
    · exact hnext
    · exact hnext.trans (ih (Nat.min_le_right _ _) v hv)

theorem cumulative_pairwise : (cumulative total buckets).Pairwise (· ≤ ·) := by
  induction buckets generalizing total with
  | nil => exact .nil
  | cons n buckets ih => exact .cons (total_le_of_mem_cumulative (Nat.min_le_right _ _)) ih

theorem getElem?_cumulative {i : ℕ} (htotal : total ≤ u64Size - 1) (hi : i < buckets.length) :
    (cumulative total buckets)[i]? =
      some (min (total + (buckets.take (i + 1)).sum) (u64Size - 1)) := by
  induction buckets generalizing total i with
  | nil => exact absurd hi (Nat.not_lt_zero i)
  | cons n buckets ih =>
    cases i with
    | zero => simp [cumulative]
    | succ i =>
      rw [cumulative, List.getElem?_cons_succ,
        ih (Nat.min_le_right _ _) (Nat.lt_of_succ_lt_succ hi), List.take_succ_cons, List.sum_cons]
      congr 1
      omega

theorem length_cumulative : (cumulative total buckets).length = buckets.length := by
  induction buckets generalizing total with
  | nil => rfl
  | cons n buckets ih => rw [cumulative, List.length_cons, ih, List.length_cons]

theorem getLast?_cumulative (htotal : total ≤ u64Size - 1) (hbuckets : buckets ≠ []) :
    (cumulative total buckets).getLast? = some (min (total + buckets.sum) (u64Size - 1)) := by
  have hlength : 0 < buckets.length := List.length_pos_iff.mpr hbuckets
  rw [List.getLast?_eq_getElem?, length_cumulative, getElem?_cumulative htotal (by omega),
    Nat.sub_add_cancel hlength, List.take_length]

end Series

/-! ### The printed lines -/

namespace HistogramSnapshot

def readValue (line : String) : ℕ :=
  Nat.ofDigitChars 10 (line.toList.reverse.takeWhile (fun c => c ≠ ' ')).reverse 0

theorem readValue_append (text : String) (n : ℕ) :
    readValue (text ++ " " ++ toString n) = n := by
  have hdigit : ∀ c ∈ (Nat.toDigits 10 n).reverse, decide (c ≠ ' ') = true := by
    intro c hc
    have hge := (Json.toNat_of_mem_toDigits (List.mem_reverse.mp hc)).1
    refine decide_eq_true ?_
    rintro rfl
    exact absurd hge (by decide)
  have hline : (text ++ " " ++ toString n).toList.reverse =
      (Nat.toDigits 10 n).reverse ++ ' ' :: text.toList.reverse := by
    have hblank : " ".toList = [' '] := by decide
    simp only [String.toList_append, Nat.toString_eq_ofList_toDigits, String.toList_ofList, hblank,
      List.reverse_append, List.reverse_cons, List.reverse_nil, List.nil_append,
      List.singleton_append]
  have hstop : (' ' :: text.toList.reverse).takeWhile (fun c => decide (c ≠ ' ')) = [] :=
    List.takeWhile_cons_of_neg (by decide)
  rw [readValue, hline, List.takeWhile_append_of_pos hdigit, hstop, List.append_nil,
    List.reverse_reverse, Nat.ofDigitChars_ten_toDigits]

theorem readValue_bucketLine (stage : LatencyStage) (le : String) (value : ℕ) :
    readValue (bucketLine stage le value) = value :=
  readValue_append (bucketName stage le) value

theorem map_readValue_zipWith (stage : LatencyStage) {uppers : List (ℕ × String)}
    {values : List ℕ} (h : values.length = uppers.length) :
    (List.zipWith (fun upper value => bucketLine stage upper.2 value) uppers
      values).map readValue = values := by
  induction values generalizing uppers with
  | nil => rw [List.zipWith_nil_right, List.map_nil]
  | cons value values ih =>
    cases uppers with
    | nil => cases h
    | cons upper uppers =>
      rw [List.zipWith_cons_cons, List.map_cons, ih (Nat.succ.inj h), readValue_bucketLine]

theorem map_readValue_render (stage : LatencyStage) {s : HistogramSnapshot}
    (hlength : s.buckets.length = latencyBuckets.length) :
    ((s.render stage).take (latencyBuckets.length + 1)).map readValue =
      s.bucketValues ++ [s.count] := by
  have hvalues : s.bucketValues.length = latencyBuckets.length := length_cumulative.trans hlength
  have hlines : (s.bucketLines stage).length = latencyBuckets.length + 1 := by
    rw [bucketLines, List.length_append, List.length_zipWith, hvalues, Nat.min_self,
      List.length_singleton]
  rw [render, ← hlines, List.take_left, bucketLines, List.map_append,
    map_readValue_zipWith stage hvalues, List.map_singleton, readValue_bucketLine]

/-- A reader of the lines up to `+Inf` finds them nondecreasing exactly if the series is well
formed. -/
theorem wellFormed_iff_printed (stage : LatencyStage) {s : HistogramSnapshot}
    (hlength : s.buckets.length = latencyBuckets.length) :
    s.WellFormed ↔ (((s.render stage).take (latencyBuckets.length + 1)).map readValue).Pairwise
      (· ≤ ·) := by
  rw [map_readValue_render stage hlength, List.pairwise_append]
  unfold WellFormed
  rcases List.eq_nil_or_concat' s.bucketValues with hnil | ⟨init, last, hlast⟩
  · simp [hnil]
  · rw [hlast, List.getLast?_concat]
    constructor
    · rintro ⟨hpairs, hle⟩
      refine ⟨hpairs, List.pairwise_singleton _ _, fun a ha b hb => ?_⟩
      rw [List.mem_singleton.mp hb]
      rcases List.mem_append.mp ha with ha | ha
      · exact ((List.pairwise_append.mp hpairs).2.2 a ha last List.mem_cons_self).trans
          (hle last rfl)
      · rw [List.mem_singleton.mp ha]
        exact hle last rfl
    · rintro ⟨hpairs, _, hall⟩
      refine ⟨hpairs, fun a ha => ?_⟩
      obtain rfl := Option.some.inj ha
      exact hall last (List.mem_append_right _ List.mem_cons_self) _ List.mem_cons_self

end HistogramSnapshot

section Counting

variable {α : Type} {l : List α}

theorem sum_toNat (p : α → Bool) : (l.map fun a => (p a).toNat).sum = l.countP p := by
  induction l with
  | nil => rfl
  | cons a l ih =>
    rw [List.map_cons, List.sum_cons, ih, List.countP_cons, Nat.add_comm]
    cases p a <;> rfl

theorem countP_eq_add {p q r : α → Bool} (h : ∀ a ∈ l, (p a).toNat = (q a).toNat + (r a).toNat) :
    l.countP p = l.countP q + l.countP r := by
  rw [← sum_toNat, List.map_congr_left h, List.sum_map_add, sum_toNat, sum_toNat]

theorem sum_countP_range (f : α → Option ℕ) (n : ℕ) :
    ((List.range n).map fun i => l.countP fun a => f a = some i).sum =
      l.countP fun a => (f a).any (· < n) := by
  induction n with
  | zero => simp
  | succ n ih =>
    rw [List.range_succ, List.map_append, List.sum_append, ih, List.map_singleton,
      List.sum_singleton, eq_comm]
    apply countP_eq_add
    intro a _
    cases f a with
    | none => rfl
    | some i =>
      simp only [Option.any_some, Option.some.injEq]
      rcases Nat.lt_trichotomy i n with hi | hi | hi
      · rw [decide_eq_true (Nat.lt_succ_of_lt hi), decide_eq_true hi,
          decide_eq_false (Nat.ne_of_lt hi)]
        rfl
      · rw [decide_eq_true (Nat.lt_succ_of_le hi.le), decide_eq_false hi.not_lt, decide_eq_true hi]
        rfl
      · rw [decide_eq_false (by omega : ¬i < n + 1), decide_eq_false (Nat.not_lt_of_gt hi),
          decide_eq_false (Nat.ne_of_gt hi)]
        rfl

end Counting

theorem bucketOf_lt {nanos i : ℕ} (h : bucketOf nanos = some i) : i < latencyBuckets.length := by
  obtain ⟨hi, _⟩ := List.findIdx?_eq_some_iff_getElem.mp h
  exact hi

theorem latencyBuckets_increasing :
    latencyBuckets.Pairwise fun lower upper => lower.1 < upper.1 := by
  decide

theorem bucketOf_any_iff {nanos i : ℕ} {upper : ℕ × String} (h : latencyBuckets[i]? = some upper) :
    (bucketOf nanos).any (· < i + 1) = decide (nanos ≤ upper.1) := by
  obtain ⟨hi, hupper⟩ := List.getElem?_eq_some_iff.mp h
  cases hbucket : bucketOf nanos with
  | none =>
    have hnone := List.findIdx?_eq_none_iff.mp hbucket upper (List.mem_of_getElem? h)
    simpa using hnone
  | some j =>
    obtain ⟨hj, hle, hfirst⟩ := List.findIdx?_eq_some_iff_getElem.mp hbucket
    by_cases hji : j < i + 1
    · have hmono : latencyBuckets[j].1 ≤ upper.1 := by
        rcases Nat.lt_or_eq_of_le (Nat.le_of_lt_succ hji) with hlt | heq
        · rw [← hupper]
          exact Nat.le_of_lt (List.pairwise_iff_getElem.mp latencyBuckets_increasing j i hj hi hlt)
        · subst heq
          rw [hupper]
      have hle : nanos ≤ upper.1 := (of_decide_eq_true hle).trans hmono
      rw [Option.any_some, decide_eq_true hji, decide_eq_true hle]
    · have hnot := hfirst i (by omega)
      rw [hupper] at hnot
      rw [Option.any_some, decide_eq_false hji, eq_comm]
      exact Bool.eq_false_iff.mpr hnot

theorem amount_observe_bucket (nanos i : ℕ) :
    amount (.bucket i) (observe nanos) = (decide (bucketOf nanos = some i)).toNat := by
  unfold observe
  cases bucketOf nanos with
  | none => simp [amount]
  | some j => by_cases hj : j = i <;> simp [amount, hj]

theorem amount_observe_count (nanos : ℕ) : amount .count (observe nanos) = 1 := by
  unfold observe
  cases bucketOf nanos <;> simp [amount]

section Calls

variable {w : Writer ℕ Counter} {unread : List Counter}

/-- What of a call can be caught: any of its three additions. -/
theorem caught_shape (h : w.Sound observe unread) : ∃ buckets counts sums,
    w.caught = buckets ++ (counts ++ sums) ∧
    (buckets = [] ∨ ∃ i, bucketOf w.input = some i ∧ buckets = [(.bucket i, 1)]) ∧
    (counts = [] ∨ counts = [(.count, 1)]) ∧
    (sums = [] ∨ ∃ micros, sums = [(.sumMicros, micros)]) := by
  have hsub : w.caught.Sublist (observe w.input) := by
    rw [← h.follows]
    exact h.caught.trans (List.sublist_append_left _ _)
  obtain ⟨buckets, others, hcaught, hbuckets, hothers⟩ := List.sublist_append_iff.mp hsub
  rw [← List.singleton_append] at hothers
  obtain ⟨counts, sums, rfl, hcounts, hsums⟩ := List.sublist_append_iff.mp hothers
  refine ⟨buckets, counts, sums, hcaught, ?_, ?_, ?_⟩
  · cases hbucket : bucketOf w.input with
    | none =>
      rw [hbucket] at hbuckets
      exact .inl (List.sublist_nil.mp hbuckets)
    | some i =>
      rw [hbucket] at hbuckets
      exact (List.sublist_singleton.mp hbuckets).imp_right fun h => ⟨i, rfl, h⟩
  · exact List.sublist_singleton.mp hcounts
  · exact (List.sublist_singleton.mp hsums).imp_right fun h => ⟨_, h⟩

theorem amount_caught_bucket (h : w.Sound observe unread) (i : ℕ) :
    amount (.bucket i) w.caught = (decide (caughtBucket w = some i)).toNat := by
  obtain ⟨buckets, counts, sums, hcaught, hbuckets, hcounts, hsums⟩ := caught_shape h
  unfold caughtBucket
  rw [hcaught]
  obtain rfl | ⟨j, _, rfl⟩ := hbuckets <;> obtain rfl | rfl := hcounts <;>
    obtain rfl | ⟨micros, rfl⟩ := hsums <;> simp [amount, Counter.index] <;>
    by_cases hj : j = i <;> simp [hj]

theorem amount_caught_count (h : w.Sound observe unread) :
    amount .count w.caught = (caughtCount w).toNat := by
  obtain ⟨buckets, counts, sums, hcaught, hbuckets, hcounts, hsums⟩ := caught_shape h
  unfold caughtCount
  rw [hcaught]
  obtain rfl | ⟨j, _, rfl⟩ := hbuckets <;> obtain rfl | rfl := hcounts <;>
    obtain rfl | ⟨micros, rfl⟩ := hsums <;> simp [amount]

theorem caughtBucket_lt (h : w.Sound observe unread) {i : ℕ} (hi : caughtBucket w = some i) :
    i < latencyBuckets.length := by
  obtain ⟨buckets, counts, sums, hcaught, hbuckets, hcounts, hsums⟩ := caught_shape h
  unfold caughtBucket at hi
  rw [hcaught] at hi
  obtain rfl | ⟨j, hj, rfl⟩ := hbuckets
  · obtain rfl | rfl := hcounts <;> obtain rfl | ⟨micros, rfl⟩ := hsums <;>
      simp [Counter.index] at hi
  · have hji : j = i := by simpa [Counter.index] using hi
    exact bucketOf_lt (hji ▸ hj)

theorem caught_of_over (h : w.Sound observe snapshotLoads) (hover : w.rest = []) :
    caughtBucket w = bucketOf w.input ∧ caughtCount w = true := by
  have hmade : w.made = observe w.input := by rw [← h.follows, hover, List.append_nil]
  constructor
  · have hiff : ∀ i < latencyBuckets.length,
        caughtBucket w = some i ↔ bucketOf w.input = some i := by
      intro i hi
      have hload : Counter.bucket i ∈ snapshotLoads := by
        simpa [snapshotLoads] using hi
      have hamount := h.unread _ hload
      rw [hmade, amount_caught_bucket h, amount_observe_bucket] at hamount
      by_cases hcaught : caughtBucket w = some i <;> by_cases hown : bucketOf w.input = some i <;>
        simp [hcaught, hown] at hamount ⊢
    apply Option.ext
    intro i
    by_cases hi : i < latencyBuckets.length
    · exact hiff i hi
    · exact ⟨fun heq => absurd (caughtBucket_lt h heq) hi, fun heq => absurd (bucketOf_lt heq) hi⟩
  · have hload : Counter.count ∈ snapshotLoads := by simp [snapshotLoads]
    have hamount := h.unread _ hload
    rw [hmade, amount_caught_count h, amount_observe_count] at hamount
    exact Bool.toNat_eq_one.mp hamount

end Calls

theorem snapshotLoads_nodup : snapshotLoads.Nodup := by decide

namespace Histogram

variable {h h' : Histogram}

abbrev Inv (h : Histogram) : Prop := CounterBank.Inv u64Size observe snapshotLoads h

theorem inv_of_run {moves : List Move} (hrun : Steps.run step new moves = some h) : h.Inv :=
  (CounterBank.inv_start snapshotLoads_nodup).run hrun

theorem visible_bucket (hinv : h.Inv) (i : ℕ) : h.visible (.bucket i) = h.caughtIn i := by
  unfold CounterBank.visible
  rw [List.map_congr_left fun w hw => amount_caught_bucket (hinv.sound w hw) i, sum_toNat]
  rfl

theorem visible_count (hinv : h.Inv) : h.visible .count = h.writers.countP caughtCount := by
  unfold CounterBank.visible
  rw [List.map_congr_left fun w hw => amount_caught_count (hinv.sound w hw), sum_toNat]

theorem buckets_snapshot (hinv : h.Inv) (hdone : h.unread = []) : h.snapshot.buckets =
    (List.range latencyBuckets.length).map fun i => h.caughtIn i % u64Size := by
  apply List.map_congr_left
  intro i hi
  have hload : Counter.bucket i ∈ snapshotLoads :=
    List.mem_append_left _ (List.mem_map_of_mem hi)
  rw [hinv.loaded _ hload (by simp [hdone]), visible_bucket hinv]

theorem count_snapshot (hinv : h.Inv) (hdone : h.unread = []) :
    h.snapshot.count = h.writers.countP caughtCount % u64Size := by
  have hload : Counter.count ∈ snapshotLoads := by simp [snapshotLoads]
  exact (hinv.loaded _ hload (by simp [hdone])).trans (congrArg (· % u64Size) (visible_count hinv))

theorem wellFormed_iff (hinv : h.Inv) (hdone : h.unread = []) :
    h.snapshot.WellFormed ↔ h.Balanced := by
  have hne : h.snapshot.buckets ≠ [] := by simp [snapshot, latencyBuckets]
  have hlast : h.snapshot.bucketValues.getLast? =
      some (min (0 + h.snapshot.buckets.sum) (u64Size - 1)) :=
    getLast?_cumulative (Nat.zero_le _) hne
  unfold HistogramSnapshot.WellFormed
  rw [hlast, Nat.zero_add, buckets_snapshot hinv hdone, count_snapshot hinv hdone]
  constructor
  · intro hformed
    exact hformed.2 _ rfl
  · intro hbalanced
    refine ⟨cumulative_pairwise, fun last heq => ?_⟩
    obtain rfl := Option.some.inj heq
    exact hbalanced

/-- As long as no counter can wrap, the remainders go away. -/
theorem caughtIn_mod (hsmall : h.writers.length < u64Size) (i : ℕ) :
    h.caughtIn i % u64Size = h.caughtIn i :=
  Nat.mod_eq_of_lt (Nat.lt_of_le_of_lt List.countP_le_length hsmall)

theorem balanced_iff (hinv : h.Inv) (hsmall : h.writers.length < u64Size) :
    h.Balanced ↔ h.ahead ≤ h.late := by
  have hsum : ((List.range latencyBuckets.length).map fun i => h.caughtIn i % u64Size).sum =
      h.writers.countP fun w => (caughtBucket w).isSome := by
    simp only [caughtIn_mod hsmall]
    refine (sum_countP_range caughtBucket _).trans (List.countP_congr fun w hw => ?_)
    cases hbucket : caughtBucket w with
    | none => simp
    | some i => simpa using caughtBucket_lt (hinv.sound w hw) hbucket
  have hcount : h.writers.countP caughtCount ≤ h.writers.length := List.countP_le_length
  have hbuckets : h.writers.countP (fun w => (caughtBucket w).isSome) ≤ h.writers.length :=
    List.countP_le_length
  have hahead : h.writers.countP (fun w => (caughtBucket w).isSome) =
      h.ahead + h.writers.countP fun w => (caughtBucket w).isSome && caughtCount w :=
    countP_eq_add fun w _ => by cases (caughtBucket w).isSome <;> cases caughtCount w <;> rfl
  have hlate : h.writers.countP caughtCount =
      h.late + h.writers.countP fun w => (caughtBucket w).isSome && caughtCount w :=
    countP_eq_add fun w _ => by cases (caughtBucket w).isSome <;> cases caughtCount w <;> rfl
  unfold Balanced
  rw [hsum, Nat.mod_eq_of_lt (Nat.lt_of_le_of_lt hcount hsmall)]
  omega

theorem exact_iff (hinv : h.Inv) (hunread : h.unread = snapshotLoads)
    (hover : ∀ w ∈ h.writers, w.rest = []) (hinv' : h'.Inv) (hdone : h'.unread = [])
    (hwriters : h'.writers = h.writers) :
    h'.snapshot.Exact (h.writers.map Writer.input) ↔ h.writers.length < u64Size := by
  have hcaught : ∀ w ∈ h.writers, caughtBucket w = bucketOf w.input ∧ caughtCount w = true :=
    fun w hw => caught_of_over (hunread ▸ hinv.sound w hw) (hover w hw)
  have hcount : h'.snapshot.count = h.writers.length % u64Size := by
    rw [count_snapshot hinv' hdone, hwriters,
      List.countP_eq_length.mpr fun w hw => (hcaught w hw).2]
  constructor
  · intro hexact
    have hlength : h'.snapshot.count = h.writers.length := by simpa using hexact.2
    rw [← hlength, hcount]
    exact Nat.mod_lt _ (by decide)
  · intro hsmall
    refine ⟨fun i upper hupper => ?_, ?_⟩
    · have hi : i < latencyBuckets.length := (List.getElem?_eq_some_iff.mp hupper).1
      have hbuckets := buckets_snapshot hinv' hdone
      have hlen : i < h'.snapshot.buckets.length := by simpa [hbuckets] using hi
      have hvalue : h'.snapshot.bucketValues[i]? =
          some (min (0 + (h'.snapshot.buckets.take (i + 1)).sum) (u64Size - 1)) :=
        getElem?_cumulative (Nat.zero_le _) hlen
      have hsmall' : h'.writers.length < u64Size := hwriters ▸ hsmall
      have hsum : (h'.snapshot.buckets.take (i + 1)).sum =
          (h.writers.map Writer.input).countP (· ≤ upper.1) := by
        rw [hbuckets, ← List.map_take, List.take_range, Nat.min_eq_left hi]
        simp only [caughtIn_mod hsmall']
        refine (sum_countP_range caughtBucket _).trans ?_
        rw [hwriters, List.countP_map]
        refine List.countP_congr fun w hw => ?_
        rw [(hcaught w hw).1, bucketOf_any_iff hupper]
        rfl
      have hle : (h.writers.map Writer.input).countP (· ≤ upper.1) ≤ h.writers.length :=
        List.countP_le_length.trans (Nat.le_of_eq (List.length_map _))
      rw [hvalue, hsum, Nat.zero_add, Nat.min_eq_left (by omega)]
    · rw [hcount, Nat.mod_eq_of_lt hsmall, List.length_map]

/-- A scrape is well formed exactly when the calls that it catches in a bucket do not outnumber
those that it catches in the count. While no counter wraps, this says that the calls caught between
their two additions are not more than those that are caught in the count alone. A scrape of a
histogram at rest is exact while no counter wraps. -/
theorem scrape_wellFormed_iff {moves : List Move} (hrun : Steps.run step new moves = some h) :
    (h.unread = [] →
      (h.snapshot.WellFormed ↔ h.Balanced) ∧
      (h.writers.length < u64Size → (h.Balanced ↔ h.ahead ≤ h.late))) ∧
    (h.unread = snapshotLoads → (∀ w ∈ h.writers, w.rest = []) →
      ∃ h', Steps.run step h (List.replicate snapshotLoads.length .load) = some h' ∧
        h'.unread = [] ∧
        (h'.snapshot.Exact (h.writers.map Writer.input) ↔ h.writers.length < u64Size)) := by
  have hinv := inv_of_run hrun
  constructor
  · intro hdone
    exact ⟨wellFormed_iff hinv hdone, balanced_iff hinv⟩
  · intro hunread hover
    obtain ⟨h', hloads, hdone, hwriters⟩ := CounterBank.run_loads u64Size observe h
    rw [hunread] at hloads
    exact ⟨h', hloads, hdone, exact_iff hinv hunread hover (hinv.run hloads) hdone hwriters⟩

/-- One call over a microsecond, with the whole scrape between its first two additions. -/
def caughtRun : List Move :=
  [.write 1000, .add 0] ++ List.replicate snapshotLoads.length .load ++ [.add 0, .add 0]

theorem caught_between_additions : ∃ h, Steps.run step new caughtRun = some h ∧ h.unread = [] ∧
    h.snapshot.bucketValues = List.replicate 14 1 ∧ h.snapshot.count = 0 ∧
    ¬h.snapshot.WellFormed := by
  refine ⟨_, rfl, rfl, rfl, rfl, fun hformed => ?_⟩
  have hle := hformed.2 1 rfl
  exact absurd hle (by decide)

/-- A call within the first bucket and one beyond the last, both over. -/
def finishedRun : List Move :=
  [.write 1000, .write 2000000000, .add 1, .add 0, .add 0, .add 1, .add 0]

/-- The scrape comes between the first two additions of one call, after a call beyond the last
bucket. -/
def evenRun : List Move :=
  [.write 1000, .write 2000000000, .add 1, .add 1, .add 0] ++
    List.replicate snapshotLoads.length .load ++ [.add 0, .add 0]

theorem scrape_wellFormed_iff_finished :
    (∃ h, Steps.run step new evenRun = some h ∧ h.unread = [] ∧ h.ahead = 1 ∧
      h.snapshot.WellFormed) ∧
    ∃ h, Steps.run step new finishedRun = some h ∧
      ∃ h', Steps.run step h (List.replicate snapshotLoads.length .load) = some h' ∧
        h'.unread = [] ∧ h'.snapshot.Exact [1000, 2000000000] := by
  constructor
  · have heven : (Steps.run step new evenRun).map (fun h =>
        (h.unread, h.ahead, h.late, h.writers.length)) = some ([], 1, 1, 2) := rfl
    obtain ⟨h, hrun, hfacts⟩ := Option.map_eq_some_iff.mp heven
    obtain ⟨hdone, hahead, hlate, hlength⟩ :
        h.unread = [] ∧ h.ahead = 1 ∧ h.late = 1 ∧ h.writers.length = 2 := by
      simpa only [Prod.mk.injEq] using hfacts
    obtain ⟨hformed, hbalanced⟩ := (scrape_wellFormed_iff hrun).1 hdone
    have hsmall : h.writers.length < u64Size := by
      rw [hlength]
      decide
    exact ⟨h, hrun, hdone, hahead, hformed.mpr ((hbalanced hsmall).mpr (by omega))⟩
  · have htwo : 2 < u64Size := by decide
    obtain ⟨h', hrun, hdone, hexact⟩ :=
      (scrape_wellFormed_iff (rfl : Steps.run step new finishedRun = some _)).2 rfl (by decide)
    exact ⟨_, rfl, h', hrun, hdone, hexact.mpr htwo⟩

end Histogram

end KafkaEdgeRouter.Metrics
