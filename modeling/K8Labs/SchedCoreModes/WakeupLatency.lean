import K8Labs.Posix.Timespec
import K8Labs.Python.Number
import K8Labs.Python.OrderStatistics
import Mathlib.Algebra.Order.Floor.Semiring

/-!
# The samples of `wakeup_latency`

`wakeup_latency.c` sleeps until each deadline before an end, keeps the delays of the first
`MAX_SAMPLES` of them and the greatest delay, and reports three percentiles and the greatest delay.
The end is the start and the whole seconds of the duration.

The readings of the clock are a function of the deadline: the first is that before the loop.

* `report_faithful_iff` : **when the report is that of the deadlines before the end of the duration.**
-/

namespace SchedCoreModes

namespace WakeupLatency

open Posix

/-! ### The program -/

/-- The arguments that are not refused.  A duration that is not a number, or whose seconds do not fit
into a `time_t`, is not refused either but left out here: C does not define its conversion. -/
structure Args where
  duration : ℚ
  intervalNs : ℕ
  duration_pos : 0 < duration
  interval_pos : 0 < intervalNs

/-- `MAX_SAMPLES`. -/
def maxSamples : ℕ := 200000

/-- `end`: the start, later by `(time_t)duration_s` seconds. -/
def Args.stop (args : Args) (start : Timespec) : Timespec :=
  { start with sec := start.sec + Py.truncate args.duration }

/-- What the loop keeps. -/
structure State where
  next : Timespec
  samples : List ℕ
  maxDelay : ℕ

/-- The delay of a wakeup in microseconds. -/
def delayUs (now next : Timespec) : ℕ :=
  let delayNs := (now.sec - next.sec) * 1000000000 + ((now.nsec : ℤ) - next.nsec)
  (if delayNs < 0 then 0 else delayNs.toNat) / 1000

/-- The comparison that ends the loop, field by field. -/
def Ended (stop next : Timespec) : Prop :=
  stop.sec < next.sec ∨ next.sec = stop.sec ∧ stop.nsec ≤ next.nsec

instance decidableEnded (stop next : Timespec) : Decidable (Ended stop next) :=
  inferInstanceAs (Decidable (_ ∨ _))

theorem ended_iff {stop next : Timespec} : Ended stop next ↔ stop.ns ≤ next.ns := by
  have hnext := next.nsec_lt
  have hstop := stop.nsec_lt
  unfold Ended Timespec.ns
  omega

/-- The loop, after so many wakeups. -/
def loop (args : Args) (clock : ℕ → Timespec) (stop : Timespec) (wakes : ℕ) (state : State) :
    State :=
  let next := state.next.addNs args.intervalNs
  if Ended stop next then
    { state with next := next }
  else
    let delay := delayUs (clock (wakes + 1)) next
    loop args clock stop (wakes + 1)
      { next := next
        samples := if state.samples.length < maxSamples then state.samples ++ [delay]
          else state.samples
        maxDelay := if state.maxDelay < delay then delay else state.maxDelay }
termination_by (stop.ns - state.next.ns).toNat
decreasing_by
  have hgoes : ¬Ended stop (state.next.addNs args.intervalNs) := ‹_›
  have hpos := args.interval_pos
  rw [ended_iff] at hgoes
  simp only [Timespec.ns_addNs] at hgoes ⊢
  omega

/-- What is printed. -/
structure Output where
  samples : ℕ
  p50Us : ℕ
  p99Us : ℕ
  p999Us : ℕ
  maxUs : ℕ
  deriving DecidableEq

/-- The report of the delays. -/
def report (state : State) : Output :=
  let samples := state.samples.insertionSort (· ≤ ·)
  let count := samples.length
  { samples := count
    p50Us := if count = 0 then 0 else samples.getD ((count - 1) * 50 / 100) 0
    p99Us := if count = 0 then 0 else samples.getD ((count - 1) * 99 / 100) 0
    p999Us := if count = 0 then 0 else samples.getD ((count - 1) * 999 / 1000) 0
    maxUs := state.maxDelay }

/-- `main` behind the wait for its go-file. -/
def run (args : Args) (clock : ℕ → Timespec) : State :=
  loop args clock (args.stop (clock 0)) 0 { next := clock 0, samples := [], maxDelay := 0 }

/-! ### Deadlines -/

/-- How many of the times `interval`, `2 * interval`, … lie before `span`. -/
def countBefore (span : ℚ) (interval : ℕ) : ℕ := ⌈span / interval⌉₊ - 1

section Deadlines

variable {args : Args} {clock : ℕ → Timespec} {state : State} {k : ℕ}

theorem le_countBefore_iff {span : ℚ} {interval : ℕ} (hpos : 0 < interval) (hk : 1 ≤ k) :
    k ≤ countBefore span interval ↔ (k : ℚ) * interval < span := by
  have hinterval : (0 : ℚ) < interval := by exact_mod_cast hpos
  rw [← lt_div_iff₀ hinterval, ← Nat.lt_ceil, countBefore]
  omega

/-- The duration in nanoseconds. -/
def Args.spanNs (args : Args) : ℚ := args.duration * 1000000000

/-- The whole seconds of it. -/
def Args.wholeNs (args : Args) : ℚ := ⌊args.duration⌋ * 1000000000

theorem Args.wholeNs_le (args : Args) : args.wholeNs ≤ args.spanNs :=
  mul_le_mul_of_nonneg_right (Int.floor_le args.duration) (by norm_num)

/-- The delay at a deadline. -/
def delayAt (args : Args) (clock : ℕ → Timespec) (k : ℕ) : ℕ :=
  delayUs (clock k) ((clock 0).addNs (k * args.intervalNs))

/-- What the loop keeps of the first deadlines. -/
structure Kept (args : Args) (clock : ℕ → Timespec) (k : ℕ) (state : State) : Prop where
  next : state.next = (clock 0).addNs (k * args.intervalNs)
  samples : state.samples = (List.range' 1 (min k maxSamples)).map (delayAt args clock)
  maxDelay : state.maxDelay = ((List.range' 1 k).map (delayAt args clock)).foldl max 0

/-- The loop goes on while the next deadline is before the end of the whole seconds. -/
theorem not_ended_iff (clock : ℕ → Timespec) :
    ¬Ended (args.stop (clock 0)) ((clock 0).addNs (k * args.intervalNs)) ↔
      (k : ℚ) * args.intervalNs < args.wholeNs := by
  have htruncate : Py.truncate args.duration = ⌊args.duration⌋ := if_neg args.duration_pos.not_gt
  have hstop : (args.stop (clock 0)).ns = (clock 0).ns + ⌊args.duration⌋ * 1000000000 := by
    rw [Args.stop, Timespec.ns, htruncate, Timespec.ns]
    ring
  have hcast : (k : ℚ) * args.intervalNs < args.wholeNs ↔
      (k : ℤ) * args.intervalNs < ⌊args.duration⌋ * 1000000000 := by
    rw [Args.wholeNs]
    exact_mod_cast Iff.rfl
  rw [ended_iff, hstop, Timespec.ns_addNs, hcast]
  push_cast
  omega

theorem addNs_succ : ((clock 0).addNs (k * args.intervalNs)).addNs args.intervalNs =
    (clock 0).addNs ((k + 1) * args.intervalNs) := by
  refine Timespec.ns_injective ?_
  simp only [Timespec.ns_addNs]
  push_cast
  ring

/-- **A wakeup** keeps the next delay. -/
theorem Kept.step (h : Kept args clock k state) :
    Kept args clock (k + 1)
      { next := state.next.addNs args.intervalNs
        samples := if state.samples.length < maxSamples then
            state.samples ++ [delayUs (clock (k + 1)) (state.next.addNs args.intervalNs)]
          else state.samples
        maxDelay := if state.maxDelay < delayUs (clock (k + 1)) (state.next.addNs args.intervalNs)
          then delayUs (clock (k + 1)) (state.next.addNs args.intervalNs) else state.maxDelay } := by
  have hnext : state.next.addNs args.intervalNs =
      (clock 0).addNs ((k + 1) * args.intervalNs) := by
    rw [h.next, addNs_succ]
  have hdelay : delayUs (clock (k + 1)) (state.next.addNs args.intervalNs) =
      delayAt args clock (k + 1) := by
    rw [hnext, delayAt]
  refine ⟨hnext, ?_, ?_⟩
  · dsimp only
    rw [hdelay, h.samples, List.length_map, List.length_range']
    -- past the room for samples only the greatest delay is kept up
    split_ifs with hroom
    · rw [Nat.min_eq_left (by omega), Nat.min_eq_left (by omega), List.range'_concat,
        List.map_append, Nat.one_mul, Nat.add_comm 1 k]
      rfl
    · rw [Nat.min_eq_right (by omega), Nat.min_eq_right (by omega)]
  · dsimp only
    rw [hdelay, h.maxDelay, List.range'_concat, List.map_append, List.foldl_append, Nat.one_mul,
      Nat.add_comm 1 k]
    generalize ((List.range' 1 k).map (delayAt args clock)).foldl max 0 = greatest
    rw [List.map_singleton, List.foldl_cons, List.foldl_nil]
    split_ifs with hlt
    · exact (max_eq_right hlt.le).symm
    · exact (max_eq_left (not_lt.1 hlt)).symm

/-- **The loop** keeps the delays of the deadlines before the end of the whole seconds. -/
theorem Kept.loop (h : Kept args clock k state)
    (hk : k ≤ countBefore args.wholeNs args.intervalNs) :
    ∃ next, Kept args clock (countBefore args.wholeNs args.intervalNs)
      { loop args clock (args.stop (clock 0)) k state with next := next } := by
  induction k, state using WakeupLatency.loop.induct args clock (args.stop (clock 0)) with
  | case1 k state next hended =>
    have hnext : next = (clock 0).addNs ((k + 1) * args.intervalNs) := by
      rw [← addNs_succ, ← h.next]
    have hlast : ¬((k + 1 : ℕ) : ℚ) * args.intervalNs < args.wholeNs := by
      rw [← not_ended_iff clock, ← hnext]
      exact not_not_intro hended
    rw [← le_countBefore_iff args.interval_pos (by omega)] at hlast
    obtain rfl : k = countBefore args.wholeNs args.intervalNs := by omega
    rw [WakeupLatency.loop, if_pos hended]
    exact ⟨state.next, h⟩
  | case2 k state next hgoes delay ih =>
    have hnext : next = (clock 0).addNs ((k + 1) * args.intervalNs) := by
      rw [← addNs_succ, ← h.next]
    have hbefore : ((k + 1 : ℕ) : ℚ) * args.intervalNs < args.wholeNs := by
      rw [← not_ended_iff clock, ← hnext]
      exact hgoes
    rw [WakeupLatency.loop, if_neg hgoes]
    exact ih h.step ((le_countBefore_iff args.interval_pos (by omega)).2 hbefore)

/-- What a run keeps. -/
theorem exists_kept_run (args : Args) (clock : ℕ → Timespec) : ∃ next,
    Kept args clock (countBefore args.wholeNs args.intervalNs)
      { run args clock with next := next } := by
  have hstart : Kept args clock 0 { next := clock 0, samples := [], maxDelay := 0 } :=
    ⟨Timespec.ns_injective (by simp), rfl, rfl⟩
  exact hstart.loop (Nat.zero_le _)

end Deadlines

/-! ### The law -/

/-- The delays at the deadlines before the end of the duration, as many as are kept. -/
def Args.delays (args : Args) (clock : ℕ → Timespec) : List ℕ :=
  (List.range' 1 (min (countBefore args.spanNs args.intervalNs) maxSamples)).map
    (delayAt args clock)

/-- A reported value is that at a rank of the delays, or zero when there are none. -/
def Reports (delays : List ℕ) (rank value : ℕ) : Prop :=
  if delays = [] then value = 0 else Py.AtRank delays rank value

/-- One sample is kept for each deadline before the end of the duration, and the report has order
statistics of these samples, in order. -/
structure Faithful (args : Args) (clock : ℕ → Timespec) : Prop where
  samples : (run args clock).samples = args.delays clock
  count : (report (run args clock)).samples = (args.delays clock).length
  p50 : Reports (args.delays clock) (((args.delays clock).length - 1) * 50 / 100)
    (report (run args clock)).p50Us
  p99 : Reports (args.delays clock) (((args.delays clock).length - 1) * 99 / 100)
    (report (run args clock)).p99Us
  p999 : Reports (args.delays clock) (((args.delays clock).length - 1) * 999 / 1000)
    (report (run args clock)).p999Us
  max : Reports (args.delays clock) ((args.delays clock).length - 1)
    (report (run args clock)).maxUs
  ordered : (report (run args clock)).p50Us ≤ (report (run args clock)).p99Us ∧
    (report (run args clock)).p99Us ≤ (report (run args clock)).p999Us ∧
      (report (run args clock)).p999Us ≤ (report (run args clock)).maxUs

section Law

variable {args : Args} {clock : ℕ → Timespec} {delays : List ℕ} {rank rank' value value' n m : ℕ}

/-- The element of the sorted samples that is printed. -/
theorem reports_getD (delays : List ℕ) (rank : ℕ) (h : rank ≤ delays.length - 1) :
    Reports delays rank (if delays.length = 0 then 0
      else (delays.insertionSort (· ≤ ·)).getD rank 0) := by
  rw [Reports]
  split_ifs with hnil hzero hzero
  · rfl
  · exact absurd (hnil ▸ rfl) hzero
  · exact absurd (List.length_eq_zero_iff.1 hzero) hnil
  · exact (Py.atRank_iff_getD 0 (by omega)).2 rfl

theorem Reports.le (h : Reports delays rank value) (h' : Reports delays rank' value')
    (hle : rank ≤ rank') : value ≤ value' := by
  unfold Reports at h h'
  split_ifs at h h'
  · rw [h]
    exact Nat.zero_le _
  · exact h.le h' hle

/-- The deadlines that are kept are the same when none of them is in the last, broken second. -/
theorem min_eq_min_iff (hle : n ≤ m) :
    min n maxSamples = min m maxSamples ↔ ∀ k, 1 ≤ k → k ≤ maxSamples → k ≤ m → k ≤ n := by
  constructor
  · intro h k _ hmax hm
    have := Nat.min_le_left n maxSamples
    omega
  · intro h
    by_contra hne
    have := h (n + 1) (by omega) (by omega) (by omega)
    omega

theorem countBefore_mono {span span' : ℚ} (h : span ≤ span') (interval : ℕ) :
    countBefore span interval ≤ countBefore span' interval :=
  Nat.sub_le_sub_right (Nat.ceil_le_ceil (div_le_div_of_nonneg_right h (Nat.cast_nonneg _))) 1

/-- The condition on the arguments: the last, broken second has no deadline that is kept. -/
def Args.WholeSeconds (args : Args) : Prop :=
  ∀ k : ℕ, 1 ≤ k → k ≤ maxSamples → (k : ℚ) * args.intervalNs < args.duration * 1000000000 →
    (k : ℚ) * args.intervalNs < ⌊args.duration⌋ * 1000000000

/-- The condition on the clock: no delay behind the samples that are kept is greater than all of
them. -/
def NoLaterMaximum (args : Args) (clock : ℕ → Timespec) : Prop :=
  ∀ k : ℕ, maxSamples < k → (k : ℚ) * args.intervalNs < ⌊args.duration⌋ * 1000000000 →
    ∃ j, 1 ≤ j ∧ j ≤ maxSamples ∧ delayAt args clock k ≤ delayAt args clock j

theorem wholeSeconds_iff : args.WholeSeconds ↔
    min (countBefore args.wholeNs args.intervalNs) maxSamples =
      min (countBefore args.spanNs args.intervalNs) maxSamples := by
  rw [min_eq_min_iff (countBefore_mono args.wholeNs_le _)]
  refine forall_congr' fun k => forall_congr' fun hk => forall_congr' fun _ => ?_
  rw [le_countBefore_iff args.interval_pos hk, le_countBefore_iff args.interval_pos hk]
  rfl

/-- The greatest of the delays at the first deadlines. -/
theorem isGreatest_maxDelay (args : Args) (clock : ℕ → Timespec) (hpos : 1 ≤ n) :
    (∀ k, 1 ≤ k → k ≤ n → delayAt args clock k ≤
        ((List.range' 1 n).map (delayAt args clock)).foldl max 0) ∧
      ∃ k, 1 ≤ k ∧ k ≤ n ∧ delayAt args clock k =
        ((List.range' 1 n).map (delayAt args clock)).foldl max 0 := by
  have hle : ∀ k, 1 ≤ k → k ≤ n → delayAt args clock k ≤
      ((List.range' 1 n).map (delayAt args clock)).foldl max 0 := fun k hk hkn =>
    Py.le_foldl_max_iff.2 (.inr ⟨_, List.mem_map_of_mem (List.mem_range'_1.2 (by omega)), le_rfl⟩)
  refine ⟨hle, ?_⟩
  rcases Py.le_foldl_max_iff.1 (le_refl (((List.range' 1 n).map (delayAt args clock)).foldl max 0))
    with hzero | ⟨d, hd, hge⟩
  · exact ⟨1, le_rfl, hpos, le_antisymm (hle 1 le_rfl hpos) (hzero.trans (Nat.zero_le _))⟩
  · obtain ⟨k, hk, rfl⟩ := List.mem_map.1 hd
    rw [List.mem_range'_1] at hk
    exact ⟨k, hk.1, by omega, le_antisymm (hle k hk.1 (by omega)) hge⟩

/-- The greatest delay is one of the samples when no later one is greater. -/
theorem reports_max_iff (clock : ℕ → Timespec) (h : args.WholeSeconds) :
    Reports (args.delays clock) ((args.delays clock).length - 1) (run args clock).maxDelay ↔
      NoLaterMaximum args clock := by
  obtain ⟨next, hkept⟩ := exists_kept_run args clock
  have hmax : (run args clock).maxDelay = _ := hkept.maxDelay
  have hlater : NoLaterMaximum args clock ↔
      ∀ k, maxSamples < k → k ≤ countBefore args.wholeNs args.intervalNs →
        ∃ j, 1 ≤ j ∧ j ≤ maxSamples ∧ delayAt args clock k ≤ delayAt args clock j :=
    forall_congr' fun k => forall_congr' fun hk => by
      rw [le_countBefore_iff args.interval_pos (by omega)]
      rfl
  rw [hlater, hmax, Args.delays, ← wholeSeconds_iff.1 h]
  generalize countBefore args.wholeNs args.intervalNs = n
  -- without a deadline before the end no delay is kept and none is greatest
  rcases Nat.eq_zero_or_pos n with rfl | hpos
  · refine iff_of_true rfl fun k hk hle => ?_
    omega
  have hsamples : 0 < min n maxSamples := Nat.lt_min.2 ⟨hpos, by unfold maxSamples; norm_num⟩
  have hne : (List.range' 1 (min n maxSamples)).map (delayAt args clock) ≠ [] := by
    rw [← List.length_pos_iff, List.length_map, List.length_range']
    exact hsamples
  obtain ⟨hle, k₀, hk₀, hk₀n, hgreatest⟩ := isGreatest_maxDelay args clock hpos
  rw [Reports, if_neg hne, Py.atRank_last_iff hne]
  constructor
  · rintro ⟨hmem, -⟩ k hk hkn
    obtain ⟨j, hj, heq⟩ := List.mem_map.1 hmem
    rw [List.mem_range'_1] at hj
    exact ⟨j, hj.1, by omega, heq ▸ hle k (by omega) hkn⟩
  · intro hnone
    refine ⟨?_, fun d hd => ?_⟩
    · -- the greatest delay is among the samples, or is not greater than one of them
      obtain ⟨j, hj, hjmax, hge⟩ : ∃ j, 1 ≤ j ∧ j ≤ maxSamples ∧
          delayAt args clock k₀ ≤ delayAt args clock j := by
        rcases Nat.lt_or_ge maxSamples k₀ with hlt | hge
        · exact hnone k₀ hlt hk₀n
        · exact ⟨k₀, hk₀, hge, le_rfl⟩
      rcases Nat.lt_or_ge n j with hlt | hjn
      · exact hgreatest ▸ List.mem_map_of_mem (List.mem_range'_1.2 (by omega))
      · have heq := le_antisymm (hle j hj hjn) (hgreatest ▸ hge)
        exact heq ▸ List.mem_map_of_mem (List.mem_range'_1.2 (by omega))
    · obtain ⟨j, hj, rfl⟩ := List.mem_map.1 hd
      rw [List.mem_range'_1] at hj
      exact hle j hj.1 (by omega)

/-- **When the report is that of the deadlines before the end of the duration**: no deadline that is
kept lies in a broken last second, and no delay behind the samples that are kept is greater than
all of them. -/
theorem report_faithful_iff (args : Args) (clock : ℕ → Timespec) :
    Faithful args clock ↔ args.WholeSeconds ∧ NoLaterMaximum args clock := by
  obtain ⟨next, hkept⟩ := exists_kept_run args clock
  have hsamples : (run args clock).samples = _ := hkept.samples
  constructor
  · intro h
    have hlength := congrArg List.length (hsamples.symm.trans h.samples)
    rw [Args.delays, List.length_map, List.length_map, List.length_range', List.length_range']
      at hlength
    have hwhole := wholeSeconds_iff.2 hlength
    exact ⟨hwhole, (reports_max_iff clock hwhole).1 h.max⟩
  · rintro ⟨hwhole, hlater⟩
    rw [wholeSeconds_iff.1 hwhole] at hsamples
    have hdelays : (run args clock).samples = args.delays clock := hsamples
    have hlength := List.length_insertionSort (· ≤ ·) (args.delays clock)
    have h50 : Reports (args.delays clock) (((args.delays clock).length - 1) * 50 / 100)
        (report (run args clock)).p50Us := by
      simp only [report, hdelays, hlength]
      exact reports_getD _ _ (by omega)
    have h99 : Reports (args.delays clock) (((args.delays clock).length - 1) * 99 / 100)
        (report (run args clock)).p99Us := by
      simp only [report, hdelays, hlength]
      exact reports_getD _ _ (by omega)
    have h999 : Reports (args.delays clock) (((args.delays clock).length - 1) * 999 / 1000)
        (report (run args clock)).p999Us := by
      simp only [report, hdelays, hlength]
      exact reports_getD _ _ (by omega)
    have hmax := (reports_max_iff clock hwhole).2 hlater
    refine ⟨hdelays, ?_, h50, h99, h999, hmax, h50.le h99 (by omega), h99.le h999 (by omega),
      h999.le hmax (by omega)⟩
    simp only [report, hdelays, hlength]

/-- Half a second of a probe each millisecond. -/
def halfSecond : Args :=
  { duration := 1 / 2, intervalNs := 1000000
    duration_pos := by norm_num, interval_pos := by norm_num }

/-- On a clock that is never late there are no samples. -/
theorem noSamples : let clock : ℕ → Timespec := fun k => .ofNs (k * 1000000)
    (∀ i j, i ≤ j → (clock i).ns ≤ (clock j).ns) ∧ ¬Faithful halfSecond clock := by
  refine ⟨fun i j hij => ?_, fun h => ?_⟩
  · simp only [Timespec.ns_ofNs]
    exact_mod_cast Nat.mul_le_mul_right 1000000 hij
  · obtain ⟨next, hkept⟩ := exists_kept_run halfSecond fun k => .ofNs (k * 1000000)
    have hlength := congrArg List.length (hkept.samples.symm.trans h.samples)
    have hone := wholeSeconds_iff.2 (by
      simpa only [Args.delays, List.length_map, List.length_range'] using hlength) 1 le_rfl
      (by unfold maxSamples; norm_num)
    norm_num [halfSecond] at hone

end Law

end WakeupLatency

end SchedCoreModes
