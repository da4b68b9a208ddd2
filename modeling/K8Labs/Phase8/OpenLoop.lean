import K8Labs.Phase8.Loadgen
import K8Labs.Python.OrderStatistics
import Mathlib.Algebra.Order.Field.Basic
import Mathlib.Data.List.Sort
import Mathlib.Data.Rat.Floor
import Mathlib.Tactic.FieldSimp
import Mathlib.Tactic.Linarith
import Mathlib.Tactic.Positivity

/-!
# The open loop of the load generator

`run_open` of `loadgen/src/main.rs`: the requests are released on a fixed schedule, and the drain
waits for their responses until a deadline.  Times are exact, in seconds from the start of the run,
and so are the rate, which is a double in the source, and the interval between two requests, which
`Duration::from_secs_f64` rounds to whole nanoseconds (333333333 at a rate of 3).

* `drain_eq` : when every response comes before the deadline, the drain takes all of them.
* `openLoop_valid_iff` : an undisturbed run is valid exactly when the last response, also of a
  request of the warm-up, comes soon enough after the warm-up.
-/

namespace Phase8

/-! ### The schedule -/

/-- `warmup_secs + duration_secs`. -/
def Args.totalSecs (args : Args) : ℚ := args.warmupSecs + args.durationSecs

/-- `total_requests`. -/
def totalRequests (args : Args) : ℕ := min ⌊args.rate * args.totalSecs + 1 / 2⌋.toNat (2 ^ 64 - 1)

/-- When a request is due: `start + interval * sequence as u32`, with the exact quotient as the
interval. -/
def due (args : Args) (sequence : ℕ) : ℚ := (sequence % 2 ^ 32 : ℕ) / args.rate

/-- The requests that are due after the warm-up. -/
def measuredRequests (args : Args) : ℕ :=
  (List.range (totalRequests args)).countP fun sequence =>
    (args.warmupSecs : ℚ) ≤ due args sequence

/-! ### The drain -/

/-- A response: when it comes, when its request was issued, and what it is. -/
structure Completion where
  time : ℚ
  issuedAt : ℚ
  outcome : RequestOutcome

/-- The loop that drains the responses: what it takes, and when it ends. -/
def drain (deadline : ℚ) : ℚ → List Completion → List Completion × ℚ
  | now, [] => ([], now)
  | now, completion :: completions =>
    let wait := max (deadline - now) (1 / 1000)
    if completion.time ≤ now + wait then
      let drained := drain deadline (max now completion.time) completions
      (completion :: drained.1, drained.2)
    else ([], now + wait)

/-- What happened in a run: when the requests were issued, and how long they took. -/
structure OpenRun where
  timeoutMs : ℕ
  issued : ℕ → ℚ
  latency : ℕ → ℚ

section Run

variable (args : Args) (run : OpenRun)

/-- The response to a request that succeeds. -/
def OpenRun.completion (sequence : ℕ) : Completion where
  time := run.issued sequence + run.latency sequence
  issuedAt := run.issued sequence
  outcome :=
    { latencyMs := run.latency sequence * 1000
      ok := true
      scheduleSlipMs := max (run.issued sequence - due args sequence) 0 * 1000 }

/-- The responses as they come. -/
def OpenRun.completions : List Completion :=
  ((List.range (totalRequests args)).map (run.completion args)).insertionSort fun a b =>
    a.time ≤ b.time

/-- `drain_deadline`. -/
def OpenRun.deadline : ℚ := args.totalSecs + run.timeoutMs / 1000

/-- The drain, from the last request on. -/
def OpenRun.drained : List Completion × ℚ :=
  drain (run.deadline args) ((List.range (totalRequests args)).foldl (fun _ k => run.issued k) 0)
    (run.completions args)

/-- The outcomes that `run_open` returns: of the requests issued after the warm-up. -/
def OpenRun.outcomeList : List RequestOutcome :=
  ((run.drained args).1.filter fun completion =>
    (args.warmupSecs : ℚ) ≤ completion.issuedAt).map Completion.outcome

/-- `measured_elapsed`. -/
def OpenRun.elapsed : ℚ := max ((run.drained args).2 - args.warmupSecs) 0

/-- Every request is issued on schedule and succeeds within the timeout. -/
structure OpenRun.Undisturbed : Prop where
  on_schedule : ∀ sequence < totalRequests args, run.issued sequence = due args sequence
  nonneg : ∀ sequence < totalRequests args, 0 ≤ run.latency sequence
  within : ∀ sequence < totalRequests args, run.latency sequence ≤ run.timeoutMs / 1000

end Run

/-! ### What the drain takes -/

variable {args : Args} {run : OpenRun} {deadline now : ℚ} {completions : List Completion}

theorem length_drain_le : (drain deadline now completions).1.length ≤ completions.length := by
  induction completions generalizing now with
  | nil => exact le_rfl
  | cons completion completions ih =>
    rw [drain]
    dsimp only
    split_ifs
    · exact Nat.succ_le_succ ih
    · exact Nat.zero_le _

/-- **Responses before the deadline** are all taken, and the drain ends with the last one. -/
theorem drain_eq (h : ∀ completion ∈ completions, completion.time ≤ deadline) :
    drain deadline now completions =
      (completions, completions.foldl (fun last completion => max last completion.time) now) := by
  induction completions generalizing now with
  | nil => rfl
  | cons completion completions ih =>
    obtain ⟨hfirst, hrest⟩ := List.forall_mem_cons.1 h
    have hwait : completion.time ≤ now + max (deadline - now) (1 / 1000) := by
      have hleft := le_max_left (deadline - now) (1 / 1000)
      linarith
    rw [drain]
    dsimp only
    rw [if_pos hwait, ih hrest]
    rfl

theorem length_outcomeList_lt : (run.outcomeList args).length < 2 ^ 64 := by
  have hdrain : (run.drained args).1.length ≤ totalRequests args := by
    refine length_drain_le.trans_eq ?_
    rw [OpenRun.completions, List.length_insertionSort, List.length_map, List.length_range]
  have htotal : totalRequests args ≤ 2 ^ 64 - 1 := min_le_right _ _
  have hfilter := List.length_filter_le
    (fun completion : Completion => decide ((args.warmupSecs : ℚ) ≤ completion.issuedAt))
    (run.drained args).1
  rw [OpenRun.outcomeList, List.length_map]
  omega

/-- The outcomes of a run. -/
def OpenRun.outcomes (args : Args) (run : OpenRun) : Outcomes :=
  ⟨run.outcomeList args, length_outcomeList_lt⟩

/-- What the generator writes after a run. -/
def OpenRun.written (summarize : List ℕ → Option LatencySummary) (args : Args) (run : OpenRun) :
    Option Report :=
  report summarize args (run.outcomes args) (run.elapsed args)

/-! ### Undisturbed runs -/

theorem due_le {sequence : ℕ} (hrate : 0 < args.rate) (hsequence : sequence < totalRequests args) :
    due args sequence ≤ args.totalSecs := by
  have htotal : totalRequests args ≤ ⌊args.rate * args.totalSecs + 1 / 2⌋.toNat := min_le_left _ _
  have hnonneg : 0 ≤ args.totalSecs := by
    unfold Args.totalSecs
    positivity
  have hfloor : ((sequence : ℤ) + 1 : ℤ) ≤ ⌊args.rate * args.totalSecs + 1 / 2⌋ := by omega
  have hreach := Int.le_floor.1 hfloor
  have hmod : ((sequence % 2 ^ 32 : ℕ) : ℚ) ≤ sequence := by exact_mod_cast Nat.mod_le _ _
  rw [due, div_le_iff₀ hrate]
  push_cast at hreach
  linarith

theorem mem_completions {completion : Completion} : completion ∈ run.completions args ↔
    ∃ sequence < totalRequests args, run.completion args sequence = completion := by
  rw [OpenRun.completions, List.mem_insertionSort, List.mem_map]
  simp only [List.mem_range]

section Undisturbed

variable (hrun : run.Undisturbed args)

include hrun

theorem drained_eq (hrate : 0 < args.rate) : run.drained args =
    (run.completions args, (run.completions args).foldl
      (fun last completion => max last completion.time)
      ((List.range (totalRequests args)).foldl (fun _ k => run.issued k) 0)) := by
  refine drain_eq fun completion hcompletion => ?_
  obtain ⟨sequence, hsequence, rfl⟩ := mem_completions.1 hcompletion
  have hdue := due_le hrate hsequence
  have hwithin := hrun.within sequence hsequence
  show run.issued sequence + run.latency sequence ≤ args.totalSecs + run.timeoutMs / 1000
  rw [hrun.on_schedule sequence hsequence]
  linarith

/-- When an undisturbed run ends. -/
theorem end_le_iff (hrate : 0 < args.rate) (hsome : 0 < totalRequests args) {x : ℚ} :
    (run.drained args).2 ≤ x ↔
      ∀ sequence < totalRequests args, due args sequence + run.latency sequence ≤ x := by
  have hlast : (List.range (totalRequests args)).foldl (fun _ k => run.issued k) 0 =
      due args (totalRequests args - 1) := by
    obtain ⟨n, hn⟩ : ∃ n, totalRequests args = n + 1 := ⟨totalRequests args - 1, by omega⟩
    rw [hn, List.range_succ, List.foldl_append, List.foldl_cons, List.foldl_nil, Nat.add_sub_cancel]
    exact hrun.on_schedule n (by omega)
  rw [drained_eq hrun hrate, ← List.foldl_map, Py.foldl_max_le_iff, List.forall_mem_map, hlast]
  constructor
  · rintro ⟨-, h⟩ sequence hsequence
    have htime := h _ (mem_completions.2 ⟨sequence, hsequence, rfl⟩)
    rwa [OpenRun.completion, hrun.on_schedule sequence hsequence] at htime
  · intro h
    refine ⟨?_, fun completion hcompletion => ?_⟩
    · have hbefore : totalRequests args - 1 < totalRequests args := by omega
      have htime := h _ hbefore
      have hnonneg := hrun.nonneg _ hbefore
      linarith
    · obtain ⟨sequence, hsequence, rfl⟩ := mem_completions.1 hcompletion
      have htime := h sequence hsequence
      rwa [OpenRun.completion, hrun.on_schedule sequence hsequence]

theorem length_outcomes (hrate : 0 < args.rate) :
    (run.outcomes args).toList.length = measuredRequests args := by
  show (run.outcomeList args).length = _
  rw [OpenRun.outcomeList, List.length_map, drained_eq hrun hrate, ← List.countP_eq_length_filter,
    OpenRun.completions, (List.perm_insertionSort _ _).countP_eq, List.countP_map, measuredRequests]
  refine List.countP_congr fun sequence hsequence => ?_
  rw [Function.comp_apply, OpenRun.completion,
    hrun.on_schedule sequence (List.mem_range.1 hsequence)]

theorem no_errors (hrate : 0 < args.rate) :
    (run.outcomes args).toList.countP (fun o => !o.ok) = 0 := by
  refine List.countP_eq_zero.2 fun outcome houtcome => ?_
  obtain ⟨completion, hcompletion, rfl⟩ := List.mem_map.1 houtcome
  have hmem := List.mem_of_mem_filter hcompletion
  rw [drained_eq hrun hrate] at hmem
  obtain ⟨sequence, -, rfl⟩ := mem_completions.1 hmem
  exact Bool.false_ne_true

omit hrun in
theorem written_eq {summarize : List ℕ → Option LatencySummary} {r : Report}
    (hmode : args.mode = .openLoop) (h : run.written summarize args = some r) :
    0 < args.rate ∧
      ∃ latency, r = reportOf args (run.outcomes args) (run.elapsed args) latency := by
  rw [OpenRun.written, report] at h
  split_ifs at h with hrefused
  obtain ⟨latency, -, rfl⟩ := Option.map_eq_some_iff.1 h
  exact ⟨not_le.1 fun hle => hrefused ⟨hle, hmode⟩, latency, rfl⟩

omit hrun in
theorem validity_open_iff {rate achievedRate : ℚ} {completed : ℕ} (h : completed ≠ 0) :
    (validity .openLoop rate achievedRate completed 0).1 = true ↔
      1 - achievedRate / rate ≤ 1 / 10 := by
  have herrors : ¬ (1 / 2 : ℚ) < ((0 : ℕ) : ℚ) / completed := by
    rw [Nat.cast_zero, zero_div]
    norm_num
  rw [validity, if_neg h, if_neg herrors]
  by_cases hshort : 1 / 10 < 1 - achievedRate / rate
  · rw [if_pos hshort]
    exact iff_of_false Bool.false_ne_true (not_le.2 hshort)
  · rw [if_neg hshort]
    exact iff_of_true rfl (not_lt.1 hshort)

/-- **An undisturbed run is valid** exactly when every response, also to a request of the warm-up,
comes within `10 n / (9 rate)` seconds after the warm-up, for the `n` requests that are due after
it. -/
theorem openLoop_valid_iff {summarize : List ℕ → Option LatencySummary} {r : Report}
    (hmode : args.mode = .openLoop) (h : run.written summarize args = some r) :
    r.valid = true ↔ 9 * args.rate ≤ 10 ^ 10 * measuredRequests args ∧
      ∀ sequence < totalRequests args, due args sequence + run.latency sequence ≤
        args.warmupSecs + 10 * measuredRequests args / (9 * args.rate) := by
  obtain ⟨hrate, latency, rfl⟩ := written_eq hmode h
  have hvalid : (reportOf args (run.outcomes args) (run.elapsed args) latency).valid =
      (validity args.mode args.rate
        ((run.outcomes args).toList.length / max (run.elapsed args) (1 / 10 ^ 9))
        (run.outcomes args).toList.length
        ((run.outcomes args).toList.countP fun o => !o.ok)).1 := rfl
  rw [hvalid, no_errors hrun hrate, length_outcomes hrun hrate, hmode]
  by_cases hnone : measuredRequests args = 0
  · -- nothing is measured, and the limit of the rate is zero
    have hzero : ¬ 9 * args.rate ≤ 10 ^ 10 * (measuredRequests args : ℚ) := by
      rw [hnone, Nat.cast_zero, mul_zero, not_le]
      positivity
    simp [validity, hnone, hrate]
  · have hsome : 0 < totalRequests args := by
      have hle : measuredRequests args ≤ totalRequests args :=
        List.countP_le_length.trans_eq List.length_range
      omega
    have hlimit : (1 : ℚ) / 10 ^ 9 ≤ 10 * measuredRequests args / (9 * args.rate) ↔
        9 * args.rate ≤ 10 ^ 10 * measuredRequests args := by
      rw [le_div_iff₀ (by positivity)]
      constructor <;> intro hle <;> linarith
    have hwindow : 0 < max (run.elapsed args) (1 / 10 ^ 9) := lt_max_of_lt_right (by norm_num)
    have hshort : 1 - (measuredRequests args / max (run.elapsed args) (1 / 10 ^ 9)) / args.rate ≤
          1 / 10 ↔
        max (run.elapsed args) (1 / 10 ^ 9) ≤ 10 * measuredRequests args / (9 * args.rate) := by
      rw [sub_le_comm, div_div, le_div_iff₀ (by positivity), le_div_iff₀ (by positivity)]
      constructor <;> intro hle <;> linarith
    have hnonneg : (0 : ℚ) ≤ 10 * measuredRequests args / (9 * args.rate) := by positivity
    rw [validity_open_iff hnone, hshort, max_le_iff, OpenRun.elapsed, max_le_iff,
      and_iff_left hnonneg, sub_le_iff_le_add', end_le_iff hrun hrate hsome, hlimit, and_comm]

end Undisturbed

/-! ### Two seconds -/

/-- One request each second, without a warm-up. -/
def secondsArgs (durationSecs : ℕ) : Args :=
  ⟨"http://bench-cell:8080", .openLoop, 1, 8, durationSecs, 0, .balanced⟩

/-- Every request is issued on schedule and takes two seconds. -/
def twoSeconds (args : Args) : OpenRun := ⟨5000, due args, fun _ => 2⟩

theorem undisturbed_twoSeconds (args : Args) : (twoSeconds args).Undisturbed args where
  on_schedule _ _ := rfl
  nonneg _ _ := by norm_num [twoSeconds]
  within _ _ := by norm_num [twoSeconds]

/-- The summary of latencies that are all the same and at most 2047 milliseconds. -/
def sameLatency : List ℕ → Option LatencySummary
  | [] => some ⟨0, 0, 0, 0, 0, 0, 0⟩
  | latency :: _ => some ⟨latency, latency, latency, latency, latency, latency, latency⟩

/-- Five requests on schedule that all succeed within the timeout; the last response comes after six
seconds, and the run is not valid. -/
theorem last_response_invalidates :
    (twoSeconds (secondsArgs 5)).Undisturbed (secondsArgs 5) ∧
      ((twoSeconds (secondsArgs 5)).written sameLatency (secondsArgs 5)).map Report.valid =
        some false :=
  ⟨undisturbed_twoSeconds _, by decide +kernel⟩

/-- With ten requests the last response comes soon enough. -/
theorem valid_ten_seconds :
    ∃ r, (twoSeconds (secondsArgs 10)).written sameLatency (secondsArgs 10) = some r ∧
      (r.valid = true ↔ 9 * (secondsArgs 10).rate ≤ 10 ^ 10 * measuredRequests (secondsArgs 10) ∧
        ∀ sequence < totalRequests (secondsArgs 10), due (secondsArgs 10) sequence + 2 ≤
          (secondsArgs 10).warmupSecs +
            10 * measuredRequests (secondsArgs 10) / (9 * (secondsArgs 10).rate)) := by
  have hsome : ((twoSeconds (secondsArgs 10)).written sameLatency (secondsArgs 10)).isSome = true := by
    decide +kernel
  obtain ⟨r, h⟩ := Option.isSome_iff_exists.1 hsome
  exact ⟨r, h, openLoop_valid_iff (undisturbed_twoSeconds _) rfl h⟩

end Phase8
