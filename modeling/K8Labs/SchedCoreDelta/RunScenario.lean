import Mathlib.Algebra.Order.Floor.Semiring
import Mathlib.Algebra.Order.BigOperators.Group.List
import Mathlib.Data.Rat.Floor
import Mathlib.Tactic.FieldSimp
import Mathlib.Tactic.Linarith
import Mathlib.Tactic.NormNum

/-!
# The rate of a CPU workload

`run_scenario` of `research/sched-core-delta/experiments/run_matrix.py` starts the workloads of a
group (`workload_command`), lets them warm up, measures for a while and joins what they have written
to the row of the group (`merge_workload`).  `cpu_burn.c` counts iterations from its go-file on.
Times are seconds, with exact arithmetic.

* `record_rate_iff` : **the recorded rate is that of the workload exactly when the measured window
  is as long as the one in which the workload counts, warm-up included.**
* `rate_lt_record` : a window shorter than that overstates the rate.
-/

namespace SchedCoreDelta

namespace RunScenario

/-! ### Commands -/

/-- The file that a workload waits for. -/
inductive GoFile where
  | load
  | probe
  deriving DecidableEq

/-- A workload of a group, with its parameters. -/
inductive Workload where
  | cpu (threads : ℕ)
  | wakeup (intervalUs : ℕ)
  | periodic (threads periodUs burnUs : ℕ)
  | churn (rate workUs : ℕ)
  | pingpong (burnUs : ℕ)
  deriving DecidableEq

/-- An argument on a command line. -/
inductive Arg where
  | int (n : ℕ)
  | seconds (t : ℚ)
  | goFile (file : GoFile)
  | output
  deriving DecidableEq

/-- The flags of a command, each with its argument. -/
abbrev Command := List (String × Arg)

/-- `workload_command`, without the binary. -/
def workloadCommand (workload : Workload) (duration warmup : ℚ) (cpus : ℕ) : Command :=
  match workload with
  | .cpu threads =>
    [("--threads", .int threads), ("--duration", .seconds (warmup + duration + 1 / 2)),
      ("--wait-file", .goFile .load), ("--output", .output)]
  | .wakeup intervalUs =>
    [("--duration", .seconds duration), ("--interval-us", .int intervalUs),
      ("--wait-file", .goFile .probe), ("--output", .output)]
  | .periodic threads periodUs burnUs =>
    [("--threads", .int threads), ("--period-us", .int periodUs), ("--burn-us", .int burnUs),
      ("--duration", .seconds duration), ("--wait-file", .goFile .probe), ("--output", .output)]
  | .churn rate workUs =>
    [("--rate", .int rate), ("--duration", .seconds duration), ("--work-us", .int workUs),
      ("--wait-file", .goFile .probe), ("--output", .output)]
  | .pingpong burnUs =>
    [("--duration", .seconds duration), ("--burn-us", .int burnUs),
      ("--pin", .int (if 2 ≤ cpus then 1 else 0)), ("--pin-cpu", .int 1),
      ("--wait-file", .goFile .probe), ("--output", .output)]

/-! ### `cpu_burn` -/

/-- `struct args`. -/
structure CpuArgs where
  threads : ℕ
  duration : ℚ
  waitFile : Option GoFile
  deriving DecidableEq

/-- One flag of the command line. -/
def CpuArgs.read (args : CpuArgs) : String × Arg → CpuArgs
  | ("--threads", .int n) => { args with threads := n }
  | ("--duration", .seconds t) => { args with duration := t }
  | ("--wait-file", .goFile file) => { args with waitFile := some file }
  | _ => args

/-- The arguments of a command line. -/
def parseArgs (command : Command) : CpuArgs :=
  command.foldl CpuArgs.read { threads := 1, duration := 10, waitFile := none }

/-- The loop of `worker`: `clock` has the reading before each iteration. -/
def burn (clock : ℕ → ℚ) (deadline : ℚ) : ℕ → ℕ → Option ℕ
  | 0, _ => none
  | fuel + 1, iterations =>
    if clock iterations < deadline then burn clock deadline fuel (iterations + 1)
    else some iterations

/-- A thread that works at a constant rate from the moment at which it finds its go-file. -/
structure Thread where
  start : ℚ
  rate : ℚ
  rate_pos : 0 < rate

/-- The clock before each iteration. -/
def Thread.clock (thread : Thread) (iterations : ℕ) : ℚ := thread.start + iterations / thread.rate

/-- The iterations that a thread counts. -/
def Thread.iterations (thread : Thread) (duration : ℚ) (fuel : ℕ) : Option ℕ :=
  burn thread.clock (thread.start + duration) fuel 0

/-- The iterations of all threads, and whether they end before the workload is stopped. -/
def total (duration stopped : ℚ) (fuel : ℕ) : List Thread → Option (ℕ × Bool)
  | [] => some (0, true)
  | thread :: threads =>
    (thread.iterations duration fuel).bind fun n =>
      (total duration stopped fuel threads).map fun rest =>
        (n + rest.1, decide (thread.clock n ≤ stopped) && rest.2)

/-! ### The row of the group -/

/-- What `cpu_burn` writes. -/
structure CpuOutput where
  threads : ℕ
  iterations : ℕ
  deriving DecidableEq

/-- What `merge_workload` adds to the row for a CPU workload. -/
structure CpuRow where
  iterations : ℕ
  iterationsPerS : ℚ
  cpuThreads : ℕ
  deriving DecidableEq

/-- `merge_workload` for a CPU workload; there is no output when the workload was stopped. -/
def mergeWorkload (elapsed : ℚ) (data : Option CpuOutput) : CpuRow :=
  let iterations := (data.map CpuOutput.iterations).getD 0
  { iterations := iterations
    iterationsPerS := if elapsed ≠ 0 then iterations / elapsed else 0
    cpuThreads := (data.map CpuOutput.threads).getD 0 }

/-- A run of a scenario with a CPU workload: the readings of the clock in `run_scenario` and the
threads. -/
structure Run where
  duration : ℚ
  warmup : ℚ
  threads : List Thread
  /-- When the load's go-file is made. -/
  touched : ℚ
  /-- The reading after the warm-up. -/
  started : ℚ
  /-- The reading after the measurement. -/
  finished : ℚ
  /-- When the runner stops the workloads that have not ended. -/
  stopped : ℚ
  duration_pos : 0 < duration
  warmup_nonneg : 0 ≤ warmup
  found : ∀ thread ∈ threads, touched ≤ thread.start
  warmed : touched + warmup ≤ started
  slept : started + duration ≤ finished
  threads_ne_nil : threads ≠ []

namespace Run

variable (run : Run)

/-- `elapsed`. -/
def elapsed : ℚ := run.finished - run.started

/-- The arguments of `cpu_burn`. -/
def args : CpuArgs :=
  parseArgs (workloadCommand (.cpu run.threads.length) run.duration run.warmup 0)

/-- How long the workload counts. -/
def window : ℚ := run.args.duration

/-- The rate of the workload. -/
def rate : ℚ := (run.threads.map Thread.rate).sum

/-- What the workload has written. -/
def output (fuel : ℕ) : Option (Option CpuOutput) :=
  (total run.window run.stopped fuel run.threads).map fun result =>
    if result.2 then some ⟨run.args.threads, result.1⟩ else none

/-- The row of the group. -/
def row (fuel : ℕ) : Option CpuRow := (run.output fuel).map (mergeWorkload run.elapsed)

end Run

/-! ### What the workload counts -/

section Burn

variable {clock : ℕ → ℚ} {deadline duration stopped : ℚ} {fuel iterations n : ℕ}

/-- The loop ends with the first reading that is not before the deadline. -/
theorem burn_eq (hbefore : ∀ i < n, clock i < deadline) (hafter : deadline ≤ clock n)
    (hle : iterations ≤ n) (hfuel : n - iterations < fuel) :
    burn clock deadline fuel iterations = some n := by
  induction fuel generalizing iterations with
  | zero => exact absurd hfuel (Nat.not_lt_zero _)
  | succ fuel ih =>
    rw [burn]
    rcases hle.eq_or_lt with rfl | hlt
    · rw [if_neg (not_lt.2 hafter)]
    · rw [if_pos (hbefore _ hlt)]
      exact ih hlt (by omega)

/-- Without the fuel for that it does not end. -/
theorem burn_eq_none (hbefore : ∀ i < n, clock i < deadline) (hfuel : iterations + fuel ≤ n) :
    burn clock deadline fuel iterations = none := by
  induction fuel generalizing iterations with
  | zero => rfl
  | succ fuel ih =>
    rw [burn, if_pos (hbefore _ (by omega))]
    exact ih (by omega)

/-- The iterations of a thread at its rate. -/
def Thread.counted (thread : Thread) (duration : ℚ) : ℕ := ⌈thread.rate * duration⌉₊

theorem Thread.clock_lt_iff {thread : Thread} {i : ℕ} :
    thread.clock i < thread.start + duration ↔ i < thread.counted duration := by
  rw [Thread.clock, add_lt_add_iff_left, div_lt_iff₀ thread.rate_pos, mul_comm, Thread.counted,
    Nat.lt_ceil]

/-- A thread counts what its rate gives in its window, the iteration under way at its end
included. -/
theorem Thread.iterations_eq {thread : Thread} :
    thread.iterations duration fuel =
      if thread.counted duration < fuel then some (thread.counted duration) else none := by
  have hbefore : ∀ i < thread.counted duration, thread.clock i < thread.start + duration :=
    fun i hi => Thread.clock_lt_iff.2 hi
  split_ifs with hfuel
  · refine burn_eq hbefore ?_ (Nat.zero_le _) hfuel
    exact not_lt.1 fun hlt => lt_irrefl _ (Thread.clock_lt_iff.1 hlt)
  · exact burn_eq_none hbefore (by omega)

/-- The iterations that the threads count at their rates. -/
def countedBy (duration : ℚ) (threads : List Thread) : ℕ :=
  (threads.map fun thread => thread.counted duration).sum

/-- A thread ends its last iteration before the workload is stopped. -/
def Ends (duration stopped : ℚ) (thread : Thread) : Prop :=
  thread.clock (thread.counted duration) ≤ stopped

instance decidableEnds (duration stopped : ℚ) (thread : Thread) :
    Decidable (Ends duration stopped thread) :=
  inferInstanceAs (Decidable (_ ≤ _))

theorem total_eq {threads : List Thread} : total duration stopped fuel threads =
    if ∀ thread ∈ threads, thread.counted duration < fuel then
      some (countedBy duration threads, decide (∀ thread ∈ threads, Ends duration stopped thread))
    else none := by
  induction threads with
  | nil => rfl
  | cons thread threads ih =>
    have hends : decide (∀ t ∈ thread :: threads, Ends duration stopped t) =
        (decide (thread.clock (thread.counted duration) ≤ stopped) &&
          decide (∀ t ∈ threads, Ends duration stopped t)) := by
      rw [← Bool.decide_and]
      exact decide_eq_decide.2 List.forall_mem_cons
    rw [total, Thread.iterations_eq, ih, hends]
    simp only [List.forall_mem_cons]
    -- one thread without enough fuel leaves no total
    by_cases hfuel : thread.counted duration < fuel
    · by_cases hrest : ∀ t ∈ threads, t.counted duration < fuel
      · rw [if_pos hfuel, if_pos hrest, if_pos ⟨hfuel, hrest⟩]
        rfl
      · have hnot : ¬(thread.counted duration < fuel ∧
            ∀ t ∈ threads, t.counted duration < fuel) := fun h => hrest h.2
        rw [if_pos hfuel, if_neg hrest, if_neg hnot]
        rfl
    · have hnot : ¬(thread.counted duration < fuel ∧
          ∀ t ∈ threads, t.counted duration < fuel) := fun h => hfuel h.1
      rw [if_neg hfuel, if_neg hnot]
      rfl

end Burn

/-! ### The two windows -/

namespace Run

variable (run : Run)

/-- The iterations of the workload in its window. -/
def counted : ℕ := countedBy run.window run.threads

/-- The part of the counted iterations that lies beyond the window: each thread ends the one it is
in. -/
def excess : ℚ :=
  (run.threads.map fun thread =>
    (thread.counted run.window : ℚ) - thread.rate * run.window).sum

/-- Every thread ends before the workload is stopped. -/
def AllEnd : Prop := ∀ thread ∈ run.threads, Ends run.window run.stopped thread

instance decidableAllEnd : Decidable run.AllEnd := inferInstanceAs (Decidable (∀ _ ∈ _, _))

/-- The row holds the rate of the workload, and there is a row. -/
def RecordsRate : Prop := ∃ fuel row, run.row fuel = some row ∧ row.iterationsPerS = run.rate

variable {run}

theorem window_eq (run : Run) : run.window = run.warmup + run.duration + 1 / 2 := rfl

theorem elapsed_pos (run : Run) : 0 < run.elapsed := by
  have := run.slept
  have := run.duration_pos
  rw [elapsed]
  linarith

theorem rate_pos (run : Run) : 0 < run.rate :=
  List.sum_pos _ (fun _ hrate => by
    obtain ⟨thread, -, rfl⟩ := List.mem_map.1 hrate
    exact thread.rate_pos) fun h => run.threads_ne_nil (List.map_eq_nil_iff.1 h)

/-- The row is there with enough fuel. -/
theorem exists_fuel (run : Run) :
    ∃ enough, ∀ fuel ≥ enough, ∀ thread ∈ run.threads, thread.counted run.window < fuel := by
  refine ⟨run.counted + 1, fun fuel hfuel thread hthread => ?_⟩
  have hle : thread.counted run.window ≤ run.counted :=
    List.single_le_sum (fun _ _ => Nat.zero_le _) _ (List.mem_map_of_mem hthread)
  omega

/-- The recorded rate. -/
theorem iterationsPerS_eq {fuel : ℕ} {row : CpuRow} (h : run.row fuel = some row) :
    row.iterationsPerS = if run.AllEnd then run.counted / run.elapsed else 0 := by
  have helapsed := run.elapsed_pos.ne'
  have hends : decide (∀ thread ∈ run.threads, Ends run.window run.stopped thread) =
      decide run.AllEnd := decide_eq_decide.2 Iff.rfl
  rw [Run.row, output, total_eq, hends] at h
  split_ifs at h
  · cases h
    by_cases hall : run.AllEnd
    · simp only [hall, decide_true, if_true]
      exact if_pos helapsed
    · -- a stopped workload has written nothing, which counts as no iterations
      simp only [hall, decide_false, Bool.false_eq_true, if_false]
      exact (if_pos helapsed).trans (by simp)
  · cases h

theorem exists_row (run : Run) : ∃ fuel row, run.row fuel = some row := by
  obtain ⟨enough, henough⟩ := run.exists_fuel
  refine ⟨enough, ?_⟩
  rw [Run.row, output, total_eq, if_pos (henough enough le_rfl)]
  exact ⟨_, rfl⟩

theorem counted_eq (run : Run) : (run.counted : ℚ) = run.rate * run.window + run.excess := by
  unfold counted countedBy rate excess
  generalize run.threads = threads
  induction threads with
  | nil => simp
  | cons thread threads ih =>
    simp only [List.map_cons, List.sum_cons, Nat.cast_add, ih]
    ring

theorem excess_nonneg (run : Run) : 0 ≤ run.excess := by
  refine List.sum_nonneg fun x hx => ?_
  obtain ⟨thread, -, rfl⟩ := List.mem_map.1 hx
  exact sub_nonneg.2 (Nat.le_ceil _)

/-- **When the recorded rate is that of the workload**: its threads end in time, and the measured
window is as long as the warm-up, the measurement, the half second behind it and what the last
iterations take beyond that. -/
theorem record_rate_iff (run : Run) :
    run.RecordsRate ↔ run.AllEnd ∧
      run.elapsed = run.warmup + run.duration + 1 / 2 + run.excess / run.rate := by
  have hrate := run.rate_pos
  have helapsed := run.elapsed_pos
  have hwindows : run.counted / run.elapsed = run.rate ↔
      run.elapsed = run.warmup + run.duration + 1 / 2 + run.excess / run.rate := by
    rw [counted_eq, window_eq, div_eq_iff helapsed.ne']
    constructor
    · intro h
      field_simp
      linarith
    · intro h
      rw [h]
      field_simp
  constructor
  · rintro ⟨fuel, row, hrow, hrecord⟩
    rw [iterationsPerS_eq hrow] at hrecord
    -- a thread that does not end in time leaves a rate of zero
    split_ifs at hrecord with hall
    · exact ⟨hall, hwindows.1 hrecord⟩
    · exact absurd hrecord hrate.ne
  · rintro ⟨hall, hwindow⟩
    obtain ⟨fuel, row, hrow⟩ := run.exists_row
    refine ⟨fuel, row, hrow, ?_⟩
    rw [iterationsPerS_eq hrow, if_pos hall]
    exact hwindows.2 hwindow

/-- A measured window shorter than the workload's overstates the rate. -/
theorem rate_lt_record {fuel : ℕ} {row : CpuRow} (hrow : run.row fuel = some row)
    (hall : run.AllEnd) (hshort : run.elapsed < run.warmup + run.duration + 1 / 2) :
    run.rate < row.iterationsPerS := by
  rw [iterationsPerS_eq hrow, if_pos hall, lt_div_iff₀ run.elapsed_pos]
  calc run.rate * run.elapsed < run.rate * run.window :=
        mul_lt_mul_of_pos_left hshort run.rate_pos
    _ ≤ run.rate * run.window + run.excess := le_add_of_nonneg_right run.excess_nonneg
    _ = run.counted := run.counted_eq.symm

/-- A run with the default times, of one thread with a thousand iterations a second. -/
def byDefault : Run where
  duration := 8
  warmup := 2
  threads := [⟨0, 1000, by norm_num⟩]
  touched := 0
  started := 2
  finished := 10
  stopped := 13
  duration_pos := by norm_num
  warmup_nonneg := by norm_num
  found := by simp
  warmed := by norm_num
  slept := by norm_num
  threads_ne_nil := by simp

/-- It records 1312.5 iterations a second. -/
theorem overstated : ¬ byDefault.RecordsRate := by
  rintro ⟨fuel, row, hrow, hrecord⟩
  have hall : byDefault.AllEnd := by decide +kernel
  refine absurd hrecord (rate_lt_record hrow hall ?_).ne'
  norm_num [byDefault, elapsed]

end Run

end RunScenario

end SchedCoreDelta
