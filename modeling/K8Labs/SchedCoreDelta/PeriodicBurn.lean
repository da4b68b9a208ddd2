import K8Labs.Posix.Timespec
import K8Labs.Python.Nearest
import Mathlib.Data.List.Sort

/-!
# The deadlines of `periodic_burn`

A worker of `periodic_burn.c` wakes at each deadline, burns, and skips the deadlines that have
passed meanwhile.  `merge_workload` of `run_matrix.py` derives the missed-period rate from the sums
over the threads.

What a worker does is determined by the readings of its clock, turn by turn.  They need not even be
in order.

* `accounts_iff` : **when every deadline before the end is accounted once, and the rate is the
  missed fraction of them.**
-/

namespace SchedCoreDelta

namespace PeriodicBurn

open Posix

/-! ### The worker -/

/-- The arguments that are not refused.  A duration that is not a number, or whose microseconds do not
fit into a `long`, is not refused either but left out here: C does not define its conversion. -/
structure Args where
  periodUs : ℕ
  burnUs : ℕ
  duration : ℚ
  burn_lt : burnUs < periodUs
  duration_pos : 0 < duration

/-- `(long)(arg->duration_s * 1000000.0)`. -/
def Args.durationUs (args : Args) : ℕ :=
  (Py.truncate (Py.nearest (args.duration * 1000000))).toNat

/-- `MAX_SAMPLES`. -/
def maxSamples : ℕ := 200000

/-- What is counted for a deadline. -/
inductive Account where
  | sample (deadline : Timespec)
  | missed (deadline : Timespec)

/-- The deadline. -/
def Account.deadline : Account → Timespec
  | sample deadline => deadline
  | missed deadline => deadline

/-- The counters of a worker, with the deadlines that the samples and the missed periods are counted
for. -/
structure State where
  next : Timespec
  samples : ℕ
  iterations : ℕ
  overruns : ℕ
  missedPeriods : ℕ
  delays : List ℕ
  accounts : List Account

/-- The readings of the clock in a turn of the loop: behind the sleep, in `burn_until`, and behind
that. -/
structure Turn where
  wake : Timespec
  burns : List Timespec
  done : Timespec

/-- These are the readings of `burn_until`: only the last one is not before the end. -/
def burnUntil (burnEnd : Timespec) : List Timespec → Bool
  | [] => false
  | now :: readings =>
    if 0 ≤ now.cmp burnEnd then readings.isEmpty else burnUntil burnEnd readings

/-- The loop over the deadlines that have passed. -/
def catchUp (args : Args) (now : Timespec) (state : State) : State :=
  if state.next.cmp now ≤ 0 then
    catchUp args now
      { state with
        missedPeriods := state.missedPeriods + 1
        accounts := state.accounts ++ [.missed state.next]
        next := state.next.addUs args.periodUs }
  else state
termination_by (now.ns + 1 - state.next.ns).toNat
decreasing_by
  have hle := Timespec.cmp_nonpos_iff.1 ‹_›
  have := args.burn_lt
  simp only [Timespec.ns_addUs]
  omega

/-- The first half of a turn: the sample, the burst, the next deadline. -/
def State.sample (args : Args) (wake : Timespec) (state : State) : State :=
  let delay := wake.diffUs state.next
  let delay := if delay < 0 then 0 else delay.toNat
  { state with
    delays := if state.delays.length < maxSamples then state.delays ++ [delay] else state.delays
    samples := state.samples + 1
    accounts := state.accounts ++ [.sample state.next]
    iterations := state.iterations + 1
    next := state.next.addUs args.periodUs }

/-- A turn, unless the loop has ended or takes other readings. -/
def step (args : Args) (stop : Timespec) (state : State) (turn : Turn) : Option State :=
  if state.next.cmp stop < 0 ∧ burnUntil (turn.wake.addUs args.burnUs) turn.burns then
    let state := state.sample args turn.wake
    some <|
      if state.next.cmp turn.done ≤ 0 then
        catchUp args turn.done { state with overruns := state.overruns + 1 }
      else state
  else none

/-- The worker: its result, when these are the readings of a whole run. -/
def worker (args : Args) (start : Timespec) (turns : List Turn) : Option State :=
  let first := start.addUs args.periodUs
  let stop := first.addUs args.durationUs
  let state : State :=
    { next := first, samples := 0, iterations := 0, overruns := 0, missedPeriods := 0
      delays := [], accounts := [] }
  (turns.foldlM (step args stop) state).filter fun state => decide (¬state.next.cmp stop < 0)

/-- A run of a worker. -/
structure Run (args : Args) where
  start : Timespec
  turns : List Turn
  result : State
  ends : worker args start turns = some result

/-! ### The row of the group -/

/-- `percentile`. -/
def percentile (values : List ℕ) (permille : ℕ) : ℕ :=
  values.getD ((values.length - 1) * permille / 1000) 0

/-- What `main` writes of the workers' results, but for the spread of the iterations. -/
structure Output where
  samples : ℕ
  iterations : ℕ
  overruns : ℕ
  missedPeriods : ℕ
  p50Us : ℕ
  p99Us : ℕ
  p999Us : ℕ
  maxUs : ℕ
  threadIters : List ℕ

/-- `main` behind the joins. -/
def main (results : List State) : Output :=
  let combined := (results.flatMap State.delays).insertionSort (· ≤ ·)
  { samples := (results.map fun result => result.delays.length).sum
    iterations := (results.map State.iterations).sum
    overruns := (results.map State.overruns).sum
    missedPeriods := (results.map State.missedPeriods).sum
    p50Us := percentile combined 500
    p99Us := percentile combined 990
    p999Us := percentile combined 999
    maxUs := combined.getLastD 0
    threadIters := results.map State.iterations }

/-- What `merge_workload` adds to the row for a periodic workload. -/
structure Row extends Output where
  missedPeriodRatePct : ℚ

/-- `merge_workload` for a periodic workload. -/
def mergeWorkload (data : Output) : Row :=
  { data with
    missedPeriodRatePct :=
      if data.samples + data.missedPeriods ≠ 0 then
        100 * data.missedPeriods / (data.samples + data.missedPeriods)
      else 0 }

/-! ### Deadlines -/

/-- The deadlines of a run, in nanoseconds. -/
def deadline (args : Args) (first : Timespec) (k : ℕ) : ℤ := first.ns + k * (args.periodUs * 1000)

/-- How many of them lie before the end. -/
def Args.due (args : Args) : ℕ := Posix.due args.durationUs args.periodUs

section Deadlines

variable {args : Args} {first now : Timespec} {state state' : State} {turn : Turn}
  {turns : List Turn} {n k m : ℕ}

theorem Args.period_pos (args : Args) : 0 < args.periodUs :=
  (Nat.zero_le _).trans_lt args.burn_lt

theorem lt_due_iff : k < args.due ↔
    deadline args first k < (first.addUs args.durationUs).ns := by
  rw [Args.due, Posix.lt_due_iff args.period_pos, deadline, Timespec.ns_addUs]
  constructor
  · intro h
    have : (k : ℤ) * args.periodUs < args.durationUs := by exact_mod_cast h
    linarith
  · intro h
    have : (k : ℤ) * args.periodUs < args.durationUs := by linarith
    exact_mod_cast this

theorem deadline_succ : deadline args first (k + 1) =
    deadline args first k + args.periodUs * 1000 := by
  rw [deadline, deadline]
  push_cast
  ring

theorem deadline_le_deadline (h : k ≤ m) : deadline args first k ≤ deadline args first m := by
  have hstep : ∀ k, deadline args first k ≤ deadline args first (k + 1) := fun k => by
    have hpos : 0 < (args.periodUs : ℤ) := by exact_mod_cast args.period_pos
    rw [deadline_succ]
    linarith
  exact monotone_nat_of_le_succ hstep h

/-- After `n` turns the first `k` deadlines are accounted, one after the other. -/
structure Accounted (args : Args) (first : Timespec) (n k : ℕ) (state : State) : Prop where
  next : state.next.ns = deadline args first k
  accounts : state.accounts.map (fun account => account.deadline.ns) =
    (List.range k).map (deadline args first)
  samples : state.samples = n
  total : state.samples + state.missedPeriods = k
  delays : state.delays.length = min state.samples maxSamples

/-- The loop over the deadlines that have passed accounts the least number of deadlines such that
the next one has not. -/
theorem Accounted.catchUp (h : Accounted args first n k state) :
    ∃ k', k ≤ k' ∧ Accounted args first n k' (catchUp args now state) ∧
      now.ns < deadline args first k' ∧
        ∀ m, k ≤ m → now.ns < deadline args first m → k' ≤ m := by
  -- one missed deadline for each turn of the loop
  induction state using catchUp.induct args now generalizing k with
  | case1 state hpassed ih =>
    have hle := h.next ▸ Timespec.cmp_nonpos_iff.1 hpassed
    have hnext : Accounted args first n (k + 1)
        { state with
          missedPeriods := state.missedPeriods + 1
          accounts := state.accounts ++ [.missed state.next]
          next := state.next.addUs args.periodUs } := by
      refine ⟨?_, ?_, h.samples, ?_, h.delays⟩
      · rw [Timespec.ns_addUs, h.next, deadline_succ]
      · rw [List.map_append, h.accounts, List.range_succ, List.map_append, List.map_singleton,
          List.map_singleton, Account.deadline, h.next]
      · rw [← h.total]
        rfl
    obtain ⟨k', hk, haccounted, hlater, hleast⟩ := ih hnext
    rw [PeriodicBurn.catchUp, if_pos hpassed]
    refine ⟨k', by omega, haccounted, hlater, fun m hm hlt => hleast m ?_ hlt⟩
    rcases hm.eq_or_lt with rfl | hm
    · exact absurd hle (not_le.2 hlt)
    · exact hm
  | case2 state hpassed =>
    rw [PeriodicBurn.catchUp, if_neg hpassed]
    refine ⟨k, le_rfl, h, ?_, fun m hm _ => hm⟩
    rw [Timespec.cmp_nonpos_iff, not_le, h.next] at hpassed
    exact hpassed

theorem Accounted.sample (h : Accounted args first n k state) (wake : Timespec) :
    Accounted args first (n + 1) (k + 1) (state.sample args wake) := by
  refine ⟨?_, ?_, ?_, ?_, ?_⟩
  · rw [State.sample, Timespec.ns_addUs, h.next, deadline_succ]
  · rw [State.sample, List.map_append, h.accounts, List.range_succ, List.map_append,
      List.map_singleton, List.map_singleton, Account.deadline, h.next]
  · rw [State.sample, h.samples]
  · rw [State.sample, ← h.total, Nat.add_right_comm]
  · have hdelays := h.delays
    unfold State.sample
    dsimp only
    generalize (if wake.diffUs state.next < 0 then 0 else (wake.diffUs state.next).toNat) = delay
    split_ifs with hroom
    · rw [List.length_append, List.length_singleton]
      omega
    · omega

/-- **A turn** accounts the next deadline, and those that have passed by its end. -/
theorem Accounted.step (h : Accounted args first n k state) {stop : Timespec}
    (hstep : step args stop state turn = some state') :
    deadline args first k < stop.ns ∧ ∃ k', k < k' ∧ Accounted args first (n + 1) k' state' ∧
      turn.done.ns < deadline args first k' ∧
        ∀ m, k < m → turn.done.ns < deadline args first m → k' ≤ m := by
  have hsample := h.sample turn.wake
  unfold PeriodicBurn.step at hstep
  split_ifs at hstep with hgoes
  have hbefore := h.next ▸ Timespec.cmp_neg_iff.1 hgoes.1
  refine ⟨hbefore, ?_⟩
  dsimp only at hstep
  split_ifs at hstep with hlate
  · -- the overrun is counted, and the deadlines that have passed are skipped
    have hoverrun : Accounted args first (n + 1) (k + 1)
        { state.sample args turn.wake with
          overruns := (state.sample args turn.wake).overruns + 1 } :=
      ⟨hsample.next, hsample.accounts, hsample.samples, hsample.total, hsample.delays⟩
    obtain rfl := Option.some.inj hstep
    exact hoverrun.catchUp
  · obtain rfl := Option.some.inj hstep
    rw [Timespec.cmp_nonpos_iff, not_le, hsample.next] at hlate
    exact ⟨k + 1, Nat.lt_succ_self k, hsample, hlate, fun m hm _ => hm⟩

/-- **The turns of a run**: each ends before the deadline that is accounted next, and if all end
before the first deadline that is not due, no deadline is accounted that is not due. -/
theorem Accounted.run (h : Accounted args first n k state)
    (hrun : turns.foldlM (PeriodicBurn.step args (first.addUs args.durationUs)) state =
      some state') :
    ∃ k', k ≤ k' ∧ Accounted args first (n + turns.length) k' state' ∧
      (∀ turn ∈ turns, turn.done.ns < deadline args first k') ∧
        (k ≤ args.due → (∀ turn ∈ turns, turn.done.ns < deadline args first args.due) →
          k' ≤ args.due) := by
  induction turns generalizing n k state with
  | nil =>
    obtain rfl := Option.some.inj hrun
    exact ⟨k, le_rfl, h, fun turn hturn => absurd hturn List.not_mem_nil, fun hk _ => hk⟩
  | cons turn turns ih =>
    rw [List.foldlM_cons] at hrun
    obtain ⟨middle, hstep, hrest⟩ := Option.bind_eq_some_iff.1 hrun
    -- each turn is caught up before the next one, so the bound on the first holds of the rest
    obtain ⟨hbefore, k₁, hlt, haccounted, hlater, hleast⟩ := h.step hstep
    obtain ⟨k', hle, haccounted', hdone, hdue⟩ := ih haccounted hrest
    refine ⟨k', by omega, ?_, ?_, fun _ hintime => ?_⟩
    · rw [List.length_cons, Nat.add_comm turns.length, ← Nat.add_assoc]
      exact haccounted'
    · rw [List.forall_mem_cons]
      exact ⟨hlater.trans_le (deadline_le_deadline hle), hdone⟩
    · rw [List.forall_mem_cons] at hintime
      have hk : k < args.due := lt_due_iff.2 hbefore
      exact hdue (hleast args.due hk hintime.1) hintime.2

/-- **A run** accounts the first deadlines, each once, and at least those that are due; it has as
many samples as turns. -/
theorem Run.exists_accounted (run : Run args) : ∃ k, args.due ≤ k ∧
    Accounted args (run.start.addUs args.periodUs) run.turns.length k run.result ∧
      (k = args.due ↔ ∀ turn ∈ run.turns,
        turn.done.ns < deadline args (run.start.addUs args.periodUs) args.due) := by
  have hends := run.ends
  unfold worker at hends
  obtain ⟨hturns, hstop⟩ := Option.filter_eq_some_iff.1 hends
  have hstart : Accounted args (run.start.addUs args.periodUs) 0 0
      { next := run.start.addUs args.periodUs, samples := 0, iterations := 0, overruns := 0
        missedPeriods := 0, delays := [], accounts := [] } :=
    ⟨by simp [deadline], rfl, rfl, rfl, rfl⟩
  obtain ⟨k, -, haccounted, hdone, hdue⟩ := hstart.run hturns
  rw [Nat.zero_add] at haccounted
  have hle : args.due ≤ k := by
    have hnot := of_decide_eq_true hstop
    rw [Timespec.cmp_neg_iff, haccounted.next, ← lt_due_iff] at hnot
    exact not_lt.1 hnot
  refine ⟨k, hle, haccounted, ?_, fun hintime => le_antisymm (hdue (Nat.zero_le _) hintime) hle⟩
  rintro rfl
  exact hdone

end Deadlines

/-! ### The law -/

namespace Run

variable {args : Args}

/-- The first deadline. -/
def first (run : Run args) : Timespec := run.start.addUs args.periodUs

/-- The deadlines before the end. -/
def deadlines (run : Run args) : List ℤ := (List.range args.due).map (deadline args run.first)

/-- The clock has not reached a deadline behind the end. -/
def InTime (run : Run args) : Prop :=
  ∀ turn ∈ run.turns, turn.done.ns < deadline args run.first args.due

end Run

/-- The missed fraction of the deadlines that are due, in percent. -/
def missedFraction (args : Args) (runs : List (Run args)) : ℚ :=
  100 * (runs.map fun run => run.result.missedPeriods).sum / (runs.length * args.due : ℕ)

/-- Every deadline before the end is accounted exactly once, and the derived rate is the missed
fraction of them. -/
structure Accounts (args : Args) (runs : List (Run args)) : Prop where
  once : ∀ run ∈ runs,
    run.result.accounts.map (fun account => account.deadline.ns) = run.deadlines
  total : ∀ run ∈ runs, run.result.samples + run.result.missedPeriods = args.due
  rate : (mergeWorkload (main (runs.map Run.result))).missedPeriodRatePct =
    missedFraction args runs

section Law

variable {args : Args} {runs : List (Run args)}

theorem Run.inTime_iff (run : Run args) :
    run.InTime ↔ run.result.samples + run.result.missedPeriods = args.due := by
  obtain ⟨k, -, haccounted, hintime⟩ := run.exists_accounted
  rw [haccounted.total]
  exact hintime.symm

theorem Run.samples_eq (run : Run args) : run.result.samples = run.turns.length := by
  obtain ⟨k, -, haccounted, -⟩ := run.exists_accounted
  exact haccounted.samples

theorem Run.length_delays (run : Run args) :
    run.result.delays.length = min run.turns.length maxSamples := by
  obtain ⟨k, -, haccounted, -⟩ := run.exists_accounted
  rw [haccounted.delays, haccounted.samples]

theorem Run.once_of_inTime (run : Run args) (h : run.InTime) :
    run.result.accounts.map (fun account => account.deadline.ns) = run.deadlines := by
  obtain ⟨k, -, haccounted, hintime⟩ := run.exists_accounted
  rw [haccounted.accounts, hintime.2 h]
  rfl

/-- The sums over runs that are in time. -/
theorem sum_missedPeriods (h : ∀ run ∈ runs, run.InTime) :
    (runs.map fun run => run.turns.length).sum +
      (runs.map fun run => run.result.missedPeriods).sum = runs.length * args.due := by
  induction runs with
  | nil => simp
  | cons run runs ih =>
    rw [List.forall_mem_cons] at h
    have hrun := run.inTime_iff.1 h.1
    have hruns := ih h.2
    rw [run.samples_eq] at hrun
    rw [List.map_cons, List.sum_cons, List.map_cons, List.sum_cons, List.length_cons,
      Nat.succ_mul]
    omega

/-- The samples that are written are all of them when no worker has more than it keeps. -/
theorem sum_delays_eq_iff : (runs.map fun run => run.result.delays.length).sum =
      (runs.map fun run => run.turns.length).sum ↔
    ∀ run ∈ runs, run.turns.length ≤ maxSamples := by
  induction runs with
  | nil => simp
  | cons run runs ih =>
    have hle : (runs.map fun run => run.result.delays.length).sum ≤
        (runs.map fun run => run.turns.length).sum := by
      refine List.sum_le_sum fun run _ => ?_
      rw [run.length_delays]
      exact Nat.min_le_left _ _
    rw [List.map_cons, List.sum_cons, List.map_cons, List.sum_cons, List.forall_mem_cons, ← ih,
      run.length_delays]
    omega

/-- No period is missed when every thread wakes at every deadline that is due. -/
theorem sum_missedPeriods_eq_zero_iff (h : ∀ run ∈ runs, run.InTime) :
    (runs.map fun run => run.result.missedPeriods).sum = 0 ↔
      ∀ run ∈ runs, run.turns.length = args.due := by
  rw [List.sum_eq_zero_iff, List.forall_mem_map]
  refine forall₂_congr fun run hrun => ?_
  have htotal := run.inTime_iff.1 (h run hrun)
  rw [run.samples_eq] at htotal
  omega

/-- A fraction of too few samples. -/
theorem fraction_eq_iff {written samples missed : ℕ} :
    (if written + missed ≠ 0 then 100 * (missed : ℚ) / (written + missed) else 0) =
        100 * missed / (samples + missed : ℕ) ↔
      written = samples ∨ missed = 0 := by
  rcases Nat.eq_zero_or_pos missed with rfl | hpos
  · simp
  · have hwritten : (0 : ℚ) < written + missed := by exact_mod_cast Nat.add_pos_right _ hpos
    have hsamples : (0 : ℚ) < samples + missed := by exact_mod_cast Nat.add_pos_right _ hpos
    have hmissed : (100 * missed : ℚ) ≠ 0 := by positivity
    rw [if_pos (by omega), Nat.cast_add, div_eq_div_iff hwritten.ne' hsamples.ne',
      mul_right_inj' hmissed, add_left_inj, Nat.cast_inj, eq_comm]
    exact (or_iff_left hpos.ne').symm

/-- The derived rate is the missed fraction when no samples are left out, or there is nothing
missed. -/
theorem rate_eq_iff (h : ∀ run ∈ runs, run.InTime) :
    (mergeWorkload (main (runs.map Run.result))).missedPeriodRatePct = missedFraction args runs ↔
      (∀ run ∈ runs, run.turns.length ≤ maxSamples) ∨
        ∀ run ∈ runs, run.turns.length = args.due := by
  rw [← sum_delays_eq_iff, ← sum_missedPeriods_eq_zero_iff h, ← fraction_eq_iff,
    missedFraction, ← sum_missedPeriods h, mergeWorkload, main]
  dsimp only
  rw [List.map_map, List.map_map]
  rfl

/-- **When the accounting is right**: no clock has reached the first deadline that is not before
the end, and no thread has more samples than it keeps, unless all wake at every deadline. -/
theorem accounts_iff (args : Args) (runs : List (Run args)) : Accounts args runs ↔
    (∀ run ∈ runs, run.InTime) ∧ ((∀ run ∈ runs, run.turns.length ≤ maxSamples) ∨
      ∀ run ∈ runs, run.turns.length = args.due) := by
  constructor
  · intro h
    have hintime : ∀ run ∈ runs, run.InTime := fun run hrun => run.inTime_iff.2 (h.total run hrun)
    exact ⟨hintime, (rate_eq_iff hintime).1 h.rate⟩
  · rintro ⟨hintime, hkept⟩
    exact ⟨fun run hrun => run.once_of_inTime (hintime run hrun),
      fun run hrun => run.inTime_iff.1 (hintime run hrun), (rate_eq_iff hintime).2 hkept⟩

/-- Two deadlines are due in three milliseconds. -/
def threeMs : Args :=
  { periodUs := 2000, burnUs := 200, duration := 3 / 1000
    burn_lt := by norm_num, duration_pos := by norm_num }

/-- A thread that is kept from running after its first burst, for nine milliseconds. -/
def late : Turn := ⟨.ofNs 2000000, [.ofNs 2200000], .ofNs 9000000⟩

/-- It accounts four deadlines. -/
theorem overrun_counted : ∃ run : Run threeMs, run.turns = [late] ∧ ¬Accounts threeMs [run] := by
  obtain ⟨result, hends⟩ : ∃ result, worker threeMs (.ofNs 0) [late] = some result :=
    Option.isSome_iff_exists.1 (by decide +kernel)
  have hmissed : ((worker threeMs (.ofNs 0) [late]).map fun result =>
      result.samples + result.missedPeriods) = some 4 := by decide +kernel
  rw [hends] at hmissed
  refine ⟨⟨.ofNs 0, [late], result, hends⟩, rfl, fun h => ?_⟩
  have htotal := h.total _ List.mem_cons_self
  have hdue : threeMs.due = 2 := by decide +kernel
  have hfour : result.samples + result.missedPeriods = 4 := Option.some.inj hmissed
  dsimp only at htotal
  omega

end Law

end PeriodicBurn

end SchedCoreDelta
