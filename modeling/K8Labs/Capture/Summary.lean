import K8Labs.Timeline.Packing
import Mathlib.Algebra.Order.Group.Int
import Mathlib.Data.Finset.Sort
import Mathlib.Data.Int.ConditionallyCompleteOrder
import Mathlib.Data.List.Sort
import Mathlib.Order.ConditionallyCompleteLattice.Basic

/-!
# The scheduler trace summary

`research/cpu-limits/capture/parse_trace.py` folds the events of a scheduler trace into intervals on
and off the CPU, run-queue delays and context-switch counts of the requested processes.

* `Tally.step` is the body of the loop of `summarize_trace`; a `sched_switch` first switches one
  process out (`Tally.switchOut`) and then another in (`Tally.switchIn`).
* `Accounted` is the invariant of the loop over the events seen so far.  Its heart is that the
  intervals of a process are packed up to the start that is pending for it (`Timeline.Packed`).
* `summarizeTrace_accounting` is the result: **intervals of one process never overlap, exceed the
  trace or run backwards, at most one start is pending, switches are counted once each, and a delay
  is measured from the latest wakeup.**
-/

namespace Capture

open Timeline

/-! ### Events -/

/-- `TraceEvent`: one valid record of the trace.  `row` is the record under the stable columns. -/
structure TraceEvent where
  event : String
  tsNs : ℤ
  pid : ℤ
  targetPid : Option ℤ
  runtimeNs : Option ℤ
  row : List (String × String)
  deriving DecidableEq

/-- `_WAKEUP_EVENTS`. -/
def wakeupEvents : List String := ["sched_wakeup", "sched_wakeup_new"]

/-- `_THROTTLE_EVENTS`. -/
def throttleEvents : List String := ["throttle_cfs_rq", "throttle_cfs_rq_work", "unthrottle_cfs_rq"]

variable (targetPids : Finset ℤ)

/-- `pid in target_pids` for a pid that may be `None`. -/
def isTarget (pid : Option ℤ) : Bool := pid.any fun p => decide (p ∈ targetPids)

/-- `_related`. -/
def related (event : TraceEvent) : Bool :=
  isTarget targetPids event.pid || isTarget targetPids event.targetPid

/-- `_target_from_wakeup`. -/
def targetFromWakeup (event : TraceEvent) : Option ℤ :=
  let candidate := event.targetPid.getD event.pid
  if candidate ∈ targetPids then some candidate else none

/-- `_switch_in_pid`. -/
def switchInPid (event : TraceEvent) : Option ℤ :=
  if isTarget targetPids event.targetPid then event.targetPid
  else if event.targetPid = none ∧ event.pid ∈ targetPids then some event.pid
  else none

/-- `_switch_out_pid`. -/
def switchOutPid (event : TraceEvent) : Option ℤ :=
  if event.pid ∈ targetPids ∧ event.targetPid ≠ some event.pid then some event.pid else none

/-- The process a runtime sample or a throttle event is charged to. -/
def chargedPid (event : TraceEvent) : ℤ :=
  match event.targetPid with
  | some target => if target ∈ targetPids then target else event.pid
  | none => event.pid

/-! ### The fold -/

/-- An interval on or off the CPU. -/
structure Interval where
  pid : ℤ
  startTsNs : ℤ
  endTsNs : ℤ
  durationNs : ℤ
  deriving DecidableEq

/-- A run-queue delay. -/
structure Delay where
  pid : ℤ
  wakeupTsNs : ℤ
  switchTsNs : ℤ
  delayNs : ℤ
  deriving DecidableEq

/-- A throttle event of a process. -/
structure ThrottleEvent where
  pid : ℤ
  event : String
  tsNs : ℤ
  deriving DecidableEq

/-- A runtime sample of a process. -/
structure RuntimeSample where
  pid : ℤ
  tsNs : ℤ
  runtimeNs : ℤ
  deriving DecidableEq

/-- The variables of the loop.  The three dictionaries of pending starts and wakeups are functions;
the counter keeps its keys in the order of their first switch. -/
structure Tally where
  delays : List Delay := []
  onCpu : List Interval := []
  offCpu : List Interval := []
  throttles : List ThrottleEvent := []
  runtimeSamples : List RuntimeSample := []
  switches : List (ℤ × ℕ) := []
  pendingWakeups : ℤ → Option TraceEvent := fun _ => none
  onCpuStart : ℤ → Option ℤ := fun _ => none
  offCpuStart : ℤ → Option ℤ := fun _ => none

/-- The interval from a pending start to now, when there is one. -/
def closeInterval (pid : ℤ) (start : Option ℤ) (now : ℤ) : List Interval :=
  match start with
  | some s => if s ≤ now then [⟨pid, s, now, now - s⟩] else []
  | none => []

/-- The delay from a pending wakeup to now, when there is one. -/
def closeDelay (pid : ℤ) (wakeup : Option TraceEvent) (now : ℤ) : List Delay :=
  match wakeup with
  | some w => if w.tsNs ≤ now then [⟨pid, w.tsNs, now, now - w.tsNs⟩] else []
  | none => []

/-- `switches[pid] += 1`. -/
def increment (pid : ℤ) : List (ℤ × ℕ) → List (ℤ × ℕ)
  | [] => [(pid, 1)]
  | (p, n) :: switches => if p = pid then (p, n + 1) :: switches else (p, n) :: increment pid switches

/-- `switches[pid]`, zero for a missing key. -/
def switchCount (switches : List (ℤ × ℕ)) (pid : ℤ) : ℕ := (switches.lookup pid).getD 0

namespace Tally

/-- The process that leaves the CPU. -/
def switchOut (t : Tally) (event : TraceEvent) : Tally :=
  match switchOutPid targetPids event with
  | none => t
  | some pid =>
    { t with
      onCpu := t.onCpu ++ closeInterval pid (t.onCpuStart pid) event.tsNs
      onCpuStart := Function.update t.onCpuStart pid none
      offCpuStart := Function.update t.offCpuStart pid (some event.tsNs) }

/-- The process that gets the CPU. -/
def switchIn (t : Tally) (event : TraceEvent) : Tally :=
  match switchInPid targetPids event with
  | none => t
  | some pid =>
    { t with
      delays := t.delays ++ closeDelay pid (t.pendingWakeups pid) event.tsNs
      pendingWakeups := Function.update t.pendingWakeups pid none
      offCpu := t.offCpu ++ closeInterval pid (t.offCpuStart pid) event.tsNs
      offCpuStart := Function.update t.offCpuStart pid none
      onCpuStart := Function.update t.onCpuStart pid (some event.tsNs)
      switches := increment pid t.switches }

/-- A wakeup; a newer one replaces a stale one. -/
def wake (t : Tally) (event : TraceEvent) : Tally :=
  match targetFromWakeup targetPids event with
  | none => t
  | some pid => { t with pendingWakeups := Function.update t.pendingWakeups pid (some event) }

/-- A runtime sample. -/
def sample (t : Tally) (event : TraceEvent) (runtimeNs : ℤ) : Tally :=
  let pid := chargedPid targetPids event
  if pid ∈ targetPids then
    { t with runtimeSamples := t.runtimeSamples ++ [⟨pid, event.tsNs, runtimeNs⟩] }
  else t

/-- A throttle event. -/
def throttle (t : Tally) (event : TraceEvent) : Tally :=
  let pid := chargedPid targetPids event
  if pid ∈ targetPids then
    { t with throttles := t.throttles ++ [⟨pid, event.event, event.tsNs⟩] }
  else t

/-- The body of the loop. -/
def step (t : Tally) (event : TraceEvent) : Tally :=
  if !related targetPids event then t
  else if event.event ∈ wakeupEvents then t.wake targetPids event
  else if event.event = "sched_switch" then (t.switchOut targetPids event).switchIn targetPids event
  else
    match event.event == "sched_stat_runtime", event.runtimeNs with
    | true, some runtimeNs => t.sample targetPids event runtimeNs
    | _, _ => if event.event ∈ throttleEvents then t.throttle targetPids event else t

end Tally

/-- The loop over the events. -/
def tally (events : List TraceEvent) : Tally := events.foldl (Tally.step targetPids) {}

/-- `sorted(events, key=lambda item: item.ts_ns)`. -/
def byTime (events : List TraceEvent) : List TraceEvent :=
  events.insertionSort fun a b => a.tsNs ≤ b.tsNs

/-- The dictionary `summarize_trace` returns. -/
structure Summary where
  protocol : String
  targetPids : List ℤ
  runQueueDelaysNs : List Delay
  onCpuIntervalsNs : List Interval
  offCpuIntervalsNs : List Interval
  contextSwitches : List (String × ℕ)
  throttleEvents : List ThrottleEvent
  runtimeSamplesNs : List RuntimeSample
  deriving DecidableEq

/-- The summary of a tally. -/
def Tally.summary (t : Tally) : Summary where
  protocol := "cpu-limits-v1"
  targetPids := targetPids.sort
  runQueueDelaysNs := t.delays
  onCpuIntervalsNs := t.onCpu
  offCpuIntervalsNs := t.offCpu
  contextSwitches :=
    ((t.switches.map Prod.fst).insertionSort (· ≤ ·)).map fun pid =>
      (toString pid, switchCount t.switches pid)
  throttleEvents := t.throttles
  runtimeSamplesNs := t.runtimeSamples

/-- `summarize_trace`. -/
def summarizeTrace (events : List TraceEvent) : Summary :=
  (tally targetPids (byTime events)).summary targetPids

/-! ### One process at a time -/

/-- The event switches the target process `pid` in. -/
def SwitchesIn (pid : ℤ) (e : TraceEvent) : Prop :=
  pid ∈ targetPids ∧ e.event = "sched_switch" ∧
    (e.targetPid = some pid ∨ e.targetPid = none ∧ e.pid = pid)

/-- The event switches the target process `pid` out. -/
def SwitchesOut (pid : ℤ) (e : TraceEvent) : Prop :=
  pid ∈ targetPids ∧ e.event = "sched_switch" ∧ e.pid = pid ∧ e.targetPid ≠ some pid

/-- The event wakes the target process `pid`. -/
def Wakes (pid : ℤ) (e : TraceEvent) : Prop :=
  pid ∈ targetPids ∧ e.event ∈ wakeupEvents ∧ e.targetPid.getD e.pid = pid

instance (pid : ℤ) : DecidablePred (SwitchesIn targetPids pid) := fun _ =>
  inferInstanceAs (Decidable (_ ∧ _))

instance (pid : ℤ) : DecidablePred (SwitchesOut targetPids pid) := fun _ =>
  inferInstanceAs (Decidable (_ ∧ _))

instance (pid : ℤ) : DecidablePred (Wakes targetPids pid) := fun _ =>
  inferInstanceAs (Decidable (_ ∧ _))

/-- What a tally says about one process. -/
@[ext]
structure PidView where
  delays : List Delay := []
  on : List Interval := []
  off : List Interval := []
  switches : ℕ := 0
  wakeup : Option TraceEvent := none
  onStart : Option ℤ := none
  offStart : Option ℤ := none

/-- The view of one process. -/
def Tally.view (t : Tally) (pid : ℤ) : PidView where
  delays := t.delays.filter fun d => d.pid = pid
  on := t.onCpu.filter fun i => i.pid = pid
  off := t.offCpu.filter fun i => i.pid = pid
  switches := switchCount t.switches pid
  wakeup := t.pendingWakeups pid
  onStart := t.onCpuStart pid
  offStart := t.offCpuStart pid

namespace PidView

/-- The process leaves the CPU. -/
def switchOut (v : PidView) (pid now : ℤ) : PidView :=
  { v with
    on := v.on ++ closeInterval pid v.onStart now
    onStart := none
    offStart := some now }

/-- The process gets the CPU. -/
def switchIn (v : PidView) (pid now : ℤ) : PidView :=
  { v with
    delays := v.delays ++ closeDelay pid v.wakeup now
    wakeup := none
    off := v.off ++ closeInterval pid v.offStart now
    offStart := none
    onStart := some now
    switches := v.switches + 1 }

/-- What an event does to one process. -/
def step (pid : ℤ) (v : PidView) (e : TraceEvent) : PidView :=
  if Wakes targetPids pid e then { v with wakeup := some e }
  else
    let v := if SwitchesOut targetPids pid e then v.switchOut pid e.tsNs else v
    if SwitchesIn targetPids pid e then v.switchIn pid e.tsNs else v

end PidView

section View

variable {targetPids}

theorem filter_closeInterval (pid p : ℤ) (start : Option ℤ) (now : ℤ) :
    (closeInterval pid start now).filter (fun i => i.pid = p) =
      if pid = p then closeInterval pid start now else [] := by
  cases start with
  | none => simp [closeInterval]
  | some s => by_cases hp : pid = p <;> by_cases hs : s ≤ now <;> simp [closeInterval, hp, hs]

theorem filter_closeDelay (pid p : ℤ) (wakeup : Option TraceEvent) (now : ℤ) :
    (closeDelay pid wakeup now).filter (fun d => d.pid = p) =
      if pid = p then closeDelay pid wakeup now else [] := by
  cases wakeup with
  | none => simp [closeDelay]
  | some w => by_cases hp : pid = p <;> by_cases hw : w.tsNs ≤ now <;> simp [closeDelay, hp, hw]

theorem switchCount_increment (switches : List (ℤ × ℕ)) (pid p : ℤ) :
    switchCount (increment pid switches) p =
      if pid = p then switchCount switches p + 1 else switchCount switches p := by
  induction switches with
  | nil =>
    by_cases hp : pid = p
    · simp [increment, switchCount, hp]
    · have : (p == pid) = false := by simpa using Ne.symm hp
      simp [increment, switchCount, List.lookup_cons, hp, this]
  | cons q switches ih =>
    obtain ⟨q, n⟩ := q
    simp only [switchCount] at ih
    by_cases hq : q = pid
    · subst hq
      by_cases hp : p = q
      · simp [increment, switchCount, hp]
      · have : (p == q) = false := by simpa using hp
        simp [increment, switchCount, List.lookup_cons, this, Ne.symm hp]
    · by_cases hp : p = q
      · subst hp
        simp [increment, switchCount, hq, Ne.symm hq]
      · have : (p == q) = false := by simpa using hp
        simp only [increment, if_neg hq, switchCount, List.lookup_cons, this, ih]

theorem switchOutPid_eq_some {pid : ℤ} {e : TraceEvent} (he : e.event = "sched_switch") :
    switchOutPid targetPids e = some pid ↔ SwitchesOut targetPids pid e := by
  rw [switchOutPid, Option.ite_none_right_eq_some, Option.some.injEq, SwitchesOut]
  constructor
  · rintro ⟨⟨hmem, hne⟩, rfl⟩
    exact ⟨hmem, he, rfl, hne⟩
  · rintro ⟨hmem, -, rfl, hne⟩
    exact ⟨⟨hmem, hne⟩, rfl⟩

theorem switchInPid_eq_some {pid : ℤ} {e : TraceEvent} (he : e.event = "sched_switch") :
    switchInPid targetPids e = some pid ↔ SwitchesIn targetPids pid e := by
  unfold switchInPid SwitchesIn isTarget
  cases ht : e.targetPid with
  | none =>
    simp only [Option.any_none, Bool.false_eq_true, if_false, true_and, reduceCtorEq, false_or,
      Option.ite_none_right_eq_some, Option.some.injEq]
    constructor
    · rintro ⟨hmem, rfl⟩
      exact ⟨hmem, he, rfl⟩
    · rintro ⟨hmem, -, rfl⟩
      exact ⟨hmem, rfl⟩
  | some target =>
    simp only [Option.any_some, decide_eq_true_eq, reduceCtorEq, false_and, if_false, or_false,
      Option.ite_none_right_eq_some, Option.some.injEq]
    constructor
    · rintro ⟨hmem, rfl⟩
      exact ⟨hmem, he, rfl⟩
    · rintro ⟨hmem, -, rfl⟩
      exact ⟨hmem, rfl⟩

theorem targetFromWakeup_eq_some {pid : ℤ} {e : TraceEvent} (he : e.event ∈ wakeupEvents) :
    targetFromWakeup targetPids e = some pid ↔ Wakes targetPids pid e := by
  simp only [targetFromWakeup, Wakes, Option.ite_none_right_eq_some, Option.some.injEq]
  constructor
  · rintro ⟨hmem, rfl⟩
    exact ⟨hmem, he, rfl⟩
  · rintro ⟨hmem, -, rfl⟩
    exact ⟨hmem, rfl⟩

theorem view_switchOut {t : Tally} {e : TraceEvent} (he : e.event = "sched_switch") (p : ℤ) :
    (t.switchOut targetPids e).view p =
      if SwitchesOut targetPids p e then (t.view p).switchOut p e.tsNs else t.view p := by
  simp only [← switchOutPid_eq_some he]
  cases h : switchOutPid targetPids e with
  | none => simp [Tally.switchOut, h]
  | some pid =>
    by_cases hp : pid = p
    · subst hp
      simp [Tally.switchOut, h, Tally.view, PidView.switchOut, filter_closeInterval]
    · simp [Tally.switchOut, h, Tally.view, filter_closeInterval, hp, Function.update_of_ne (Ne.symm hp)]

theorem view_switchIn {t : Tally} {e : TraceEvent} (he : e.event = "sched_switch") (p : ℤ) :
    (t.switchIn targetPids e).view p =
      if SwitchesIn targetPids p e then (t.view p).switchIn p e.tsNs else t.view p := by
  simp only [← switchInPid_eq_some he]
  cases h : switchInPid targetPids e with
  | none => simp [Tally.switchIn, h]
  | some pid =>
    by_cases hp : pid = p
    · subst hp
      simp [Tally.switchIn, h, Tally.view, PidView.switchIn, filter_closeInterval,
        filter_closeDelay, switchCount_increment]
    · simp [Tally.switchIn, h, Tally.view, filter_closeInterval, filter_closeDelay,
        switchCount_increment, hp, Function.update_of_ne (Ne.symm hp)]

theorem view_wake {t : Tally} {e : TraceEvent} (he : e.event ∈ wakeupEvents) (p : ℤ) :
    (t.wake targetPids e).view p =
      if Wakes targetPids p e then { t.view p with wakeup := some e } else t.view p := by
  simp only [← targetFromWakeup_eq_some he]
  cases h : targetFromWakeup targetPids e with
  | none => simp [Tally.wake, h]
  | some pid =>
    by_cases hp : pid = p
    · subst hp
      simp [Tally.wake, h, Tally.view]
    · simp [Tally.wake, h, Tally.view, hp, Function.update_of_ne (Ne.symm hp)]

/-- An event that is not related to any target does nothing to a process. -/
theorem PidView.step_of_not_related {e : TraceEvent} (h : related targetPids e = false) (p : ℤ)
    (v : PidView) : v.step targetPids p e = v := by
  have hpid : e.pid ∉ targetPids := by
    intro hmem
    simp [related, isTarget, hmem] at h
  have htarget : ∀ target, e.targetPid = some target → target ∉ targetPids := by
    intro target ht hmem
    simp [related, isTarget, ht, hmem] at h
  have hwake : ¬ Wakes targetPids p e := by
    rintro ⟨hmem, -, rfl⟩
    cases ht : e.targetPid with
    | none => exact hpid (by simpa [ht] using hmem)
    | some target => exact htarget target ht (by simpa [ht] using hmem)
  have hout : ¬ SwitchesOut targetPids p e := by
    rintro ⟨hmem, -, rfl, -⟩
    exact hpid hmem
  have hin : ¬ SwitchesIn targetPids p e := by
    rintro ⟨hmem, -, ht | ⟨-, rfl⟩⟩
    · exact htarget p ht hmem
    · exact hpid hmem
  simp [PidView.step, hwake, hout, hin]

/-- **The loop treats every process on its own.** -/
theorem view_step (t : Tally) (e : TraceEvent) (p : ℤ) :
    (t.step targetPids e).view p = (t.view p).step targetPids p e := by
  unfold Tally.step
  by_cases hrel : related targetPids e = true
  · simp only [hrel, Bool.not_true, Bool.false_eq_true, if_false]
    by_cases hw : e.event ∈ wakeupEvents
    · have hne : e.event ≠ "sched_switch" := by
        intro heq
        rw [heq] at hw
        exact absurd hw (by decide)
      simp [hw, view_wake hw, PidView.step, SwitchesOut, SwitchesIn, hne]
    · have hwake : ¬ Wakes targetPids p e := fun h => hw h.2.1
      by_cases hs : e.event = "sched_switch"
      · rw [if_neg hw, if_pos hs, view_switchIn hs, view_switchOut hs]
        simp [PidView.step, hwake]
      · -- samples and throttle events touch nothing of the view
        have hidle : (t.view p).step targetPids p e = t.view p := by
          simp [PidView.step, hwake, SwitchesOut, SwitchesIn, hs]
        rw [if_neg hw, if_neg hs, hidle]
        split
        · simp only [Tally.sample]
          split_ifs <;> rfl
        · split_ifs
          · simp only [Tally.throttle]
            split_ifs <;> rfl
          · rfl
  · rw [Bool.not_eq_true] at hrel
    rw [PidView.step_of_not_related hrel, hrel, Bool.not_false, if_pos rfl]

theorem view_tally (events : List TraceEvent) (p : ℤ) :
    (tally targetPids events).view p = events.foldl (PidView.step targetPids p) {} := by
  have hfold : ∀ (events : List TraceEvent) (t : Tally),
      (events.foldl (Tally.step targetPids) t).view p =
        events.foldl (PidView.step targetPids p) (t.view p) := by
    intro events
    induction events with
    | nil => intro t; rfl
    | cons e events ih =>
      intro t
      rw [List.foldl_cons, List.foldl_cons, ih, view_step]
  exact hfold events {}

end View

/-! ### Intervals -/

/-- The intervals of a process, on and off the CPU, as pairs of instants. -/
def PidView.spans (v : PidView) : List (ℤ × ℤ) :=
  (v.on ++ v.off).map fun i => (i.startTsNs, i.endTsNs)

/-- The invariant of the intervals of one process at the instant `now` of a trace that began at
`lo`. -/
structure Ledger (lo now : ℤ) (v : PidView) : Prop where
  packed : Packed lo now v.spans
  /-- No interval reaches beyond the start that is pending. -/
  pending : ∀ s, v.onStart = some s ∨ v.offStart = some s → lo ≤ s ∧ s ≤ now ∧ Packed lo s v.spans
  durations : ∀ i ∈ v.on ++ v.off, i.durationNs = i.endTsNs - i.startTsNs

namespace Ledger

variable {lo now : ℤ} {v : PidView}

theorem empty (h : lo ≤ now) : Ledger lo now {} where
  packed := packed_nil h
  pending := by simp
  durations := by simp

theorem mono {now' : ℤ} (h : Ledger lo now v) (hle : now ≤ now') : Ledger lo now' v where
  packed := h.packed.mono hle
  pending s hs := ⟨(h.pending s hs).1, (h.pending s hs).2.1.trans hle, (h.pending s hs).2.2⟩
  durations := h.durations

/-- Closing the pending start keeps the intervals packed. -/
theorem packed_close (h : Ledger lo now v) (pid : ℤ) {start : Option ℤ}
    (hstart : ∀ s, start = some s → v.onStart = some s ∨ v.offStart = some s) :
    Packed lo now ((closeInterval pid start now).map (fun i => (i.startTsNs, i.endTsNs)) ++
      v.spans) := by
  cases start with
  | none => exact h.packed
  | some s =>
    obtain ⟨hlo, hle, hpacked⟩ := h.pending s (hstart s rfl)
    simpa [closeInterval, hle] using hpacked.close hlo hle

theorem duration_close (pid : ℤ) (start : Option ℤ) (now : ℤ) :
    ∀ i ∈ closeInterval pid start now, i.durationNs = i.endTsNs - i.startTsNs := by
  intro i hi
  cases start with
  | none => simp [closeInterval] at hi
  | some s =>
    simp only [closeInterval] at hi
    split_ifs at hi
    · rw [List.mem_singleton.1 hi]
    · simp at hi

theorem switchOut (h : Ledger lo now v) (pid : ℤ) (hlo : lo ≤ now) :
    Ledger lo now (v.switchOut pid now) := by
  have hpacked : Packed lo now (v.switchOut pid now).spans := by
    refine (h.packed_close pid (fun s hs => .inl hs)).perm ?_
    simp only [PidView.switchOut, PidView.spans, List.map_append, ← List.append_assoc]
    exact List.Perm.append_right _ List.perm_append_comm
  refine ⟨hpacked, ?_, ?_⟩
  · rintro s (hs | hs)
    · cases hs
    · cases hs
      exact ⟨hlo, le_rfl, hpacked⟩
  · intro i hi
    simp only [PidView.switchOut, List.mem_append] at hi
    rcases hi with (hi | hi) | hi
    · exact h.durations i (List.mem_append.2 (.inl hi))
    · exact duration_close _ _ _ i hi
    · exact h.durations i (List.mem_append.2 (.inr hi))

theorem switchIn (h : Ledger lo now v) (pid : ℤ) (hlo : lo ≤ now) :
    Ledger lo now (v.switchIn pid now) := by
  have hpacked : Packed lo now (v.switchIn pid now).spans := by
    refine (h.packed_close pid (fun s hs => .inr hs)).perm ?_
    simp only [PidView.switchIn, PidView.spans, List.map_append]
    rw [← List.append_assoc]
    exact List.perm_append_comm
  refine ⟨hpacked, ?_, ?_⟩
  · rintro s (hs | hs)
    · cases hs
      exact ⟨hlo, le_rfl, hpacked⟩
    · cases hs
  · intro i hi
    simp only [PidView.switchIn, List.mem_append] at hi
    rcases hi with hi | hi | hi
    · exact h.durations i (List.mem_append.2 (.inl hi))
    · exact h.durations i (List.mem_append.2 (.inr hi))
    · exact duration_close _ _ _ i hi

/-- What one event keeps. -/
theorem step {e : TraceEvent} (h : Ledger lo now v) (hlo : lo ≤ now) (hnow : now ≤ e.tsNs)
    (pid : ℤ) : Ledger lo e.tsNs (v.step targetPids pid e) := by
  have h' := h.mono hnow
  have hlo' := hlo.trans hnow
  unfold PidView.step
  split_ifs
  · exact ⟨h'.packed, h'.pending, h'.durations⟩
  · exact (h'.switchOut pid hlo').switchIn pid hlo'
  · exact h'.switchOut pid hlo'
  · exact h'.switchIn pid hlo'
  · exact h'

/-- What a whole run over events in order keeps. -/
theorem run {events : List TraceEvent} (h : Ledger lo now v) (hlo : lo ≤ now) (pid : ℤ)
    (hafter : ∀ e ∈ events, now ≤ e.tsNs) (hsorted : events.Pairwise fun a b => a.tsNs ≤ b.tsNs)
    {hi : ℤ} (hhi : now ≤ hi) (hbefore : ∀ e ∈ events, e.tsNs ≤ hi) :
    Ledger lo hi (events.foldl (PidView.step targetPids pid) v) := by
  induction events generalizing v now with
  | nil => exact h.mono hhi
  | cons e events ih =>
    rw [List.forall_mem_cons] at hafter hbefore
    rw [List.pairwise_cons] at hsorted
    exact ih (h.step targetPids hlo hafter.1 pid) (hlo.trans hafter.1) hsorted.1 hsorted.2
      hbefore.1 hbefore.2

end Ledger

/-! ### Pending starts -/

/-- At most one of the two starts is pending. -/
def PidView.Exclusive (v : PidView) : Prop := v.onStart = none ∨ v.offStart = none

theorem exclusive_step {v : PidView} (h : v.Exclusive) (pid : ℤ) (e : TraceEvent) :
    (v.step targetPids pid e).Exclusive := by
  unfold PidView.step
  split_ifs
  · exact h
  · exact .inr rfl
  · exact .inl rfl
  · exact .inr rfl
  · exact h

/-- Whatever the order of the events, one start is pending at most. -/
theorem exclusive_tally (events : List TraceEvent) (pid : ℤ) :
    ((tally targetPids events).view pid).Exclusive := by
  rw [view_tally]
  induction events using List.reverseRecOn with
  | nil => exact .inl rfl
  | append_singleton events e ih =>
    rw [List.foldl_append]
    exact exclusive_step targetPids ih pid e

/-- Also between the two halves of a switch. -/
theorem exclusive_switchOut (events : List TraceEvent) {e : TraceEvent}
    (he : e.event = "sched_switch") (pid : ℤ) :
    (((tally targetPids events).switchOut targetPids e).view pid).Exclusive := by
  rw [view_switchOut he]
  split_ifs
  · exact .inl rfl
  · exact exclusive_tally targetPids events pid

/-! ### Switches and wakeups -/

/-- `w` is the latest wakeup of the process among the events, and no switch-in has consumed it. -/
def LatestWakeup (pid : ℤ) (seen : List TraceEvent) (w : TraceEvent) : Prop :=
  ∃ before after, seen = before ++ w :: after ∧ Wakes targetPids pid w ∧
    ∀ e ∈ after, ¬ Wakes targetPids pid e ∧ ¬ SwitchesIn targetPids pid e

/-- The delay is that of a switch-in of its process, from the latest wakeup before it. -/
def Measured (events : List TraceEvent) (d : Delay) : Prop :=
  ∃ before sw after w, events = before ++ sw :: after ∧ SwitchesIn targetPids d.pid sw ∧
    LatestWakeup targetPids d.pid before w ∧ w.tsNs ≤ sw.tsNs ∧
    d.wakeupTsNs = w.tsNs ∧ d.switchTsNs = sw.tsNs ∧ d.delayNs = sw.tsNs - w.tsNs

/-- The invariant of the counts and delays of one process after the events `seen`. -/
structure History (pid : ℤ) (seen : List TraceEvent) (v : PidView) : Prop where
  switches : v.switches = seen.countP (SwitchesIn targetPids pid)
  wakeup : ∀ w, v.wakeup = some w → LatestWakeup targetPids pid seen w
  delays : ∀ d ∈ v.delays, Measured targetPids seen d

section History

variable {targetPids} {pid : ℤ} {seen : List TraceEvent} {v : PidView}

theorem LatestWakeup.snoc {w e : TraceEvent} (h : LatestWakeup targetPids pid seen w)
    (hw : ¬ Wakes targetPids pid e) (hs : ¬ SwitchesIn targetPids pid e) :
    LatestWakeup targetPids pid (seen ++ [e]) w := by
  obtain ⟨before, after, rfl, hwake, hafter⟩ := h
  refine ⟨before, after ++ [e], by simp, hwake, fun x hx => ?_⟩
  rcases List.mem_append.1 hx with hx | hx
  · exact hafter x hx
  · rw [List.mem_singleton.1 hx]
    exact ⟨hw, hs⟩

theorem Measured.append {d : Delay} (h : Measured targetPids seen d) (more : List TraceEvent) :
    Measured targetPids (seen ++ more) d := by
  obtain ⟨before, sw, after, w, rfl, rest⟩ := h
  exact ⟨before, sw, after ++ more, w, by simp, rest⟩

theorem not_switchesIn_of_wakes {e : TraceEvent} (h : Wakes targetPids pid e) (p : ℤ) :
    ¬ SwitchesIn targetPids p e := by
  rintro ⟨-, he, -⟩
  have := h.2.1
  rw [he] at this
  exact absurd this (by decide)

/-- The delay a switch-in closes is measured. -/
theorem History.measured_closeDelay (h : History targetPids pid seen v) {e : TraceEvent}
    (he : SwitchesIn targetPids pid e) :
    ∀ d ∈ closeDelay pid v.wakeup e.tsNs, Measured targetPids (seen ++ [e]) d := by
  intro d hd
  cases hw : v.wakeup with
  | none => simp [closeDelay, hw] at hd
  | some w =>
    simp only [closeDelay, hw] at hd
    split_ifs at hd with hle
    · obtain rfl := List.mem_singleton.1 hd
      exact ⟨seen, e, [], w, rfl, he, h.wakeup w hw, hle, rfl, rfl, rfl⟩
    · simp at hd

/-- What one event keeps. -/
theorem History.step (h : History targetPids pid seen v) (e : TraceEvent) :
    History targetPids pid (seen ++ [e]) (v.step targetPids pid e) := by
  unfold PidView.step
  by_cases hw : Wakes targetPids pid e
  · have hs := not_switchesIn_of_wakes hw pid
    rw [if_pos hw]
    refine ⟨?_, ?_, fun d hd => (h.delays d hd).append [e]⟩
    · simp [h.switches, hs]
    · rintro w ⟨⟩
      exact ⟨seen, [], rfl, hw, by simp⟩
  · rw [if_neg hw]
    -- leaving the CPU changes none of the three
    obtain ⟨v', hv', hsw, hwk, hdl⟩ : ∃ v', (if SwitchesOut targetPids pid e then
        v.switchOut pid e.tsNs else v) = v' ∧ v'.switches = v.switches ∧ v'.wakeup = v.wakeup ∧
        v'.delays = v.delays := by
      refine ⟨_, rfl, ?_, ?_, ?_⟩ <;> split_ifs <;> rfl
    simp only [hv']
    by_cases hs : SwitchesIn targetPids pid e
    · rw [if_pos hs]
      refine ⟨?_, (fun w hw => by cases hw), fun d hd => ?_⟩
      · simp [PidView.switchIn, hsw, h.switches, hs]
      · simp only [PidView.switchIn, hdl, hwk, List.mem_append] at hd
        rcases hd with hd | hd
        · exact (h.delays d hd).append [e]
        · exact h.measured_closeDelay hs d hd
    · rw [if_neg hs]
      refine ⟨by simp [hsw, h.switches, hs], fun w hw' => ?_, fun d hd => ?_⟩
      · exact (h.wakeup w (hwk ▸ hw')).snoc hw hs
      · exact (h.delays d (hdl ▸ hd)).append [e]

/-- What a whole run keeps. -/
theorem history_run (targetPids : Finset ℤ) (pid : ℤ) (events : List TraceEvent) :
    History targetPids pid events (events.foldl (PidView.step targetPids pid) {}) := by
  induction events using List.reverseRecOn with
  | nil => exact ⟨rfl, by simp, by simp⟩
  | append_singleton events e ih =>
    rw [List.foldl_append]
    exact ih.step e

end History

/-! ### The counter -/

/-- A counter has each key once, with a positive count. -/
structure IsCounter (switches : List (ℤ × ℕ)) : Prop where
  nodup : (switches.map Prod.fst).Nodup
  pos : ∀ item ∈ switches, 0 < item.2

theorem keys_increment (pid : ℤ) (switches : List (ℤ × ℕ)) :
    (increment pid switches).map Prod.fst =
      if pid ∈ switches.map Prod.fst then switches.map Prod.fst
      else switches.map Prod.fst ++ [pid] := by
  induction switches with
  | nil => simp [increment]
  | cons q switches ih =>
    obtain ⟨q, n⟩ := q
    by_cases hq : q = pid
    · simp [increment, hq]
    · rw [increment, if_neg hq, List.map_cons, ih, List.map_cons]
      by_cases hmem : pid ∈ switches.map Prod.fst
      · rw [if_pos hmem, if_pos (List.mem_cons_of_mem _ hmem)]
      · have : pid ∉ q :: switches.map Prod.fst := by
          rw [List.mem_cons, not_or]
          exact ⟨Ne.symm hq, hmem⟩
        rw [if_neg hmem, if_neg this, List.cons_append]

theorem IsCounter.increment {switches : List (ℤ × ℕ)} (h : IsCounter switches) (pid : ℤ) :
    IsCounter (increment pid switches) := by
  constructor
  · rw [keys_increment]
    split_ifs with hmem
    · exact h.nodup
    · refine List.nodup_append.2 ⟨h.nodup, List.nodup_singleton pid, ?_⟩
      intro a ha b hb
      rw [List.mem_singleton.1 hb]
      exact fun heq => hmem (heq ▸ ha)
  · have hpos := h.pos
    clear h
    induction switches with
    | nil => simp [Capture.increment]
    | cons q switches ih =>
      obtain ⟨q, n⟩ := q
      rw [List.forall_mem_cons] at hpos
      by_cases hq : q = pid
      · rw [Capture.increment, if_pos hq, List.forall_mem_cons]
        exact ⟨Nat.succ_pos n, hpos.2⟩
      · rw [Capture.increment, if_neg hq, List.forall_mem_cons]
        exact ⟨hpos.1, ih hpos.2⟩

theorem IsCounter.mem_keys_iff {switches : List (ℤ × ℕ)} (h : IsCounter switches) (pid : ℤ) :
    pid ∈ switches.map Prod.fst ↔ 0 < switchCount switches pid := by
  have hpos := h.pos
  clear h
  induction switches with
  | nil => simp [switchCount]
  | cons q switches ih =>
    obtain ⟨q, n⟩ := q
    rw [List.forall_mem_cons] at hpos
    by_cases hq : pid = q
    · simpa [switchCount, hq] using hpos.1
    · have hne : (pid == q) = false := by simpa using hq
      have htail : switchCount ((q, n) :: switches) pid = switchCount switches pid := by
        rw [switchCount, List.lookup_cons, hne]
        rfl
      rw [List.map_cons, List.mem_cons, or_iff_right hq, htail]
      exact ih hpos.2

section Counter

variable {targetPids}

theorem switches_step_cases (targetPids : Finset ℤ) (t : Tally) (e : TraceEvent) :
    (t.step targetPids e).switches = t.switches ∨
      ∃ pid, (t.step targetPids e).switches = increment pid t.switches := by
  have hout : (t.switchOut targetPids e).switches = t.switches := by
    unfold Tally.switchOut
    split <;> rfl
  unfold Tally.step
  split_ifs
  · exact .inl rfl
  · left
    unfold Tally.wake
    split <;> rfl
  · unfold Tally.switchIn
    split
    · exact .inl hout
    · next pid _ => exact .inr ⟨pid, by simp [hout]⟩
  · left
    split
    · simp only [Tally.sample]
      split_ifs <;> rfl
    · simp only [Tally.throttle]
      split_ifs <;> rfl
  · left
    split
    · simp only [Tally.sample]
      split_ifs <;> rfl
    · rfl

theorem isCounter_tally (targetPids : Finset ℤ) (events : List TraceEvent) : IsCounter (tally targetPids events).switches := by
  induction events using List.reverseRecOn with
  | nil => exact ⟨by simp [tally], by simp [tally]⟩
  | append_singleton events e ih =>
    have hstep : tally targetPids (events ++ [e]) = (tally targetPids events).step targetPids e := by
      rw [tally, List.foldl_append]
      rfl
    rw [hstep]
    rcases switches_step_cases targetPids (tally targetPids events) e with h | ⟨pid, h⟩
    · rw [h]
      exact ih
    · rw [h]
      exact ih.increment pid

/-- The counter counts the switch-ins. -/
theorem switchCount_tally (events : List TraceEvent) (pid : ℤ) :
    switchCount (tally targetPids events).switches pid =
      events.countP (SwitchesIn targetPids pid) := by
  have := (history_run targetPids pid events).switches
  rwa [← view_tally] at this

/-- The counter's keys in order are the targets that were switched in. -/
theorem sorted_keys_tally (events : List TraceEvent) :
    ((tally targetPids events).switches.map Prod.fst).insertionSort (· ≤ ·) =
      targetPids.sort.filter fun pid => 0 < events.countP (SwitchesIn targetPids pid) := by
  have hc := isCounter_tally targetPids events
  refine List.Perm.eq_of_pairwise' (List.pairwise_insertionSort _ _)
    ((targetPids.pairwise_sort _).filter _) ?_
  refine (List.perm_insertionSort _ _).trans ?_
  refine (List.perm_ext_iff_of_nodup hc.nodup ((targetPids.sort_nodup _).filter _)).2 fun pid => ?_
  rw [hc.mem_keys_iff, switchCount_tally, List.mem_filter, Finset.mem_sort, decide_eq_true_eq]
  refine ⟨fun h => ⟨?_, h⟩, fun h => h.2⟩
  -- only targets are switched in
  obtain ⟨e, -, he⟩ := List.countP_pos_iff.1 h
  exact (of_decide_eq_true he).1

end Counter

/-! ### The summary -/

/-- The time from the first event of a trace to the last. -/
def traceSpan (events : List TraceEvent) : ℤ :=
  match events.head?, events.getLast? with
  | some first, some last => last.tsNs - first.tsNs
  | _, _ => 0

/-- The intervals of a process in a summary, on and off the CPU. -/
def Summary.intervals (s : Summary) (pid : ℤ) : List Interval :=
  (s.onCpuIntervalsNs ++ s.offCpuIntervalsNs).filter fun i => i.pid = pid

theorem byTime_of_sorted {events : List TraceEvent}
    (h : events.Pairwise fun a b => a.tsNs ≤ b.tsNs) : byTime events = events :=
  h.insertionSort_eq

theorem summarizeTrace_of_sorted {events : List TraceEvent}
    (h : events.Pairwise fun a b => a.tsNs ≤ b.tsNs) :
    summarizeTrace targetPids events = (tally targetPids events).summary targetPids := by
  rw [summarizeTrace, byTime_of_sorted h]

theorem ledger_tally {events : List TraceEvent}
    (hsorted : events.Pairwise fun a b => a.tsNs ≤ b.tsNs) (pid : ℤ) {lo hi : ℤ} (hle : lo ≤ hi)
    (hlo : ∀ e ∈ events, lo ≤ e.tsNs) (hhi : ∀ e ∈ events, e.tsNs ≤ hi) :
    Ledger lo hi ((tally targetPids events).view pid) := by
  rw [view_tally]
  exact (Ledger.empty le_rfl).run targetPids le_rfl pid hlo hsorted hle hhi

/-- The ledger of a process over the span of the trace. -/
theorem exists_ledger {events : List TraceEvent}
    (hsorted : events.Pairwise fun a b => a.tsNs ≤ b.tsNs) (pid : ℤ) :
    ∃ lo hi, hi - lo = traceSpan events ∧ Ledger lo hi ((tally targetPids events).view pid) := by
  cases events with
  | nil => exact ⟨0, 0, rfl, Ledger.empty le_rfl⟩
  | cons first events =>
    have hlo : ∀ e ∈ first :: events, first.tsNs ≤ e.tsNs := by
      rw [List.forall_mem_cons]
      exact ⟨le_rfl, (List.pairwise_cons.1 hsorted).1⟩
    set last := (first :: events).getLast (List.cons_ne_nil _ _) with hlast
    have hhi : ∀ e ∈ first :: events, e.tsNs ≤ last.tsNs := by
      intro e he
      have hsplit := List.dropLast_append_getLast (List.cons_ne_nil first events)
      rw [← hlast] at hsplit
      rw [← hsplit] at he hsorted
      rcases List.mem_append.1 he with he | he
      · exact (List.pairwise_append.1 hsorted).2.2 e he last (List.mem_singleton_self _)
      · rw [List.mem_singleton.1 he]
    refine ⟨first.tsNs, last.tsNs, ?_, ledger_tally targetPids hsorted pid
      (hlo last (List.getLast_mem _)) hlo hhi⟩
    rw [traceSpan, List.head?_cons, List.getLast?_eq_some_getLast (List.cons_ne_nil _ _)]

/-- **The accounting is sound.**  For every list of events in the order of time and every set of
targets: the intervals of a process are not negative, do not overlap and are together no longer
than the trace; in no state of the loop, also inside a switch, are both starts pending; the
context-switch counts are those of the switch-ins; and each delay is measured from the latest
wakeup before the switch-in that consumes it. -/
theorem summarizeTrace_accounting (targetPids : Finset ℤ) (events : List TraceEvent)
    (hsorted : events.Pairwise fun a b => a.tsNs ≤ b.tsNs) :
    (∀ pid,
      (∀ i ∈ (summarizeTrace targetPids events).intervals pid,
        0 ≤ i.durationNs ∧ i.durationNs = i.endTsNs - i.startTsNs) ∧
      ((summarizeTrace targetPids events).intervals pid).Pairwise
        (fun i j => i.endTsNs ≤ j.startTsNs ∨ j.endTsNs ≤ i.startTsNs) ∧
      (((summarizeTrace targetPids events).intervals pid).map Interval.durationNs).sum ≤
        traceSpan events ∧
      ∀ before after, events = before ++ after →
        ¬ (((tally targetPids before).onCpuStart pid).isSome ∧
          ((tally targetPids before).offCpuStart pid).isSome) ∧
        ∀ e, after.head? = some e → e.event = "sched_switch" →
          ¬ ((((tally targetPids before).switchOut targetPids e).onCpuStart pid).isSome ∧
            (((tally targetPids before).switchOut targetPids e).offCpuStart pid).isSome)) ∧
    (summarizeTrace targetPids events).contextSwitches =
      (targetPids.sort.filter fun pid => 0 < events.countP (SwitchesIn targetPids pid)).map
        (fun pid => (toString pid, events.countP (SwitchesIn targetPids pid))) ∧
    ∀ d ∈ (summarizeTrace targetPids events).runQueueDelaysNs, Measured targetPids events d := by
  rw [summarizeTrace_of_sorted targetPids hsorted]
  refine ⟨fun pid => ?_, ?_, fun d hd => ?_⟩
  · obtain ⟨lo, hi, hspan, hledger⟩ := exists_ledger targetPids hsorted pid
    -- one process at a time: the loop treats it as it treats its view alone
    set v := (tally targetPids events).view pid with hv
    have hints : ((tally targetPids events).summary targetPids).intervals pid = v.on ++ v.off := by
      rw [Summary.intervals, List.filter_append]
      rfl
    have hexclusive : ∀ {v : PidView}, v.Exclusive →
        ¬ (v.onStart.isSome ∧ v.offStart.isSome) := by
      rintro v (h | h) ⟨h₁, h₂⟩
      · simp [h] at h₁
      · simp [h] at h₂
    have hspans : ∀ i ∈ v.on ++ v.off, (i.startTsNs, i.endTsNs) ∈ v.spans := fun i hi =>
      List.mem_map_of_mem hi
    rw [hints]
    refine ⟨fun i hi => ?_, ?_, ?_, fun before after _ => ⟨?_, fun e _ he => ?_⟩⟩
    · have := (hledger.packed.inside _ (hspans i hi)).2.1
      have hd := hledger.durations i hi
      exact ⟨by rw [hd]; exact sub_nonneg.2 this, hd⟩
    · exact List.pairwise_map.1 hledger.packed.apart
    · have htotal : ((v.on ++ v.off).map Interval.durationNs).sum = total v.spans := by
        rw [total, PidView.spans, List.map_map]
        exact congrArg List.sum (List.map_congr_left fun i hi => hledger.durations i hi)
      rw [htotal, ← hspan]
      exact hledger.packed.total_le
    · exact hexclusive (exclusive_tally targetPids before pid)
    · exact hexclusive (exclusive_switchOut targetPids before he pid)
  · simp only [Tally.summary, sorted_keys_tally, switchCount_tally]
  · have hmem : d ∈ ((tally targetPids events).view d.pid).delays :=
      List.mem_filter.2 ⟨hd, by simp⟩
    rw [view_tally] at hmem
    exact (history_run targetPids d.pid events).delays d hmem

/-- A process that is woken, runs, is preempted by process 3 and runs again. -/
def preemptedTrace : List TraceEvent :=
  [⟨"sched_wakeup", 10, 3, some 7, none, []⟩, ⟨"sched_switch", 15, 3, some 7, none, []⟩,
    ⟨"sched_switch", 40, 7, some 3, none, []⟩, ⟨"sched_switch", 60, 3, some 7, none, []⟩]

theorem summarizeTrace_accounting_preempted :
    ((tally {7} preemptedTrace).delays, (tally {7} preemptedTrace).onCpu,
        (tally {7} preemptedTrace).offCpu) =
      ([⟨7, 10, 15, 5⟩], [⟨7, 15, 40, 25⟩], [⟨7, 40, 60, 20⟩]) ∧
    (((summarizeTrace {7} preemptedTrace).intervals 7).map Interval.durationNs).sum ≤
      traceSpan preemptedTrace ∧ traceSpan preemptedTrace = 50 := by
  have hsorted : preemptedTrace.Pairwise fun a b => a.tsNs ≤ b.tsNs := by
    simp [preemptedTrace]
  exact ⟨by decide +kernel, ((summarizeTrace_accounting {7} _ hsorted).1 7).2.2.1, rfl⟩

end Capture
