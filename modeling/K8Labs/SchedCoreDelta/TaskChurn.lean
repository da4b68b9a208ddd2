import K8Labs.Python.Nearest
import Mathlib.Data.List.Perm.Subperm

/-!
# The tasks of `task_churn`

`task_churn.c` creates a thread for each planned task, keeps the handles of the last `RING` of them
in a ring, joins a thread before its slot is used again and joins the rest behind the loop.  A run
is the list of what it does to its arrays and to its threads; which calls of `pthread_create` and
`pthread_join` succeed is a `Pattern`.

* `inBounds_iff` : **the arguments for which every index is below the capacity**: those with a
  product below 1000001.
* `orderly_iff` : **the patterns under which every thread is joined exactly once**, through its
  slot, before its sample is read.
-/

namespace SchedCoreDelta

namespace TaskChurn

open Py (nearest truncate)

/-! ### What it does -/

/-- What a run does to its arrays and its threads. -/
inductive Event where
  /-- `args[i]` is written. -/
  | arg (i : ℕ)
  /-- `pthread_create` for the task `i`, into a slot. -/
  | create (slot i : ℕ) (ok : Bool)
  /-- The thread writes `samples[arg->index]`, at some time after its creation. -/
  | sample (index : ℤ)
  /-- `pthread_join` of a slot. -/
  | join (slot : ℕ) (ok : Bool)
  /-- `samples[i]` is read. -/
  | collect (i : ℕ)
  deriving DecidableEq

/-- Which calls succeed: the creation of a task's thread, the join before its slot is used again,
the join of the thread behind the loop, and the allocation of the arrays of the results. -/
structure Pattern where
  creates : ℕ → Bool
  recycles : ℕ → Bool
  drains : ℕ → Bool
  gathers : Bool

/-- Every call succeeds. -/
def Pattern.allOk : Pattern := ⟨fun _ => true, fun _ => true, fun _ => true, true⟩

/-- `RING`. -/
@[irreducible] def ringSize : ℕ := 256

/-- `(int)i`. -/
def toInt (i : ℕ) : ℤ := (i : ℤ).bmod (2 ^ 32)

/-- What the spawn loop leaves. -/
structure Spawned where
  events : List Event
  created : ℕ

/-- More events in front. -/
def Spawned.after (events : List Event) (spawned : Spawned) : Spawned :=
  { spawned with events := events ++ spawned.events }

/-- The spawn loop from `i` on, with so many tasks left. -/
def spawn (pattern : Pattern) : ℕ → ℕ → ℕ → Spawned
  | 0, _, created => ⟨[], created⟩
  | left + 1, i, created =>
    let slot := i % ringSize
    if ringSize ≤ i ∧ pattern.recycles i = false then ⟨[.arg i, .join slot false], created⟩
    else
      let recycled := if ringSize ≤ i then [.join slot true] else []
      if pattern.creates i = false then
        ⟨.arg i :: recycled ++ [.create slot i false], created⟩
      else
        (spawn pattern left (i + 1) (created + 1)).after
          (.arg i :: recycled ++ [.create slot i true, .sample (toInt i)])

/-- The joins behind the loop. -/
def drain (pattern : Pattern) (created : ℕ) : List Event :=
  let joinFrom := if ringSize < created then created - ringSize else 0
  (List.range' joinFrom (created - joinFrom)).map fun i =>
    .join (i % ringSize) (pattern.drains i)

/-- A run: its events, and the completed count when it is reported. -/
structure Run where
  events : List Event
  report : Option ℕ

/-- `main` behind the wait for its go-file. -/
def run (pattern : Pattern) (planned : ℕ) : Run :=
  let spawned := spawn pattern planned 0 0
  let joined := spawned.events ++ drain pattern spawned.created
  let completed := spawned.created
  if pattern.gathers then
    { events := joined ++ (List.range completed).map .collect, report := some completed }
  else { events := joined, report := none }

/-! ### The arguments -/

/-- What the conversion to `uint64_t` gives where C does not define it. -/
abbrev Undefined := Py.Float → Fin (2 ^ 64)

/-- The conversion of a float to `uint64_t`. -/
def toUint64 (undefined : Undefined) : Py.Float → ℕ
  | .fin q => if -1 < q ∧ q < 2 ^ 64 then (truncate q).toNat else undefined (.fin q)
  | x => undefined x

/-- The arguments that are not refused. -/
def Admitted (rate : ℤ) (duration : Py.Float) (workUs : ℤ) : Prop :=
  ¬(rate ≤ 0 ∨ duration.le (.fin 0) ∨ workUs < 0)

/-- `(double)rate * duration_s`. -/
def product (rate : ℤ) (duration : Py.Float) : Py.Float := (duration.scale (nearest rate)).rounded

/-- `planned`. -/
def planned (undefined : Undefined) (rate : ℤ) (duration : Py.Float) : ℕ :=
  let planned := toUint64 undefined (product rate duration)
  if planned = 0 then 1 else planned

/-- `MAX_SAMPLES`. -/
def maxSamples : ℕ := 1000000

/-- `capacity`. -/
def capacity (planned : ℕ) : ℕ :=
  let capacity := (planned + 1024) % 2 ^ 64
  if maxSamples < capacity then maxSamples else capacity

/-- What `main` does with its arguments; there is nothing behind a failed allocation. -/
def main (undefined : Undefined) (pattern : Pattern) (allocated : Bool) (rate : ℤ)
    (duration : Py.Float) : List Event :=
  if allocated then (run pattern (planned undefined rate duration)).events else []

/-- The indices of an event are below a capacity. -/
def Event.Within (capacity : ℕ) : Event → Prop
  | .arg i => i < capacity
  | .sample index => 0 ≤ index ∧ index < capacity
  | .collect i => i < capacity
  | _ => True

/-- Every index is below the capacity, whatever succeeds and whatever C leaves open. -/
def InBounds (rate : ℤ) (duration : Py.Float) : Prop :=
  ∀ undefined pattern allocated, ∀ event ∈ main undefined pattern allocated rate duration,
    event.Within (capacity (planned undefined rate duration))

/-! ### The threads -/

/-- The unjoined thread whose handle a slot holds, and the threads joined so far. -/
structure Threads where
  held : ℕ → Option ℕ
  joined : List ℕ

/-- At the start there are no threads. -/
def Threads.start : Threads := ⟨fun _ => none, []⟩

/-- The threads after an event.  A creation that fails leaves no thread in its slot. -/
def Threads.after (threads : Threads) : Event → Threads
  | .create slot i ok =>
    { threads with held := Function.update threads.held slot (if ok then some i else none) }
  | .join slot true =>
    { held := Function.update threads.held slot none
      joined := threads.joined ++ (threads.held slot).toList }
  | _ => threads

/-- The threads after some events. -/
def Threads.afterAll (threads : Threads) (events : List Event) : Threads :=
  events.foldl Threads.after threads

/-- A join finds an unjoined thread in its slot, and a sample is read of a joined thread. -/
def Event.Allowed (threads : Threads) : Event → Prop
  | .join slot _ => threads.held slot ≠ none
  | .collect i => i ∈ threads.joined
  | _ => True

/-- Every event is allowed where it happens. -/
def Threads.Allows : Threads → List Event → Prop
  | _, [] => True
  | threads, event :: events => event.Allowed threads ∧ (threads.after event).Allows events

/-- The threads at the end of a run. -/
def Run.threads (run : Run) : Threads := Threads.start.afterAll run.events

/-- A run handles its threads well: slots are joined while they hold an unjoined thread, samples
are read of joined threads, a created thread is joined once, and the completed count is the number
of joined threads. -/
structure Orderly (run : Run) : Prop where
  allows : Threads.start.Allows run.events
  once : ∀ slot i, .create slot i true ∈ run.events → run.threads.joined.count i = 1
  completed : ∀ completed, run.report = some completed → completed = run.threads.joined.length

/-! ### The spawn loop -/

section Spawn

variable {pattern : Pattern} {n planned i : ℕ} {tail : List Event}

/-- The events of a task that is created. -/
def turn (i : ℕ) : List Event :=
  .arg i :: (if ringSize ≤ i then [.join (i % ringSize) true] else []) ++
    [.create (i % ringSize) i true, .sample (toInt i)]

/-- The events of the tasks `i`, `i + 1`, …, as many as are asked for. -/
def turns : ℕ → ℕ → List Event
  | _, 0 => []
  | i, count + 1 => turn i ++ turns (i + 1) count

theorem turns_succ (i count : ℕ) : turns i (count + 1) = turns i count ++ turn (i + count) := by
  induction count generalizing i with
  | zero => simp [turns]
  | succ count ih =>
    rw [turns, ih, turns, List.append_assoc, Nat.add_right_comm, Nat.add_assoc i]

theorem mem_turns {count : ℕ} {event : Event} (h : event ∈ turns i count) :
    ∃ t, i ≤ t ∧ t < i + count ∧ event ∈ turn t := by
  induction count generalizing i with
  | zero => cases h
  | succ count ih =>
    rcases List.mem_append.1 h with h | h
    · exact ⟨i, le_rfl, by omega, h⟩
    · obtain ⟨t, hle, hlt, ht⟩ := ih h
      exact ⟨t, by omega, by omega, ht⟩

theorem turn_subset_turns {count t : ℕ} (hle : i ≤ t) (hlt : t < i + count) :
    turn t ⊆ turns i count := by
  induction count generalizing i with
  | zero => omega
  | succ count ih =>
    rcases hle.eq_or_lt with rfl | hlt'
    · exact List.subset_append_left _ _
    · exact List.subset_append_of_subset_right _ (ih hlt' (by omega))

/-- The task `i` is created, after the join of its slot's last thread if there is one. -/
def Pattern.Makes (pattern : Pattern) (i : ℕ) : Prop :=
  pattern.creates i = true ∧ (ringSize ≤ i → pattern.recycles i = true)

/-- How the loop stops after `n` tasks, and its last events. -/
inductive Stops (pattern : Pattern) (planned n : ℕ) : List Event → Prop
  | finished (h : n = planned) : Stops pattern planned n []
  | recycle (h : n < planned) (hring : ringSize ≤ n) (hfail : pattern.recycles n = false) :
    Stops pattern planned n [.arg n, .join (n % ringSize) false]
  | early (h : n < planned) (hring : n < ringSize) (hfail : pattern.creates n = false) :
    Stops pattern planned n [.arg n, .create (n % ringSize) n false]
  | late (h : n < planned) (hring : ringSize ≤ n) (hok : pattern.recycles n = true)
    (hfail : pattern.creates n = false) :
    Stops pattern planned n
      [.arg n, .join (n % ringSize) true, .create (n % ringSize) n false]

theorem Stops.le (h : Stops pattern planned n tail) : n ≤ planned := by
  cases h <;> omega

theorem spawn_makes {left created : ℕ} (h : pattern.Makes i) :
    spawn pattern (left + 1) i created =
      (spawn pattern left (i + 1) (created + 1)).after (turn i) := by
  have hrecycle : ¬(ringSize ≤ i ∧ pattern.recycles i = false) := by
    rintro ⟨hring, hfail⟩
    rw [h.2 hring] at hfail
    cases hfail
  rw [spawn, if_neg hrecycle, if_neg (by rw [h.1]; decide)]
  rfl

/-- The loop stops at a task that is not created. -/
theorem spawn_stops (left created : ℕ) (h : ¬pattern.Makes i) (hlt : i < planned) :
    ∃ tail, Stops pattern planned i tail ∧
      spawn pattern (left + 1) i created = ⟨tail, created⟩ := by
  rw [spawn]
  by_cases hring : ringSize ≤ i
  · cases hrecycles : pattern.recycles i with
    | false => exact ⟨_, .recycle hlt hring hrecycles, by simp [hring]⟩
    | true =>
      have hcreates : pattern.creates i = false :=
        eq_false_of_ne_true fun hcreates => h ⟨hcreates, fun _ => hrecycles⟩
      exact ⟨_, .late hlt hring hrecycles hcreates, by simp [hring, hcreates]⟩
  · have hcreates : pattern.creates i = false :=
      eq_false_of_ne_true fun hcreates => h ⟨hcreates, fun hle => absurd hle hring⟩
    exact ⟨_, .early hlt (not_le.1 hring) hcreates, by simp [hring, hcreates]⟩

/-- **What the spawn loop does**: tasks one after the other, and how it stops. -/
theorem spawn_eq (pattern : Pattern) (left i : ℕ) : ∃ count tail,
    (∀ t, i ≤ t → t < i + count → pattern.Makes t) ∧
      Stops pattern (i + left) (i + count) tail ∧
        spawn pattern left i i = ⟨turns i count ++ tail, i + count⟩ := by
  induction left generalizing i with
  | zero => exact ⟨0, [], fun t hle hlt => by omega, .finished rfl, rfl⟩
  | succ left ih =>
    by_cases hmake : pattern.Makes i
    · obtain ⟨count, tail, hmakes, hstops, heq⟩ := ih (i + 1)
      have hcount : i + 1 + count = i + (count + 1) := by omega
      rw [hcount] at hmakes hstops heq
      rw [Nat.add_assoc, Nat.add_comm 1] at hstops
      refine ⟨count + 1, tail, fun t hle hlt => ?_, hstops, ?_⟩
      · rcases hle.eq_or_lt with rfl | hlt'
        · exact hmake
        · exact hmakes t hlt' hlt
      · rw [spawn_makes hmake, heq, Spawned.after, turns, List.append_assoc]
    · obtain ⟨tail, hstops, heq⟩ :=
        spawn_stops left i hmake (by omega : i < i + (left + 1))
      exact ⟨0, tail, fun t hle hlt => by omega, hstops, heq⟩

/-- How a run of `planned` tasks stops after `n` of them. -/
structure Ends (pattern : Pattern) (planned n : ℕ) (tail : List Event) : Prop where
  makes : ∀ t < n, pattern.Makes t
  stops : Stops pattern planned n tail
  spawn_eq : spawn pattern planned 0 0 = ⟨turns 0 n ++ tail, n⟩

theorem exists_ends (pattern : Pattern) (planned : ℕ) :
    ∃ n tail, Ends pattern planned n tail := by
  obtain ⟨n, tail, hmakes, hstops, heq⟩ := spawn_eq pattern planned 0
  rw [Nat.zero_add] at hmakes heq
  rw [Nat.zero_add, Nat.zero_add] at hstops
  exact ⟨n, tail, fun t ht => hmakes t (Nat.zero_le _) ht, hstops, heq⟩

end Spawn

/-! ### Indices -/

section Bounds

variable {undefined : Undefined} {pattern : Pattern} {rate workUs : ℤ} {duration : Py.Float}
  {planned i : ℕ}

theorem toInt_eq (h : i < 2 ^ 31) : toInt i = i := by
  unfold toInt
  exact Int.bmod_eq_of_le (by norm_num) (by norm_num; omega)

/-- With room for the planned tasks the indices of a run are in bounds. -/
theorem within_run {capacity : ℕ} (hplanned : planned ≤ capacity) (hint : planned ≤ 2 ^ 31)
    (pattern : Pattern) : ∀ event ∈ (run pattern planned).events, event.Within capacity := by
  -- the run is `n` whole turns, the events of the last one, and the loops after them
  obtain ⟨n, tail, hends⟩ := exists_ends pattern planned
  have hle := hends.stops.le
  have hspawned : ∀ event ∈ turns 0 n ++ tail, event.Within capacity := by
    intro event hevent
    rcases List.mem_append.1 hevent with hevent | hevent
    · obtain ⟨t, -, hlt, ht⟩ := mem_turns hevent
      rw [Nat.zero_add] at hlt
      have hbound : t < capacity := by omega
      have hsample : (Event.sample (toInt t)).Within capacity := by
        rw [Event.Within, toInt_eq (lt_of_lt_of_le hlt (hle.trans hint))]
        exact ⟨Int.natCast_nonneg t, Int.ofNat_lt.2 hbound⟩
      unfold turn at ht
      split_ifs at ht <;>
        simp only [List.cons_append, List.nil_append, List.mem_cons, List.not_mem_nil,
          or_false] at ht
      · rcases ht with rfl | rfl | rfl | rfl
        exacts [hbound, trivial, trivial, hsample]
      · rcases ht with rfl | rfl | rfl
        exacts [hbound, trivial, hsample]
    · -- the loop stops before the planned count, or has no events left
      cases hends.stops <;>
        simp only [List.mem_cons, List.not_mem_nil, or_false] at hevent
      all_goals
        rcases hevent with rfl | hevent
        · exact show n < capacity by omega
      · rw [hevent]; trivial
      · rw [hevent]; trivial
      · rcases hevent with rfl | rfl <;> trivial
  have hdrained : ∀ event ∈ drain pattern n, event.Within capacity := by
    intro event hevent
    obtain ⟨i, -, rfl⟩ := List.mem_map.1 hevent
    trivial
  intro event hevent
  rw [run, hends.spawn_eq] at hevent
  dsimp only at hevent
  split_ifs at hevent
  · rcases List.mem_append.1 hevent with hevent | hevent
    · exact (List.mem_append.1 hevent).elim (hspawned event) (hdrained event)
    · obtain ⟨i, hi, rfl⟩ := List.mem_map.1 hevent
      have := List.mem_range.1 hi
      exact show i < capacity by omega
  · exact (List.mem_append.1 hevent).elim (hspawned event) (hdrained event)

/-- When every call succeeds the last planned task has its arguments written. -/
theorem arg_mem_run (hplanned : 0 < planned) :
    .arg (planned - 1) ∈ (run .allOk planned).events := by
  obtain ⟨n, tail, hends⟩ := exists_ends .allOk planned
  have hn : n = planned := by
    cases hends.stops with
    | finished h => exact h
    | recycle _ _ hfail => cases hfail
    | early _ _ hfail => cases hfail
    | late _ _ _ hfail => cases hfail
  have hturn : .arg (planned - 1) ∈ turns 0 n :=
    turn_subset_turns (Nat.zero_le _) (by omega) List.mem_cons_self
  rw [run, hends.spawn_eq]
  exact List.mem_append_left _ (List.mem_append_left _ (List.mem_append_left _ hturn))

theorem toUint64_lt (undefined : Undefined) (x : Py.Float) : toUint64 undefined x < 2 ^ 64 := by
  cases x with
  | fin q =>
    rw [toUint64]
    split_ifs with h
    · have hlt : truncate q < 2 ^ 64 := by
        rw [truncate]
        split_ifs with hneg
        · exact lt_of_le_of_lt (Int.ceil_le.2 (by exact_mod_cast hneg.le)) (by norm_num)
        · exact Int.floor_lt.2 (by exact_mod_cast h.2)
      omega
    · exact (undefined _).isLt
  | inf => exact (undefined _).isLt
  | negInf => exact (undefined _).isLt
  | nan => exact (undefined _).isLt

theorem planned_pos (undefined : Undefined) (rate : ℤ) (duration : Py.Float) :
    0 < TaskChurn.planned undefined rate duration := by
  rw [TaskChurn.planned]
  split_ifs with h
  · exact Nat.one_pos
  · exact Nat.pos_of_ne_zero h

theorem planned_lt : TaskChurn.planned undefined rate duration < 2 ^ 64 := by
  rw [TaskChurn.planned]
  split_ifs
  · norm_num
  · exact toUint64_lt _ _

/-- The slack does not help beyond the cap, nor where it wraps around. -/
theorem le_capacity_iff (h : planned < 2 ^ 64) :
    planned ≤ capacity planned ↔ planned ≤ maxSamples := by
  unfold capacity maxSamples
  simp only
  split_ifs <;> omega

/-- The indices are in bounds when there is room for the planned tasks. -/
theorem inBounds_iff_planned : InBounds rate duration ↔
    ∀ undefined, TaskChurn.planned undefined rate duration ≤ maxSamples := by
  constructor
  · intro h undefined
    have hpos := planned_pos undefined rate duration
    have hlast : TaskChurn.planned undefined rate duration - 1 <
        capacity (TaskChurn.planned undefined rate duration) :=
      h undefined .allOk true _ (arg_mem_run hpos)
    exact (le_capacity_iff planned_lt).1 (by omega)
  · intro h undefined pattern allocated event hevent
    cases allocated with
    | false => cases hevent
    | true =>
      have hle := h undefined
      refine within_run ((le_capacity_iff planned_lt).2 hle) (hle.trans ?_) pattern event hevent
      rw [maxSamples]
      norm_num

theorem nonneg_product {q : ℚ} (h : Admitted rate duration workUs)
    (hq : product rate duration = .fin q) : 0 ≤ q := by
  obtain ⟨hrate, hduration, -⟩ : ¬rate ≤ 0 ∧ ¬duration.le (.fin 0) = true ∧ ¬workUs < 0 := by
    simpa only [Admitted, not_or] using h
  have hnearest : 0 ≤ nearest (rate : ℚ) := Py.nonneg_nearest (by exact_mod_cast (not_le.1 hrate).le)
  cases duration with
  | fin d =>
    have hd : 0 < d := by
      by_contra hd
      refine hduration ?_
      rcases (not_lt.1 hd).eq_or_lt with rfl | hlt
      · decide
      · simp [Py.Float.le, Py.Float.lt, hlt]
    exact Py.nonneg_of_toDouble (mul_nonneg hd.le hnearest) hq
  | inf =>
    rw [product, Py.Float.scale] at hq
    split_ifs at hq <;> cases hq
  | negInf => exact absurd (by decide) hduration
  | nan => cases hq

theorem toUint64_fin {q : ℚ} (hq : 0 ≤ q) (hlt : q < 2 ^ 64) :
    toUint64 undefined (.fin q) = ⌊q⌋₊ := by
  rw [toUint64, if_pos ⟨by linarith, hlt⟩, truncate, if_neg (not_lt.2 hq), Int.floor_toNat]

/-- **When every index is below the capacity**: the product of the rate and the duration is a
number below 1000001. -/
theorem inBounds_iff (h : Admitted rate duration workUs) :
    InBounds rate duration ↔ ∃ q, product rate duration = .fin q ∧ q < 1000001 := by
  rw [inBounds_iff_planned]
  constructor
  · intro hle
    -- a conversion that is not defined may give the greatest number
    have hgreatest := hle fun _ => Fin.last _
    rw [TaskChurn.planned, maxSamples] at hgreatest
    cases hproduct : product rate duration with
    | fin q =>
      refine ⟨q, rfl, ?_⟩
      have hq := nonneg_product h hproduct
      by_contra hlarge
      rw [hproduct] at hgreatest
      by_cases hdefined : q < 2 ^ 64
      · have hfloor : 1000001 ≤ ⌊q⌋₊ := Nat.le_floor (by exact_mod_cast not_lt.1 hlarge)
        rw [toUint64_fin hq hdefined, if_neg (by omega)] at hgreatest
        omega
      · have hundefined : ¬(-1 < q ∧ q < 2 ^ 64) := fun hsmall => hdefined hsmall.2
        simp only [toUint64, if_neg hundefined] at hgreatest
        exact absurd hgreatest (by decide)
    | inf => rw [hproduct] at hgreatest; exact absurd hgreatest (by decide)
    | negInf => rw [hproduct] at hgreatest; exact absurd hgreatest (by decide)
    | nan => rw [hproduct] at hgreatest; exact absurd hgreatest (by decide)
  · rintro ⟨q, hproduct, hlt⟩ undefined
    have hq := nonneg_product h hproduct
    have hfloor : ⌊q⌋₊ < 1000001 := (Nat.floor_lt hq).2 (by exact_mod_cast hlt)
    rw [TaskChurn.planned, hproduct, toUint64_fin hq (hlt.trans (by norm_num)), maxSamples]
    split_ifs <;> omega

theorem product_intCast (rate duration : ℤ) (hrate : |rate| ≤ 2 ^ 53)
    (hproduct : |duration * rate| ≤ 2 ^ 53) :
    product rate (.fin duration) = .fin ((duration * rate : ℤ) : ℚ) := by
  rw [product, Py.nearest_intCast hrate, Py.Float.scale, Py.Float.rounded, ← Int.cast_mul,
    Py.toDouble_intCast hproduct]

/-- The default arguments are in bounds. -/
theorem inBounds_byDefault : Admitted 200 (.fin 10) 20 ∧
    (InBounds 200 (.fin 10) ↔ ∃ q, product 200 (.fin 10) = .fin q ∧ q < 1000001) ∧
    ∃ q, product 200 (.fin 10) = .fin q ∧ q < 1000001 := by
  have hadmitted : Admitted 200 (.fin 10) 20 := by
    unfold Admitted
    decide
  refine ⟨hadmitted, inBounds_iff hadmitted, 2000, ?_, by norm_num⟩
  exact product_intCast 200 10 (by norm_num) (by norm_num)

/-- A rate of 100001 for ten seconds has the last tasks behind the arrays. -/
theorem outOfBounds : Admitted 100001 (.fin 10) 20 ∧ ¬InBounds 100001 (.fin 10) := by
  refine ⟨by unfold Admitted; decide, fun h => ?_⟩
  have hle := inBounds_iff_planned.1 h fun _ => 0
  have hproduct : product 100001 (.fin 10) = .fin 1000010 :=
    product_intCast 100001 10 (by norm_num) (by norm_num)
  rw [TaskChurn.planned, hproduct, toUint64_fin (by norm_num) (by norm_num), maxSamples] at hle
  norm_num at hle

end Bounds

/-! ### The ring -/

section Ring

variable {pattern : Pattern} {threads : Threads} {m n planned slot i : ℕ} {ok : Bool}
  {event : Event} {events tail : List Event}

@[simp] theorem Threads.afterAll_nil (threads : Threads) : threads.afterAll [] = threads := rfl

@[simp] theorem Threads.afterAll_cons (threads : Threads) (event : Event) (events : List Event) :
    threads.afterAll (event :: events) = (threads.after event).afterAll events := rfl

theorem Threads.afterAll_append (threads : Threads) (events events' : List Event) :
    threads.afterAll (events ++ events') = (threads.afterAll events).afterAll events' :=
  List.foldl_append

theorem Threads.allows_append (threads : Threads) (events events' : List Event) :
    threads.Allows (events ++ events') ↔
      threads.Allows events ∧ (threads.afterAll events).Allows events' := by
  induction events generalizing threads with
  | nil => simp [Threads.Allows]
  | cons event events ih =>
    rw [List.cons_append, Threads.Allows, Threads.Allows, ih, and_assoc, Threads.afterAll_cons]

/-- The threads below `m` are joined, and those from `m` up to `n` are in their slots. -/
structure Ring (m n : ℕ) (threads : Threads) : Prop where
  joined : threads.joined = List.range m
  held : ∀ t, m ≤ t → t < n → threads.held (t % ringSize) = some t

theorem Ring.start : Ring 0 0 Threads.start := ⟨rfl, fun t _ hlt => absurd hlt (Nat.not_lt_zero t)⟩

/-- Threads that are less than a ring apart have different slots. -/
theorem mod_ringSize_ne {t t' : ℕ} (hlt : t < t') (hnear : t' < t + ringSize) :
    t % ringSize ≠ t' % ringSize := by
  unfold ringSize at *
  omega

/-- A thread is created while there is room. -/
theorem Ring.create (h : Ring m n threads) (hroom : n < m + ringSize) :
    Ring m (n + 1) (threads.after (.create (n % ringSize) n true)) := by
  refine ⟨h.joined, fun t hle hlt => ?_⟩
  rcases (Nat.lt_succ_iff.1 hlt).eq_or_lt with rfl | hlt
  · exact Function.update_self ..
  · exact (Function.update_of_ne (mod_ringSize_ne hlt (by omega)) ..).trans (h.held t hle hlt)

theorem Ring.allowed (h : Ring m n threads) (hlt : m < n) :
    (Event.join (m % ringSize) ok).Allowed threads := by
  rw [Event.Allowed, h.held m le_rfl hlt]
  exact Option.some_ne_none m

/-- The first thread that is not joined is. -/
theorem Ring.join (h : Ring m n threads) (hlt : m < n) (hfits : n ≤ m + ringSize) :
    Ring (m + 1) n (threads.after (.join (m % ringSize) true)) := by
  refine ⟨?_, fun t hle ht => ?_⟩
  · rw [Threads.after, h.held m le_rfl hlt, h.joined, Option.toList_some, List.range_succ]
  · have hslot := mod_ringSize_ne (show m < t by omega) (by omega)
    exact (Function.update_of_ne hslot.symm ..).trans (h.held t (by omega) ht)

/-- A turn of the spawn loop. -/
theorem Ring.turn (h : Ring (n - ringSize) n threads) : threads.Allows (turn n) ∧
    Ring (n + 1 - ringSize) (n + 1) (threads.afterAll (turn n)) := by
  unfold TaskChurn.turn
  -- a full ring joins its oldest thread, which has the slot of the next one
  split_ifs with hring
  · have hslot : n % ringSize = (n - ringSize) % ringSize := by
      unfold ringSize at *
      omega
    have hlt : n - ringSize < n := by
      unfold ringSize at *
      omega
    have hjoin := h.join hlt (by omega)
    have hcreate := hjoin.create (by omega)
    have hnext : n + 1 - ringSize = n - ringSize + 1 := Nat.succ_sub hring
    rw [← hslot] at hcreate
    rw [hnext]
    refine ⟨⟨trivial, ?_, trivial, trivial, trivial⟩, hcreate⟩
    rw [hslot]
    exact h.allowed hlt
  · have hcreate := h.create (by omega)
    rw [show n - ringSize = n + 1 - ringSize by omega] at hcreate
    exact ⟨⟨trivial, trivial, trivial, trivial⟩, hcreate⟩

/-- The turns of the spawn loop. -/
theorem Ring.turns (n : ℕ) : Threads.start.Allows (turns 0 n) ∧
    Ring (n - ringSize) n (Threads.start.afterAll (turns 0 n)) := by
  induction n with
  | zero =>
    rw [Nat.zero_sub]
    exact ⟨trivial, Ring.start⟩
  | succ n ih =>
    rw [turns_succ, Nat.zero_add, Threads.allows_append, Threads.afterAll_append]
    exact ⟨⟨ih.1, ih.2.turn.1⟩, ih.2.turn.2⟩

/-- The joins behind the loop are those of the threads in the ring. -/
theorem drain_eq (pattern : Pattern) (n : ℕ) : drain pattern n =
    (List.range' (n - ringSize) (n - (n - ringSize))).map fun i =>
      .join (i % ringSize) (pattern.drains i) := by
  unfold drain
  have hfrom : (if ringSize < n then n - ringSize else 0) = n - ringSize := by
    split_ifs <;> omega
  rw [hfrom]

/-- Joins that succeed join the threads one after the other. -/
theorem Ring.joins (pattern : Pattern) {count : ℕ} (h : Ring m (m + count) threads)
    (hfits : count ≤ ringSize)
    (hdrains : ∀ i, m ≤ i → i < m + count → pattern.drains i = true) :
    let joins := (List.range' m count).map fun i =>
      Event.join (i % ringSize) (pattern.drains i)
    threads.Allows joins ∧ Ring (m + count) (m + count) (threads.afterAll joins) := by
  induction count generalizing m threads with
  | zero => exact ⟨trivial, h⟩
  | succ count ih =>
    have hjoin := h.join (by omega) (by omega)
    rw [← Nat.add_assoc, Nat.add_right_comm] at hjoin hdrains ⊢
    obtain ⟨hallows, hring⟩ := ih hjoin (by omega) fun i hle hlt => hdrains i (by omega) hlt
    simp only [List.range'_succ, List.map_cons, hdrains m le_rfl (by omega)]
    exact ⟨⟨h.allowed (by omega), hallows⟩, hring⟩

/-- The joins behind the loop join the rest. -/
theorem Ring.drain (h : Ring (n - ringSize) n threads)
    (hdrains : ∀ i, n ≤ i + ringSize → i < n → pattern.drains i = true) :
    threads.Allows (TaskChurn.drain pattern n) ∧
      Ring n n (threads.afterAll (TaskChurn.drain pattern n)) := by
  have hcount : n - ringSize + (n - (n - ringSize)) = n := Nat.add_sub_cancel' (Nat.sub_le _ _)
  have hring : Ring (n - ringSize) (n - ringSize + (n - (n - ringSize))) threads := by
    rw [hcount]
    exact h
  have hrest := hring.joins pattern (by omega)
    fun i hle hlt => hdrains i (by omega) (lt_of_lt_of_eq hlt hcount)
  rw [hcount] at hrest
  rw [drain_eq]
  exact hrest

/-- A creation that fails in a slot without a thread changes nothing. -/
theorem Ring.fail (h : Ring m n threads) (hroom : n < m + ringSize) :
    Ring m n (threads.after (.create (n % ringSize) n false)) :=
  ⟨h.joined, fun t hle hlt =>
    (Function.update_of_ne (mod_ringSize_ne hlt (by omega)) ..).trans (h.held t hle hlt)⟩

/-- The loop has not stopped between the join of a slot's thread and the creation of the next. -/
def Settled (pattern : Pattern) (planned n : ℕ) : Prop :=
  n = planned ∨ (n < ringSize ∧ pattern.creates n = false) ∨
    (ringSize ≤ n ∧ pattern.recycles n = false)

/-- Then its last events leave the ring as it is. -/
theorem Ring.stops (h : Ring (n - ringSize) n threads) (hstops : Stops pattern planned n tail)
    (hsettled : Settled pattern planned n) :
    threads.Allows tail ∧ Ring (n - ringSize) n (threads.afterAll tail) := by
  cases hstops with
  | finished => exact ⟨trivial, h⟩
  | recycle _ hring =>
    have hpos : 0 < ringSize := by
      unfold ringSize
      norm_num
    have hslot : n % ringSize = (n - ringSize) % ringSize := Nat.mod_eq_sub_mod hring
    refine ⟨⟨trivial, ?_, trivial⟩, h⟩
    rw [hslot]
    exact h.allowed (by omega)
  | early _ hring => exact ⟨⟨trivial, trivial, trivial⟩, h.fail (by omega)⟩
  | late hlt hring hok =>
    rcases hsettled with heq | ⟨hsmall, -⟩ | ⟨-, hfail⟩
    · omega
    · omega
    · rw [hok] at hfail
      cases hfail

/-- Otherwise the slot to join next has no thread. -/
theorem held_of_not_settled (threads : Threads) (hstops : Stops pattern planned n tail)
    (hsettled : ¬Settled pattern planned n) :
    ringSize ≤ n ∧ (threads.afterAll tail).held (n % ringSize) = none := by
  cases hstops with
  | finished h => exact absurd (.inl h) hsettled
  | recycle _ hring hfail => exact absurd (.inr (.inr ⟨hring, hfail⟩)) hsettled
  | early _ hring hfail => exact absurd (.inr (.inl ⟨hring, hfail⟩)) hsettled
  | late _ hring => exact ⟨hring, Function.update_self ..⟩

theorem Threads.afterAll_collects (threads : Threads) (is : List ℕ) :
    threads.afterAll (is.map .collect) = threads := by
  induction is with
  | nil => rfl
  | cons i is ih => exact ih

/-- The reads behind the joins. -/
theorem allows_collects {is : List ℕ} (h : ∀ i ∈ is, i ∈ threads.joined) :
    threads.Allows (is.map .collect) := by
  induction is with
  | nil => trivial
  | cons i is ih =>
    exact ⟨h i List.mem_cons_self, ih fun j hj => h j (List.mem_cons_of_mem i hj)⟩

/-- Joins that fail join nothing. -/
theorem length_joined_le (pattern : Pattern) (threads : Threads) (is : List ℕ) :
    (threads.afterAll (is.map fun i => .join (i % ringSize) (pattern.drains i))).joined.length ≤
      threads.joined.length + is.countP pattern.drains := by
  induction is generalizing threads with
  | nil => exact le_rfl
  | cons i is ih =>
    have hstep : (threads.after (.join (i % ringSize) (pattern.drains i))).joined.length ≤
        threads.joined.length + if pattern.drains i then 1 else 0 := by
      cases pattern.drains i with
      | false => exact le_rfl
      | true =>
        have hone : (threads.held (i % ringSize)).toList.length ≤ 1 := by
          cases threads.held (i % ringSize) <;> simp
        rw [Threads.after, List.length_append, if_pos rfl]
        omega
    have hrest := ih (threads.after (.join (i % ringSize) (pattern.drains i)))
    rw [List.map_cons, Threads.afterAll_cons, List.countP_cons]
    omega

/-! ### Patterns -/

/-- Every join behind the loop succeeds, after `n` tasks. -/
def Drains (pattern : Pattern) (n : ℕ) : Prop :=
  ∀ i, n ≤ i + ringSize → i < n → pattern.drains i = true

/-- The tasks before one of them are created, the loop ends there without a join that has no
creation behind it, and every join behind the loop succeeds. -/
def Clean (pattern : Pattern) (planned : ℕ) : Prop :=
  ∃ n ≤ planned, (∀ i < n, pattern.Makes i) ∧ Settled pattern planned n ∧ Drains pattern n

theorem Settled.not_makes (h : Settled pattern planned n) : n = planned ∨ ¬pattern.Makes n := by
  rcases h with h | ⟨-, hfail⟩ | ⟨hring, hfail⟩
  · exact .inl h
  · exact .inr fun hmakes => by rw [hmakes.1] at hfail; cases hfail
  · exact .inr fun hmakes => by rw [hmakes.2 hring] at hfail; cases hfail

theorem Stops.not_makes (h : Stops pattern planned n tail) :
    n = planned ∨ ¬pattern.Makes n := by
  cases h with
  | finished h => exact .inl h
  | recycle _ hring hfail => exact .inr fun hmakes => by rw [hmakes.2 hring] at hfail; cases hfail
  | early _ _ hfail => exact .inr fun hmakes => by rw [hmakes.1] at hfail; cases hfail
  | late _ _ _ hfail => exact .inr fun hmakes => by rw [hmakes.1] at hfail; cases hfail

/-- The task at which the loop stops is that of the pattern. -/
theorem Ends.clean_iff (hends : Ends pattern planned n tail) :
    Clean pattern planned ↔ Settled pattern planned n ∧ Drains pattern n := by
  constructor
  · rintro ⟨n', hle', hmakes', hsettled, hdrains⟩
    have hle := hends.stops.le
    have heq : n' = n := by
      rcases lt_trichotomy n' n with hlt | heq | hlt
      · exact (hsettled.not_makes.resolve_left (by omega) (hends.makes n' hlt)).elim
      · exact heq
      · exact (hends.stops.not_makes.resolve_left (by omega) (hmakes' n hlt)).elim
    rw [← heq]
    exact ⟨hsettled, hdrains⟩
  · exact fun h => ⟨n, hends.stops.le, hends.makes, h⟩

/-- The events of a run: the turns, how the loop stops, the joins and the reads. -/
theorem Ends.run_eq (hends : Ends pattern planned n tail) : run pattern planned =
    { events := turns 0 n ++ tail ++ drain pattern n ++
        (if pattern.gathers then List.range n else []).map .collect
      report := if pattern.gathers then some n else none } := by
  rw [run, hends.spawn_eq]
  dsimp only
  split_ifs
  · rfl
  · rw [List.map_nil, List.append_nil]

/-- The tasks created in a run are those before the one at which the loop stops. -/
theorem Ends.created_iff (hends : Ends pattern planned n tail) :
    (∃ slot, .create slot i true ∈ (run pattern planned).events) ↔ i < n := by
  rw [hends.run_eq]
  constructor
  · rintro ⟨slot, h⟩
    rcases List.mem_append.1 h with h | h
    · rcases List.mem_append.1 h with h | h
      · rcases List.mem_append.1 h with h | h
        · obtain ⟨t, -, hlt, ht⟩ := mem_turns h
          unfold turn at ht
          split_ifs at ht <;> simp at ht <;> omega
        · cases hends.stops <;> simp at h
      · obtain ⟨j, -, hj⟩ := List.mem_map.1 h
        cases hj
    · obtain ⟨j, -, hj⟩ := List.mem_map.1 h
      cases hj
  · intro hlt
    have hturn : .create (i % ringSize) i true ∈ turns 0 n :=
      turn_subset_turns (Nat.zero_le i) (by omega) (by unfold turn; simp)
    exact ⟨_, List.mem_append_left _ (List.mem_append_left _ (List.mem_append_left _ hturn))⟩

/-- The reads at the end of a run join nothing. -/
theorem Ends.joined_eq (hends : Ends pattern planned n tail) :
    (run pattern planned).threads.joined =
      (((Threads.start.afterAll (turns 0 n)).afterAll tail).afterAll (drain pattern n)).joined := by
  rw [Run.threads, hends.run_eq]
  simp only [Threads.afterAll_append, Threads.afterAll_collects]

/-- A run whose joins all succeed behind a settled loop. -/
theorem Ends.orderly (hends : Ends pattern planned n tail)
    (hsettled : Settled pattern planned n) (hdrains : Drains pattern n) :
    Orderly (run pattern planned) := by
  -- the ring holds the threads not yet joined, through the turns, the stop and the drain
  obtain ⟨hturns, hring⟩ := Ring.turns n
  obtain ⟨htail, hring⟩ := hring.stops hends.stops hsettled
  obtain ⟨hjoins, hring⟩ := hring.drain hdrains
  have hjoined : (run pattern planned).threads.joined = List.range n := by
    rw [hends.joined_eq, hring.joined]
  refine ⟨?_, fun slot i hcreate => ?_, fun completed hreport => ?_⟩
  · rw [hends.run_eq]
    simp only [Threads.allows_append, Threads.afterAll_append]
    refine ⟨⟨⟨hturns, htail⟩, hjoins⟩, allows_collects ?_⟩
    rw [hring.joined]
    split_ifs
    · exact fun i hi => hi
    · exact fun i hi => absurd hi List.not_mem_nil
  · have hlt := hends.created_iff.1 ⟨slot, hcreate⟩
    rw [hjoined]
    exact List.count_eq_one_of_mem List.nodup_range (List.mem_range.2 hlt)
  · rw [hends.run_eq] at hreport
    dsimp only at hreport
    split_ifs at hreport
    rw [hjoined, List.length_range]
    exact (Option.some.inj hreport).symm

/-- An orderly run has stopped without an empty slot. -/
theorem Ends.settled (hends : Ends pattern planned n tail)
    (horderly : Orderly (run pattern planned)) : Settled pattern planned n := by
  by_contra hsettled
  have hallows := horderly.allows
  rw [hends.run_eq] at hallows
  simp only [Threads.allows_append, Threads.afterAll_append] at hallows
  obtain ⟨hring, hnone⟩ := held_of_not_settled
    (Threads.start.afterAll (turns 0 n)) hends.stops hsettled
  -- the first join behind the loop is that of the slot that has been emptied
  have hpos : 0 < ringSize := by
    unfold ringSize
    norm_num
  have hjoins := hallows.1.2
  rw [drain_eq, show n - (n - ringSize) = (ringSize - 1) + 1 by omega, List.range'_succ,
    List.map_cons] at hjoins
  refine hjoins.1 ?_
  rw [← Nat.mod_eq_sub_mod hring]
  exact hnone

/-- An orderly run has no join that fails behind the loop. -/
theorem Ends.drains (hends : Ends pattern planned n tail)
    (horderly : Orderly (run pattern planned)) : Drains pattern n := by
  obtain ⟨-, hring⟩ := Ring.turns n
  obtain ⟨-, hring⟩ := hring.stops hends.stops (hends.settled horderly)
  set is := List.range' (n - ringSize) (n - (n - ringSize)) with his
  -- the threads that are created are all among those that are joined
  have hsubset : List.range n ⊆ (run pattern planned).threads.joined := by
    intro i hi
    obtain ⟨slot, hcreate⟩ := hends.created_iff.2 (List.mem_range.1 hi)
    refine List.count_pos_iff.1 ?_
    rw [horderly.once slot i hcreate]
    exact Nat.one_pos
  have hle := (List.subperm_of_subset List.nodup_range hsubset).length_le
  have hjoins := length_joined_le pattern
    ((Threads.start.afterAll (turns 0 n)).afterAll tail) is
  rw [← drain_eq, ← hends.joined_eq, hring.joined, List.length_range] at hjoins
  rw [List.length_range] at hle
  have hlength : is.length = n - (n - ringSize) := List.length_range'
  have hcount : is.countP pattern.drains = is.length :=
    le_antisymm List.countP_le_length (by omega)
  intro i hring hlt
  refine List.countP_eq_length.1 hcount i ?_
  rw [his, List.mem_range'_1]
  omega

/-- **When a run handles its threads well**: the loop does not stop between a join and the creation
behind it, and no join behind the loop fails. -/
theorem orderly_iff (pattern : Pattern) (planned : ℕ) :
    Orderly (run pattern planned) ↔ Clean pattern planned := by
  obtain ⟨n, tail, hends⟩ := exists_ends pattern planned
  rw [hends.clean_iff]
  exact ⟨fun horderly => ⟨hends.settled horderly, hends.drains horderly⟩,
    fun ⟨hsettled, hdrains⟩ => hends.orderly hsettled hdrains⟩

/-- Every call succeeds but the creation of the first thread whose slot has been used. -/
def Pattern.lateFailure : Pattern := { Pattern.allOk with creates := fun i => i != 256 }

/-- Then the slot that has just been joined is joined again. -/
theorem joinsTwice : ¬Orderly (run .lateFailure 2000) := by
  obtain ⟨n, tail, hends⟩ := exists_ends .lateFailure 2000
  have hmakes : ∀ i, Pattern.lateFailure.Makes i ↔ i ≠ 256 := fun i =>
    ⟨fun h => bne_iff_ne.1 h.1, fun h => ⟨bne_iff_ne.2 h, fun _ => rfl⟩⟩
  have hn : n = 256 := by
    rcases lt_trichotomy n 256 with hlt | heq | hlt
    · rcases hends.stops.not_makes with h | h
      · omega
      · exact absurd ((hmakes n).2 hlt.ne) h
    · exact heq
    · exact absurd rfl ((hmakes 256).1 (hends.makes 256 hlt))
  intro horderly
  rcases hends.settled horderly with h | ⟨h, -⟩ | ⟨-, h⟩
  · omega
  · unfold ringSize at h
    omega
  · cases h

end Ring


end TaskChurn

end SchedCoreDelta
