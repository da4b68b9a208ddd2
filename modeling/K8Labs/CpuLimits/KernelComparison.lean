import K8Labs.Python.Effect
import K8Labs.Python.Value

/-!
# The comparison of kernel schedulers

`test-kernel-comparison.py` attaches one sched_ext scheduler after the other and runs the same matrix
of workloads under each; the arm `cfs` attaches none.  The scheduler that is attached is a state of
the node that outlives an arm.  What the node and the programs in it do in an arm is its `Outcome`.

* `faithful_iff` : the rows of a run were measured under the schedulers of their arms, and only
  detached arms are recorded as `ok`, **if and only if** every arm whose matrix succeeds begins with
  no other scheduler attached, keeps its own through the matrix and is seen to be detached.
* `not_faithful_stuck` : a scheduler that does not detach is recorded as `ok`, and the next arm is
  measured under it.
-/

namespace CpuLimits.KernelComparison

open Py Py.Effect

/-! ### Arms -/

/-- A scheduler program with its arguments. -/
structure Scheduler where
  binary : String
  args : List String
  deriving DecidableEq

/-- An entry of `SCHEDULERS`. -/
structure Spec where
  name : String
  build : String
  args : List String

/-- `CELL_PARENT`. -/
def cellParent : String := "/sched-modes"

/-- `SCHEDULERS`. -/
def schedulers : List (String × Spec) :=
  [("lavd", ⟨"scx_lavd-performance", "scx_lavd", ["--performance"]⟩),
    ("lavd-bw", ⟨"scx_lavd-performance-bw", "scx_lavd", ["--performance", "--enable-cpu-bw"]⟩),
    ("bpfland", ⟨"scx_bpfland", "scx_bpfland", []⟩),
    ("mitosis", ⟨"scx_mitosis", "scx_mitosis", ["--cell-parent-cgroup", cellParent]⟩),
    ("mavd", ⟨"scx_mavd", "scx_mavd", ["--performance"]⟩),
    ("nitosis", ⟨"scx_nitosis", "scx_nitosis", ["--cell-parent-cgroup", cellParent]⟩)]

/-- An arm; without a binary nothing is attached. -/
structure Arm where
  name : String
  binary : Option String
  args : List String
  deriving DecidableEq

/-- The scheduler of an arm. -/
def Arm.scheduler (arm : Arm) : Option Scheduler := arm.binary.map fun binary => ⟨binary, arm.args⟩

/-- The arm of the stock scheduler. -/
def cfs : Arm := ⟨"cfs", none, []⟩

/-- The arm of an entry of `SCHEDULERS`. -/
def Spec.arm (spec : Spec) : Arm := ⟨spec.name, some ("/var/tmp/" ++ spec.build), spec.args⟩

/-- The arms of a run, for the keys that are asked for. -/
def arms (keys : List String) (skipScx onlyPreempt : Bool) : List Arm :=
  if onlyPreempt then []
  else if skipScx then [cfs]
  else cfs :: (keys.filterMap fun key => List.lookup key schedulers).map Spec.arm

/-! ### What happens in an arm -/

/-- What `run_matrix` returns or raises. -/
inductive Matrix where
  | rows (rows : List Items)
  | error (message : String)
  | raises (e : Exc)

/-- What a stop leads to. -/
structure Stop where
  /-- The attached scheduler is gone at the end of the wait. -/
  gone : Bool
  /-- The state file can be read at the end of the wait. -/
  readable : Bool
  nrRejected : String
  /-- A command runs out of time. -/
  raises : Option Exc

/-- What happens in an arm. -/
structure Outcome where
  /-- `test -x` succeeds. -/
  staged : Bool
  /-- A command runs out of time before the matrix. -/
  raises : Option Exc
  pid : String
  enableSeq : String
  log : String
  /-- The scheduler attaches within the wait, unless another one is attached. -/
  attaches : Bool
  /-- The state file can be read at the end of that wait. -/
  readable : Bool
  /-- The stop, when the start failed. -/
  abandon : Stop
  /-- What is attached stays attached through the matrix. -/
  stays : Bool
  matrix : Matrix
  /-- The stop behind the matrix; without a scheduler of its own, an arm only reads the state. -/
  detach : Stop

/-- A row, with what was attached at the begin and at the end of its matrix. -/
structure Row where
  items : Items
  /-- The arm it is labelled with, `arm_taken`. -/
  arm : Arm
  attached : List (Option Scheduler)

/-- `row["sched_ext"]`. -/
def Row.schedExt (row : Row) : String := row.arm.binary.getD "cfs"

/-- What the program finds when the scheduler is attached. -/
structure Info where
  pid : String
  enableSeq : String
  state : String
  deriving DecidableEq

/-- The record of an arm. -/
structure Record where
  arm : Arm
  info : Option Info
  status : Option String
  error : Option String
  detach : Option String
  rows : Option ℕ
  deriving DecidableEq

/-- The state of the node and the variables of the program. -/
structure Lab where
  /-- The sched_ext scheduler that the kernel runs. -/
  attached : Option Scheduler
  /-- `all_rows`. -/
  rows : List Row
  /-- `arm_records`. -/
  records : List Record
  failures : List String
  /-- `record` of the arm that runs. -/
  record : Record
  /-- The state in `detach` of the arm that runs. -/
  detach : String

/-- A part of the run. -/
abbrev Step (α : Type) := Effect Lab Exc α

/-- `raise`, when a command runs out of time. -/
def mayRaise (raises : Option Exc) : Step Unit :=
  match raises with
  | none => pure ()
  | some e => throw e

/-- `sched_ext_state`: the state file speaks of whatever scheduler is attached. -/
def schedExtState (readable : Bool) (attached : Option Scheduler) : String :=
  if !readable then "missing" else if attached.isSome then "enabled" else "disabled"

/-- `stop_scx`: the state when it is over. -/
def stopScx (stop : Stop) : Step String := do
  mayRaise stop.raises
  modify fun lab => { lab with attached := if stop.gone then none else lab.attached }
  let lab ← get
  pure (schedExtState stop.readable lab.attached)

/-- `start_scx`, when the wait is over. -/
def checkStarted (o : Outcome) (state : String) : Step (Except String Info) :=
  if state ≠ "enabled" then do
    let _ ← stopScx o.abandon
    pure (.error ("state=" ++ state ++ " pid=" ++ o.pid ++ " log=" ++ o.log))
  else pure (.ok ⟨o.pid, o.enableSeq, state⟩)

/-- `start_scx`: at most one scheduler is attached at a time. -/
def startScx (o : Outcome) (arm : Arm) : Step (Except String Info) := do
  modify fun lab => { lab with
    attached := lab.attached.or (if o.attaches then arm.scheduler else none) }
  let lab ← get
  checkStarted o (schedExtState o.readable lab.attached)

/-- `run_matrix`: its rows, with what was attached meanwhile. -/
def runMatrix (o : Outcome) (arm : Arm) : Step (Except String (List Row)) := do
  let before ← get
  modify fun lab => { lab with attached := if o.stays then lab.attached else none }
  let after ← get
  match o.matrix with
  | .rows rows => pure (.ok (rows.map fun items => ⟨items, arm, [before.attached, after.attached]⟩))
  | .error message => pure (.error message)
  | .raises e => throw e

/-- The state behind the matrix. -/
def detachState (o : Outcome) (arm : Arm) : Step String :=
  if arm.binary.isSome then stopScx o.detach
  else do
    mayRaise o.detach.raises
    let lab ← get
    pure (schedExtState o.detach.readable lab.attached)

/-- A scheduler that did not detach is a failure of its arm. -/
def noteState (arm : Arm) (state : String) (lab : Lab) : Lab :=
  if state ≠ "disabled" then
    { lab with
      detach := state
      failures := lab.failures ++ [arm.name ++ ": sched_ext still " ++ state]
      record := { lab.record with
        status := some "failed"
        error := some ("scheduler did not detach: " ++ state) } }
  else { lab with detach := state }

/-- The `finally` block of an arm. -/
def detach (o : Outcome) (arm : Arm) : Step Unit := do
  let state ← detachState o arm
  modify (noteState arm state)

/-- The arm ends with an error. -/
def fail (failure error : String) : Step Unit :=
  modify fun lab =>
    let record := { lab.record with status := some "failed", error := some error }
    { lab with
      failures := lab.failures ++ [failure]
      record := record
      records := lab.records ++ [record] }

/-- The rows are kept, and the arm is recorded. -/
def keep (rows : List Row) : Step Unit :=
  modify fun lab =>
    let record := { lab.record with status := some "ok", rows := some rows.length }
    { lab with
      rows := lab.rows ++ rows
      record := record
      records := lab.records ++ [record] }

/-- What follows the matrix. -/
def conclude (arm : Arm) : Except String (List Row) → Step Unit
  | .ok rows => keep rows
  | .error message => fail (arm.name ++ ": " ++ message) message

/-- The matrix of an arm. -/
def measure (o : Outcome) (arm : Arm) : Step Unit := do
  let result ← tryFinally (runMatrix o arm) (detach o arm)
  modify fun lab => { lab with record := { lab.record with detach := some lab.detach } }
  conclude arm result

/-- What follows the start of a scheduler. -/
def started (o : Outcome) (arm : Arm) : Except String Info → Step Unit
  | .error message => fail (arm.name ++ ": " ++ message) message
  | .ok info => do
    modify fun lab => { lab with record := { lab.record with info := some info } }
    measure o arm

/-- One pass of the arm loop. -/
def runArm (o : Outcome) (arm : Arm) : Step Unit := do
  modify fun lab => { lab with record := ⟨arm, none, none, none, none, none⟩ }
  match arm.binary with
  | none => measure o arm
  | some binary => do
    mayRaise o.raises
    if !o.staged then
      fail (arm.name ++ ": " ++ binary ++ " is not staged") (binary ++ " is not staged in the pod")
    else startScx o arm >>= started o arm

/-- The arm loop. -/
def runArms (outcome : ℕ → Outcome) (arms : List Arm) : Step Unit :=
  forEach (fun p : Arm × ℕ => runArm (outcome p.2) p.1) arms.zipIdx

/-- A run begins with some scheduler attached, or none. -/
def begin (attached : Option Scheduler) : Lab :=
  ⟨attached, [], [], [], ⟨cfs, none, none, none, none, none⟩, ""⟩

/-! ### Rows and records that can be trusted -/

/-- The rows were measured under the schedulers of their arms, and what is recorded as `ok` has rows
and was seen to be detached. -/
structure Good (rows : List Row) (records : List Record) : Prop where
  rows : ∀ row ∈ rows, ∀ attached ∈ row.attached, attached = row.arm.scheduler
  records : ∀ record ∈ records, record.status = some "ok" →
    record.rows.isSome = true ∧ record.detach = some "disabled"

/-- The rows and the records so far can be trusted. -/
def Faithful (lab : Lab) : Prop := Good lab.rows lab.records

/-- An arm gets its matrix, and its end is reached. -/
structure Measured (o : Outcome) (arm : Arm) (attached : Option Scheduler) : Prop where
  start : arm.binary.isSome = true → o.raises = none ∧ o.staged = true ∧ o.readable = true ∧
    (attached.isSome = true ∨ o.attaches = true)
  stop : o.detach.raises = none

/-- The state file reads `disabled` behind the matrix. -/
structure Detached (o : Outcome) (arm : Arm) (attached : Option Scheduler) : Prop where
  readable : o.detach.readable = true
  gone : arm.binary.isSome = true ∧ o.detach.gone = true ∨ o.stays = false ∨
    arm.binary = none ∧ attached = none

/-- When the matrix of an arm succeeds, no other scheduler is attached before the arm, its own stays
attached through the matrix, and it is seen to be detached. -/
def Clean (o : Outcome) (arm : Arm) (attached : Option Scheduler) : Prop :=
  Measured o arm attached → ∀ rows, o.matrix = .rows rows →
    (rows ≠ [] → (attached = none ∨ attached = arm.scheduler) ∧
      (arm.binary.isSome = true → o.stays = true)) ∧
    Detached o arm attached

section Arm

variable {o : Outcome} {arm : Arm} {lab : Lab} {rows rows' : List Row}
  {records records' : List Record}

theorem good_append : Good (rows ++ rows') (records ++ records') ↔
    Good rows records ∧ Good rows' records' := by
  constructor
  · intro h
    exact ⟨⟨fun r hr => h.rows r (List.mem_append_left _ hr),
        fun r hr => h.records r (List.mem_append_left _ hr)⟩,
      ⟨fun r hr => h.rows r (List.mem_append_right _ hr),
        fun r hr => h.records r (List.mem_append_right _ hr)⟩⟩
  · rintro ⟨h, h'⟩
    constructor
    · intro r hr
      rcases List.mem_append.1 hr with hr | hr
      · exact h.rows r hr
      · exact h'.rows r hr
    · intro r hr
      rcases List.mem_append.1 hr with hr | hr
      · exact h.records r hr
      · exact h'.records r hr

theorem schedExtState_eq_disabled {readable : Bool} {attached : Option Scheduler} :
    schedExtState readable attached = "disabled" ↔ readable = true ∧ attached = none := by
  cases readable <;> cases attached <;> simp [schedExtState]

theorem schedExtState_eq_enabled {readable : Bool} {attached : Option Scheduler} :
    schedExtState readable attached = "enabled" ↔ readable = true ∧ attached.isSome = true := by
  cases readable <;> cases attached <;> simp [schedExtState]

/-- What is attached at the end of the matrix. -/
def through (o : Outcome) (attached : Option Scheduler) : Option Scheduler :=
  if o.stays then attached else none

/-- What is attached behind the stop. -/
def behind (o : Outcome) (arm : Arm) (attached : Option Scheduler) : Option Scheduler :=
  if arm.binary.isSome && o.detach.gone then none else attached

/-- The rows of a matrix. -/
def labelled (o : Outcome) (arm : Arm) (attached : Option Scheduler) (rows : List Items) :
    List Row :=
  rows.map fun items => ⟨items, arm, [attached, through o attached]⟩

/-- The result of a matrix. -/
def matrixResult (o : Outcome) (arm : Arm) (attached : Option Scheduler) :
    Except Exc (Except String (List Row)) :=
  match o.matrix with
  | .rows rows => .ok (.ok (labelled o arm attached rows))
  | .error message => .ok (.error message)
  | .raises e => .error e

theorem runMatrix_eq : runMatrix o arm lab =
    (matrixResult o arm lab.attached, { lab with attached := through o lab.attached }) := by
  unfold runMatrix matrixResult
  cases o.matrix <;> rfl

theorem detach_of_raises {e : Exc} (h : o.detach.raises = some e) :
    detach o arm lab = (.error e, lab) := by
  unfold detach detachState stopScx
  rw [h]
  split_ifs <;> rfl

theorem detach_of_none (h : o.detach.raises = none) :
    detach o arm lab =
      (.ok (), noteState arm (schedExtState o.detach.readable (behind o arm lab.attached))
        { lab with attached := behind o arm lab.attached }) := by
  unfold detach detachState stopScx behind
  rw [h]
  cases arm.binary with
  | none => rfl
  | some binary => cases o.detach.gone <;> rfl

@[simp] theorem noteState_rows (state : String) : (noteState arm state lab).rows = lab.rows := by
  unfold noteState
  split_ifs <;> rfl

@[simp] theorem noteState_records (state : String) :
    (noteState arm state lab).records = lab.records := by
  unfold noteState
  split_ifs <;> rfl

@[simp] theorem noteState_detach (state : String) : (noteState arm state lab).detach = state := by
  unfold noteState
  split_ifs <;> rfl

/-- A part of the run adds rows and records, which are good under a condition. -/
def AddsWhen (x : Step Unit) (lab : Lab) (condition : Prop) : Prop :=
  ∃ rows records, (x lab).2.rows = lab.rows ++ rows ∧ (x lab).2.records = lab.records ++ records ∧
    (Good rows records ↔ condition)

theorem good_nil : Good [] [] := ⟨by simp, by simp⟩

theorem addsWhen_of_same {x : Step Unit} {condition : Prop} (hrows : (x lab).2.rows = lab.rows)
    (hrecords : (x lab).2.records = lab.records) (h : condition) : AddsWhen x lab condition :=
  ⟨[], [], by simpa using hrows, by simpa using hrecords, iff_of_true good_nil h⟩

/-- What must hold when the matrix of an arm succeeds. -/
def Trusted (o : Outcome) (arm : Arm) (attached : Option Scheduler) : Prop :=
  o.detach.raises = none → ∀ rows, o.matrix = .rows rows →
    (rows ≠ [] → attached = arm.scheduler ∧ through o attached = arm.scheduler) ∧
    schedExtState o.detach.readable (behind o arm (through o attached)) = "disabled"

/-- The state behind the matrix and the stop. -/
def closed (o : Outcome) (arm : Arm) (lab : Lab) : Lab :=
  noteState arm (schedExtState o.detach.readable (behind o arm (through o lab.attached)))
    { lab with attached := behind o arm (through o lab.attached) }

theorem tryFinally_eq (h : o.detach.raises = none) :
    Effect.tryFinally (runMatrix o arm) (detach o arm) lab =
      (matrixResult o arm lab.attached, closed o arm lab) :=
  tryFinally_of_ok runMatrix_eq (detach_of_none h)

theorem measure_of_ok {result : Except String (List Row)} (h : o.detach.raises = none)
    (hresult : matrixResult o arm lab.attached = .ok result) :
    measure o arm lab = conclude arm result { closed o arm lab with
      record := { (closed o arm lab).record with detach := some (closed o arm lab).detach } } := by
  have hfinally : Effect.tryFinally (runMatrix o arm) (detach o arm) lab =
      (.ok result, closed o arm lab) := by rw [tryFinally_eq h, hresult]
  exact bind_of_ok hfinally

/-- Only a matrix that succeeds adds rows, and it is recorded as `ok` however the stop ends. -/
theorem measure_addsWhen : AddsWhen (measure o arm) lab (Trusted o arm lab.attached) := by
  have hrows : (closed o arm lab).rows = lab.rows := noteState_rows _
  have hrecords : (closed o arm lab).records = lab.records := noteState_records _
  cases hraises : o.detach.raises with
  -- a detach that raises replaces whatever the matrix did
  | some e =>
    have hmeasure : measure o arm lab = (.error e, { lab with attached := through o lab.attached }) :=
      bind_of_error (tryFinally_of_error runMatrix_eq (detach_of_raises hraises))
    refine addsWhen_of_same (by rw [hmeasure]) (by rw [hmeasure]) fun h => ?_
    rw [hraises] at h
    cases h
  | none =>
    cases hmatrix : o.matrix with
    | raises e =>
      have hmeasure : measure o arm lab = (.error e, closed o arm lab) := by
        refine bind_of_error ?_
        rw [tryFinally_eq hraises, matrixResult, hmatrix]
      refine addsWhen_of_same (by rw [hmeasure, hrows]) (by rw [hmeasure, hrecords]) ?_
      intro _ rows h
      cases h.symm.trans hmatrix
    | error message =>
      have hmeasure : measure o arm lab = conclude arm (.error message) _ :=
        measure_of_ok hraises (by rw [matrixResult, hmatrix])
      refine ⟨[], [_], by rw [hmeasure, List.append_nil]; exact hrows,
        by rw [hmeasure, ← hrecords]; rfl, iff_of_true ⟨by simp, ?_⟩ ?_⟩
      · intro record hrecord hstatus
        rw [List.mem_singleton.1 hrecord] at hstatus
        exact absurd (Option.some.inj hstatus) (by decide)
      · intro _ rows h
        cases h.symm.trans hmatrix
    | rows rows =>
      have hmeasure : measure o arm lab = conclude arm (.ok (labelled o arm lab.attached rows)) _ :=
        measure_of_ok hraises (by rw [matrixResult, hmatrix])
      refine ⟨labelled o arm lab.attached rows, [_], by rw [hmeasure, ← hrows]; rfl,
        by rw [hmeasure, ← hrecords]; rfl, ?_⟩
      constructor
      -- one row is enough to read the attachment states off, as all rows carry the same two
      · rintro ⟨hgood, hstatus⟩ _ rows' heq
        obtain rfl : rows' = rows := by cases heq.symm.trans hmatrix; rfl
        refine ⟨fun hne => ?_, ?_⟩
        · obtain ⟨items, hitems⟩ := List.exists_mem_of_ne_nil rows' hne
          have hrow := hgood _ (List.mem_map_of_mem hitems)
          exact ⟨hrow _ (by simp), hrow _ (by simp)⟩
        · obtain ⟨-, hdetach⟩ := hstatus _ (List.mem_singleton_self _) rfl
          rw [← Option.some.inj hdetach]
          exact (noteState_detach _).symm
      · intro h
        obtain ⟨hattached, hstate⟩ := h hraises rows hmatrix
        refine ⟨?_, ?_⟩
        · intro row hrow attached hmem
          obtain ⟨items, hitems, rfl⟩ := List.mem_map.1 hrow
          obtain ⟨hbefore, hafter⟩ := hattached (List.ne_nil_of_mem hitems)
          rcases List.mem_pair.1 hmem with rfl | rfl
          · exact hbefore
          · exact hafter
        · intro record hrecord _
          rw [List.mem_singleton.1 hrecord]
          refine ⟨rfl, ?_⟩
          rw [← hstate]
          exact congrArg some (noteState_detach _)

/-- The scheduler that is attached while an arm is measured. -/
def held (arm : Arm) (attached : Option Scheduler) : Option Scheduler := attached.or arm.scheduler

theorem held_iff {attached : Option Scheduler} :
    held arm attached = arm.scheduler ∧ through o (held arm attached) = arm.scheduler ↔
      (attached = none ∨ attached = arm.scheduler) ∧ (arm.binary.isSome = true → o.stays = true) := by
  have hscheduler : arm.scheduler.isSome = arm.binary.isSome := by simp [Arm.scheduler]
  cases attached with
  | none =>
    cases hstays : o.stays <;> cases hbinary : arm.binary <;>
      simp [held, through, hstays, hbinary, Arm.scheduler]
  | some scheduler =>
    cases hstays : o.stays <;> cases hbinary : arm.binary <;>
      simp [held, through, hstays, hbinary, Arm.scheduler]

theorem detached_iff {attached : Option Scheduler} :
    schedExtState o.detach.readable (behind o arm (through o (held arm attached))) = "disabled" ↔
      Detached o arm attached := by
  have hnone : behind o arm (through o (held arm attached)) = none ↔
      arm.binary.isSome = true ∧ o.detach.gone = true ∨ o.stays = false ∨
        arm.binary = none ∧ attached = none := by
    cases hbinary : arm.binary <;> cases hgone : o.detach.gone <;> cases hstays : o.stays <;>
      cases attached <;> simp [behind, through, held, hbinary, hgone, hstays, Arm.scheduler]
  rw [schedExtState_eq_disabled, hnone]
  exact ⟨fun h => ⟨h.1, h.2⟩, fun h => ⟨h.readable, h.gone⟩⟩

/-- An arm that gets to its matrix. -/
theorem trusted_iff {attached : Option Scheduler}
    (hstart : arm.binary.isSome = true → o.raises = none ∧ o.staged = true ∧ o.readable = true ∧
      (attached.isSome = true ∨ o.attaches = true)) :
    Trusted o arm (held arm attached) ↔ Clean o arm attached := by
  unfold Trusted Clean
  simp only [held_iff, detached_iff]
  exact ⟨fun h hmeasured => h hmeasured.stop, fun h hstop => h ⟨hstart, hstop⟩⟩

theorem AddsWhen.of_eq {x y : Step Unit} {lab' : Lab} {condition : Prop}
    (h : AddsWhen y lab' condition) (heq : x lab = y lab') (hrows : lab'.rows = lab.rows)
    (hrecords : lab'.records = lab.records) : AddsWhen x lab condition := by
  obtain ⟨rows, records, h₁, h₂, hgood⟩ := h
  exact ⟨rows, records, by rw [heq, h₁, hrows], by rw [heq, h₂, hrecords], hgood⟩

/-- An arm that fails is not recorded as `ok`. -/
theorem fail_addsWhen {failure error : String} {condition : Prop} (h : condition) :
    AddsWhen (fail failure error) lab condition := by
  refine ⟨[], [_], (List.append_nil _).symm, rfl, iff_of_true ⟨by simp, ?_⟩ h⟩
  intro record hrecord hstatus
  rw [List.mem_singleton.1 hrecord] at hstatus
  exact absurd (Option.some.inj hstatus) (by decide)

/-- A scheduler that is started: its arm is measured when the state file reads `enabled`. -/
theorem started_addsWhen (hbinary : arm.binary.isSome = true) (hraises : o.raises = none)
    (hstaged : o.staged = true) :
    AddsWhen (startScx o arm >>= started o arm) lab (Clean o arm lab.attached) := by
  -- the scheduler attaches, unless another one is attached
  obtain ⟨attached, hattached⟩ :
      ∃ attached, attached = lab.attached.or (if o.attaches then arm.scheduler else none) := ⟨_, rfl⟩
  have hscheduler : arm.scheduler.isSome = true := by simpa [Arm.scheduler] using hbinary
  have hstart : startScx o arm lab = checkStarted o (schedExtState o.readable attached)
      { lab with attached := attached } := by rw [hattached]; rfl
  by_cases hstate : schedExtState o.readable attached = "enabled"
  · obtain ⟨hreadable, hsome⟩ := schedExtState_eq_enabled.1 hstate
    have hmeasured : lab.attached.isSome = true ∨ o.attaches = true := by
      cases hfree : lab.attached <;> cases hattaches : o.attaches <;>
        simp_all
    have hheld : attached = held arm lab.attached := by
      rw [hattached, held]
      cases hfree : lab.attached with
      | some scheduler => rfl
      | none => simp_all
    rw [← trusted_iff fun _ => ⟨hraises, hstaged, hreadable, hmeasured⟩, ← hheld]
    have hok : startScx o arm lab =
        (.ok (.ok ⟨o.pid, o.enableSeq, "enabled"⟩), { lab with attached := attached }) := by
      rw [hstart, checkStarted, hstate]
      rfl
    have hrun : (startScx o arm >>= started o arm) lab = measure o arm
        { lab with
          attached := attached
          record := { lab.record with info := some ⟨o.pid, o.enableSeq, "enabled"⟩ } } := by
      rw [bind_of_ok hok]
      rfl
    exact AddsWhen.of_eq measure_addsWhen hrun rfl rfl
  · have hclean : Clean o arm lab.attached := by
      intro hmeasured
      obtain ⟨-, -, hreadable, hfree⟩ := hmeasured.start hbinary
      refine absurd (schedExtState_eq_enabled.2 ⟨hreadable, ?_⟩) hstate
      rw [hattached]
      rcases hfree with hsome | hattaches
      · simp [hsome]
      · simp [hattaches, hscheduler]
    cases habandon : o.abandon.raises with
    | some e =>
      have hrun : (startScx o arm >>= started o arm) lab =
          (.error e, { lab with attached := attached }) := by
        refine bind_of_error ?_
        rw [hstart, checkStarted, if_pos hstate]
        refine bind_of_error ?_
        unfold stopScx
        rw [habandon]
        rfl
      exact addsWhen_of_same (by rw [hrun]) (by rw [hrun]) hclean
    | none =>
      have hstop : stopScx o.abandon { lab with attached := attached } =
          (.ok (schedExtState o.abandon.readable (if o.abandon.gone then none else attached)),
            { lab with attached := if o.abandon.gone then none else attached }) := by
        unfold stopScx
        rw [habandon]
        rfl
      obtain ⟨message, hmessage⟩ : ∃ message : String, startScx o arm lab =
          (.ok (.error message), { lab with attached := if o.abandon.gone then none else attached }) := by
        refine ⟨"state=" ++ schedExtState o.readable attached ++ " pid=" ++ o.pid ++ " log=" ++
          o.log, ?_⟩
        rw [hstart, checkStarted, if_pos hstate, bind_of_ok hstop]
        rfl
      exact AddsWhen.of_eq (fail_addsWhen hclean) (bind_of_ok hmessage) rfl rfl

/-- What an arm adds is good exactly when the arm is clean. -/
theorem runArm_addsWhen : AddsWhen (runArm o arm) lab (Clean o arm lab.attached) := by
  have hbegin : runArm o arm lab = (match arm.binary with
      | none => measure o arm
      | some binary => mayRaise o.raises >>= fun _ =>
        if !o.staged then
          fail (arm.name ++ ": " ++ binary ++ " is not staged")
            (binary ++ " is not staged in the pod")
        else startScx o arm >>= started o arm)
      { lab with record := ⟨arm, none, none, none, none, none⟩ } := rfl
  -- the arm of the kernel scheduler starts nothing
  cases hbinary : arm.binary with
  | none =>
    rw [hbinary] at hbegin
    refine AddsWhen.of_eq ?_ hbegin rfl rfl
    have hheld : held arm lab.attached = lab.attached := by simp [held, Arm.scheduler, hbinary]
    have hclean : Trusted o arm (held arm lab.attached) ↔ Clean o arm lab.attached :=
      trusted_iff (by simp [hbinary])
    rw [← hclean, hheld]
    exact measure_addsWhen
  | some binary =>
    rw [hbinary] at hbegin
    have hsome : arm.binary.isSome = true := by simp [hbinary]
    cases hraises : o.raises with
    | some e =>
      rw [hraises] at hbegin
      refine addsWhen_of_same (by rw [hbegin]; rfl) (by rw [hbegin]; rfl) fun hmeasured => ?_
      have := (hmeasured.start hsome).1
      rw [hraises] at this
      cases this
    | none =>
      rw [hraises] at hbegin
      cases hstaged : o.staged with
      | false =>
        rw [hstaged] at hbegin
        refine AddsWhen.of_eq (fail_addsWhen fun hmeasured => ?_) hbegin rfl rfl
        have := (hmeasured.start hsome).2.1
        rw [hstaged] at this
        cases this
      | true =>
        rw [hstaged] at hbegin
        refine AddsWhen.of_eq ?_ hbegin rfl rfl
        exact started_addsWhen hsome hraises hstaged

theorem faithful_of_addsWhen {x : Step Unit} {condition : Prop} (h : AddsWhen x lab condition) :
    Faithful (x lab).2 ↔ Faithful lab ∧ condition := by
  obtain ⟨rows, records, hrows, hrecords, hgood⟩ := h
  rw [Faithful, hrows, hrecords, good_append, hgood, Faithful]

end Arm

/-! ### Runs -/

section Run

variable {outcome : ℕ → Outcome}

/-- Every arm that a run gets to is clean, from the state in which the run gets to it. -/
def AllClean (outcome : ℕ → Outcome) (arms : List Arm) (k : ℕ) (lab : Lab) : Prop :=
  ∀ before arm rest, arms = before ++ arm :: rest → ∀ lab',
    forEach (fun p : Arm × ℕ => runArm (outcome p.2) p.1) (before.zipIdx k) lab = (.ok (), lab') →
      Clean (outcome (k + before.length)) arm lab'.attached

theorem allClean_cons {arm : Arm} {arms : List Arm} {k : ℕ} {lab : Lab} :
    AllClean outcome (arm :: arms) k lab ↔ Clean (outcome k) arm lab.attached ∧
      ∀ lab', runArm (outcome k) arm lab = (.ok (), lab') → AllClean outcome arms (k + 1) lab' := by
  constructor
  · intro h
    refine ⟨h [] arm arms rfl lab rfl, fun lab' hrun before arm' rest heq lab'' hrest => ?_⟩
    have hclean := h (arm :: before) arm' rest (by rw [heq, List.cons_append]) lab''
      ((bind_of_ok hrun).trans hrest)
    rwa [List.length_cons, ← Nat.add_assoc, Nat.add_right_comm] at hclean
  · rintro ⟨hfirst, hlater⟩ before arm' rest heq lab' hrun
    cases before with
    | nil =>
      obtain ⟨rfl, rfl⟩ := List.cons.inj heq
      cases hrun
      exact hfirst
    | cons a before =>
      obtain ⟨rfl, htail⟩ := List.cons.inj heq
      obtain ⟨_, lab₁, harm, hrest⟩ := Effect.bind_eq_ok.1 hrun
      have hclean := hlater lab₁ harm before arm' rest htail lab' hrest
      rwa [List.length_cons, ← Nat.add_assoc, Nat.add_right_comm]

theorem faithful_forEach_iff {arms : List Arm} {k : ℕ} {lab : Lab} :
    Faithful (forEach (fun p : Arm × ℕ => runArm (outcome p.2) p.1) (arms.zipIdx k) lab).2 ↔
      Faithful lab ∧ AllClean outcome arms k lab := by
  induction arms generalizing k lab with
  | nil =>
    refine ⟨fun h => ⟨h, fun before arm rest heq => ?_⟩, And.left⟩
    exact absurd heq.symm (by simp)
  | cons arm arms ih =>
    have hstep : Faithful (runArm (outcome k) arm lab).2 ↔
        Faithful lab ∧ Clean (outcome k) arm lab.attached := faithful_of_addsWhen runArm_addsWhen
    obtain ⟨r, lab₁, hrun⟩ : ∃ r lab₁, runArm (outcome k) arm lab = (r, lab₁) := ⟨_, _, rfl⟩
    rw [hrun] at hstep
    rw [allClean_cons, ← and_assoc, ← hstep, hrun]
    cases r with
    | error e =>
      rw [show forEach _ ((arm :: arms).zipIdx k) lab = (.error e, lab₁) from bind_of_error hrun]
      exact ⟨fun h => ⟨h, fun lab' heq => by cases heq⟩, And.left⟩
    | ok _ =>
      rw [show forEach _ ((arm :: arms).zipIdx k) lab = _ from bind_of_ok hrun, ih]
      exact and_congr_right fun _ => ⟨fun h lab' heq => by cases heq; exact h, fun h => h _ rfl⟩

end Run

/-- **When the rows and records of a run can be trusted.**  Whatever is attached when the run begins,
and whatever happens in its arms: the rows were measured under the schedulers of their arms and only
arms that were seen to be detached are recorded as `ok`, if and only if every arm that the run gets to
is clean. -/
theorem faithful_iff (outcome : ℕ → Outcome) (arms : List Arm) (attached : Option Scheduler) :
    Faithful (runArms outcome arms (begin attached)).2 ↔
      ∀ before arm rest, arms = before ++ arm :: rest → ∀ lab,
        runArms outcome before (begin attached) = (.ok (), lab) →
          Clean (outcome before.length) arm lab.attached := by
  have hempty : Faithful (begin attached) := good_nil
  refine faithful_forEach_iff.trans ?_
  simp only [hempty, true_and, AllClean, Nat.zero_add]
  rfl

/-! ### A scheduler that does not detach -/

/-- A matrix with one row. -/
def oneRow : Matrix := .rows [[(.str "group", .str "load")]]

/-- An arm in which everything goes as it is meant to. -/
def smooth : Outcome where
  staged := true
  raises := none
  pid := "7"
  enableSeq := "1"
  log := ""
  attaches := true
  readable := true
  abandon := ⟨true, true, "0", none⟩
  stays := true
  matrix := oneRow
  detach := ⟨true, true, "0", none⟩

/-- The scheduler of the second arm is still attached at the end of the wait. -/
def stuck : ℕ → Outcome
  | 1 => { smooth with detach := ⟨false, true, "0", none⟩ }
  | _ => smooth

/-- The scheduler that is stuck is recorded as `ok`, and the rows of the next arm were measured under
it. -/
theorem not_faithful_stuck :
    ¬ ∀ outcome keys, Faithful (runArms outcome (arms keys false false) (begin none)).2 := by
  intro h
  have hstuck : ∃ record ∈ (runArms stuck (arms ["lavd", "bpfland"] false false) (begin none)).2.records,
      record.status = some "ok" ∧ record.detach = some "enabled" := by decide +kernel
  obtain ⟨record, hrecord, hstatus, hdetach⟩ := hstuck
  obtain ⟨-, hdisabled⟩ := (h stuck ["lavd", "bpfland"]).records record hrecord hstatus
  exact absurd (Option.some.inj (hdetach.symm.trans hdisabled)) (by decide)

example : ((runArms stuck (arms ["lavd", "bpfland"] false false) (begin none)).2.rows.map
    fun row => (row.arm.name, row.attached.map (Option.map Scheduler.binary))) =
      [("cfs", [none, none]),
        ("scx_lavd-performance", [some "/var/tmp/scx_lavd", some "/var/tmp/scx_lavd"]),
        ("scx_bpfland", [some "/var/tmp/scx_lavd", some "/var/tmp/scx_lavd"])] := by
  decide +kernel

end CpuLimits.KernelComparison
