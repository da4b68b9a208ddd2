import K8Labs.Python.Effect
import K8Labs.Python.Text

/-!
# The steal governor and schedstats

`run_matrix.py` loads or unloads the `steal_governor` module for its arm, turns `sched_schedstats`
on for the steal scenario, runs the scenarios and puts both settings back in a `finally`.  A step of
the run may fail, or a signal arrives before or after it; a signal without a handler ends the
process where it stands, with no `finally`.

The steps that compile the workloads, make the parent group and run a scenario write neither
setting; each is a place where the run may be left.

* `main_keeps_iff` : the exact runs at whose end both settings are what they were.
-/

namespace SchedCoreDelta

open Py Py.Effect

/-! ### The machine -/

/-- The parameters of the module. -/
structure Params where
  intervalMs : ℤ
  highThreshold : ℤ
  lowThreshold : ℤ
  deriving DecidableEq

/-- The two settings: the governor when it is loaded, and schedstats when the kernel has it. -/
@[ext] structure Machine where
  governor : Option Params
  schedstats : Option Bool
  deriving DecidableEq

/-- What ends a step: an exception, or the end of the process. -/
inductive Stop
  | runtimeError
  | otherException
  | killed
  deriving DecidableEq

/-- The steps of a run.  Commands are run once to apply the arm and once to restore. -/
inductive Step
  | compileWorkloads
  | rmmod (restoring : Bool)
  | modprobe (restoring : Bool)
  | beforeTry
  | setSchedstats (restoring : Bool)
  | ensureParent
  | runScenario (rep : ℕ) (scenario : String)
  | restore
  | cleanCgroup
  | output

/-- What happens before a step has acted, and after it has. -/
structure Events where
  before : Step → Option Stop
  after : Step → Option Stop

/-- `--arm`. -/
inductive Arm
  | stock
  | custom
  | customNogov
  | customGov
  deriving DecidableEq

/-- The name of an arm. -/
def Arm.name : Arm → String
  | .stock => "stock"
  | .custom => "custom"
  | .customNogov => "custom-nogov"
  | .customGov => "custom-gov"

/-- The arguments, with the shuffled order of each repetition. -/
structure Args where
  arm : Arm
  reps : ℕ
  scenarios : List String
  order : ℕ → List String
  governor : Params

/-- A run: its arguments, what happens in it, and the parameters that the module ends up with when
it is loaded with some. -/
structure Call where
  args : Args
  events : Events
  settle : Params → Params

/-- `raise SystemExit`: the checks of the arguments. -/
def Args.refused (args : Args) : Bool :=
  args.reps < 1 ||
  !(100 ≤ args.governor.intervalMs && args.governor.intervalMs ≤ 100000) ||
  !(0 ≤ args.governor.lowThreshold && args.governor.lowThreshold < args.governor.highThreshold &&
    args.governor.highThreshold < 10000) ||
  (args.scenarios.contains "steal" && !startsWith args.arm.name "custom-")

/-- `steer_schedstats`. -/
def Args.steer (args : Args) : Bool :=
  args.scenarios.contains "steal" && startsWith args.arm.name "custom"

/-! ### The program -/

/-- What the program reads of the governor. -/
structure GovernorState where
  loaded : Bool
  params : List (String × ℤ)
  deriving DecidableEq

/-- The parameters by name, as they are read. -/
def Params.items (p : Params) : List (String × ℤ) :=
  [("interval_ms", p.intervalMs), ("high_threshold", p.highThreshold),
    ("low_threshold", p.lowThreshold)]

/-- The state, with parameters that can be read. -/
def Machine.governorState (m : Machine) : GovernorState :=
  match m.governor with
  | none => ⟨false, []⟩
  | some p => ⟨true, p.items⟩

/-- The text of `sched_schedstats`, `0` where there is no file. -/
def Machine.schedstatsText (m : Machine) : String :=
  match m.schedstats with
  | none => "0"
  | some enabled => if enabled then "1" else "0"

/-- `rmmod`. -/
def Machine.unloaded (m : Machine) : Machine := { m with governor := none }

/-- `modprobe`, with the parameters that the module takes. -/
def Machine.load (p : Params) (m : Machine) : Machine := { m with governor := some p }

/-- A write of schedstats, without effect where there is no file. -/
def Machine.setSchedstats (enabled : Bool) (m : Machine) : Machine :=
  { m with schedstats := m.schedstats.map fun _ => enabled }

section Program

variable (call : Call)

/-- A step that changes a setting. -/
def perform (step : Step) (change : Machine → Machine) : Effect Machine Stop Unit :=
  happens (call.events.before step) >>= fun _ =>
  modify change >>= fun _ =>
  happens (call.events.after step)

/-- `read_governor_state`. -/
def readGovernorState : Effect Machine Stop GovernorState := fun m => (.ok m.governorState, m)

/-- `unload_governor`. -/
def unloadGovernor (restoring : Bool) : Effect Machine Stop Unit :=
  readGovernorState >>= fun state =>
  onlyIf state.loaded (perform call (.rmmod restoring) Machine.unloaded)

/-- The wait for the module ends at its first look, as `modprobe` returns when it is loaded. -/
def loadGovernor (restoring : Bool) (p : Params) : Effect Machine Stop Unit :=
  unloadGovernor call restoring >>= fun _ =>
  perform call (.modprobe restoring) (Machine.load (call.settle p))

/-- `apply_governor`. -/
def applyGovernor : Effect Machine Stop GovernorState :=
  readGovernorState >>= fun original =>
  match call.args.arm with
  | .stock => onlyIf original.loaded (throw .runtimeError) >>= fun _ => pure original
  | .custom => onlyIf original.loaded (throw .runtimeError) >>= fun _ => pure original
  | .customNogov =>
    unloadGovernor call false >>= fun _ =>
    readGovernorState >>= fun state =>
    onlyIf state.loaded (throw .runtimeError) >>= fun _ => pure original
  | .customGov =>
    loadGovernor call false call.args.governor >>= fun _ =>
    readGovernorState >>= fun state =>
    onlyIf (state.params ≠ call.args.governor.items) (throw .runtimeError) >>= fun _ =>
    pure original

/-- `original.params.get(…)` with the defaults of the module. -/
def GovernorState.toParams (state : GovernorState) : Params where
  intervalMs := (state.params.lookup "interval_ms").getD 1000
  highThreshold := (state.params.lookup "high_threshold").getD 500
  lowThreshold := (state.params.lookup "low_threshold").getD 200

/-- `restore_governor`. -/
def restoreGovernor (original : GovernorState) : Effect Machine Stop Unit :=
  readGovernorState >>= fun current =>
  if original.loaded then
    onlyIf (!(current.loaded && current.params = original.params))
      (loadGovernor call true original.toParams)
  else onlyIf current.loaded (unloadGovernor call true)

/-- The write fails where the kernel has no schedstats. -/
def setSchedstats (restoring enabled : Bool) : Effect Machine Stop Unit :=
  (fun m => if m.schedstats.isSome then (.ok (), m) else (.error .runtimeError, m)) >>= fun _ =>
  perform call (.setSchedstats restoring) (Machine.setSchedstats enabled)

/-- `except RuntimeError`, logged. -/
def logged (x : Effect Machine Stop Unit) : Effect Machine Stop Unit :=
  Effect.tryCatch x fun e => if e = .runtimeError then pure () else throw e

/-- `try … finally`, unless the process ends. -/
def protect (x last : Effect Machine Stop Unit) : Effect Machine Stop Unit := fun m =>
  match x m with
  | (.error .killed, m') => (.error .killed, m')
  | _ => Effect.tryFinally x last m

/-- `restore`, inside `main`; the parent group that it removes in the end is a place of its own. -/
def restore (original : GovernorState) (originalSchedstats : String) : Effect Machine Stop Unit :=
  happens (call.events.before .restore) >>= fun _ =>
  protect (restoreGovernor call original)
    (onlyIf call.args.steer (logged (setSchedstats call true (originalSchedstats = "1"))) >>=
      fun _ => happens (call.events.before .cleanCgroup))

/-- What the `try` protects. -/
def runMatrix : Effect Machine Stop Unit :=
  onlyIf call.args.steer (setSchedstats call false true) >>= fun _ =>
  happens (call.events.before .ensureParent) >>= fun _ =>
  forEach (fun rep =>
    forEach (fun scenario => happens (call.events.before (.runScenario rep scenario)))
      (call.args.order rep))
    ((List.range call.args.reps).map (· + 1))

/-- What comes before the `try`, on a machine that passes the check of the environment. -/
def beforeTry : Effect Machine Stop (GovernorState × String) :=
  onlyIf call.args.refused (throw .otherException) >>= fun _ =>
  happens (call.events.before .compileWorkloads) >>= fun _ =>
  applyGovernor call >>= fun originalGovernor =>
  (fun m => (.ok m.schedstatsText, m)) >>= fun originalSchedstats =>
  happens (call.events.before .beforeTry) >>= fun _ =>
  pure (originalGovernor, originalSchedstats)

/-- `main`. -/
def main : Effect Machine Stop Unit :=
  beforeTry call >>= fun original =>
  protect (runMatrix call) (restore call original.1 original.2) >>= fun _ =>
  happens (call.events.before .output)

end Program

/-! ### Where a run may be left -/

section Places

variable (call : Call) (m : Machine)

/-- Before and behind `rmmod`, if it is run. -/
def rmmodPlaces (restoring : Bool) : List (Option Stop × Machine) :=
  if m.governor.isSome then
    [(call.events.before (.rmmod restoring), m),
      (call.events.after (.rmmod restoring), m.unloaded)]
  else []

/-- Before and behind the two commands of `load_governor`. -/
def loadPlaces (restoring : Bool) (p : Params) : List (Option Stop × Machine) :=
  rmmodPlaces call m restoring ++
    [(call.events.before (.modprobe restoring), m.unloaded),
      (call.events.after (.modprobe restoring), m.load (call.settle p))]

/-- The arm that is not the original state of the governor is refused, or the parameters that the
module did not take. -/
def applyPlaces : List (Option Stop × Machine) :=
  match call.args.arm with
  | .stock => [(if m.governor.isSome then some .runtimeError else none, m)]
  | .custom => [(if m.governor.isSome then some .runtimeError else none, m)]
  | .customNogov => rmmodPlaces call m false
  | .customGov =>
    loadPlaces call m false call.args.governor ++
      [(if call.settle call.args.governor = call.args.governor then none else some .runtimeError,
        m.load (call.settle call.args.governor))]

/-- The machine of the arm. -/
def applied : Machine :=
  match call.args.arm with
  | .stock => m
  | .custom => m
  | .customNogov => m.unloaded
  | .customGov => m.load (call.settle call.args.governor)

/-- From the arguments to the `try`. -/
def placesBeforeTry : List (Option Stop × Machine) :=
  [(if call.args.refused then some .otherException else none, m),
    (call.events.before .compileWorkloads, m)] ++
  applyPlaces call m ++ [(call.events.before .beforeTry, applied call m)]

/-- The machine in which the scenarios run. -/
def steered : Machine := if call.args.steer then m.setSchedstats true else m

/-- While schedstats are turned on. -/
def steerPlaces : List (Option Stop × Machine) :=
  if call.args.steer then
    [(if m.schedstats.isSome then none else some .runtimeError, m),
      (call.events.before (.setSchedstats false), m),
      (call.events.after (.setSchedstats false), m.setSchedstats true)]
  else []

/-- In the `try`: the places where it may end. -/
def runPlaces : List (Option Stop × Machine) :=
  steerPlaces call m ++ (call.events.before .ensureParent, steered call m) ::
    ((List.range call.args.reps).map (· + 1)).flatMap fun rep =>
      (call.args.order rep).flatMap fun scenario =>
        [(call.events.before (.runScenario rep scenario), steered call m)]

/-- The places while the governor is put back to what it was. -/
def restorePlaces (original : Option Params) : List (Option Stop × Machine) :=
  if m.governor = original then []
  else match original with
    | some p => loadPlaces call m true p
    | none => rmmodPlaces call m true

end Places

/-! ### The program goes by these places -/

section Follows

variable {call : Call} {m : Machine}

theorem perform_follows (step : Step) (change : Machine → Machine) :
    Follows (perform call step change) m
      [(call.events.before step, m), (call.events.after step, change m)] () (change m) :=
  follows_happens.bind (follows_modify.bind follows_happens)

theorem onlyIf_throw_follows (condition : Bool) (e : Stop) :
    Follows (onlyIf condition (throw e)) m [(if condition then some e else none, m)] () m := by
  cases condition <;> rfl

theorem unloadGovernor_follows (restoring : Bool) :
    Follows (unloadGovernor call restoring) m (rmmodPlaces call m restoring) () m.unloaded := by
  obtain ⟨governor, schedstats⟩ := m
  cases governor with
  | none => rfl
  | some p => exact perform_follows (.rmmod restoring) Machine.unloaded

theorem loadGovernor_follows (restoring : Bool) (p : Params) :
    Follows (loadGovernor call restoring p) m (loadPlaces call m restoring p) ()
      (m.load (call.settle p)) :=
  (unloadGovernor_follows restoring).bind (perform_follows _ _)

theorem Params.items_inj {p q : Params} : p.items = q.items ↔ p = q := by
  obtain ⟨a, b, c⟩ := p
  obtain ⟨a', b', c'⟩ := q
  simp [Params.items]

theorem governorState_loaded : m.governorState.loaded = m.governor.isSome := by
  unfold Machine.governorState
  cases m.governor <;> rfl

theorem readGovernorState_bind_follows {α : Type} {f : GovernorState → Effect Machine Stop α}
    {places : List (Option Stop × Machine)} {a : α} {m' : Machine}
    (h : Follows (f m.governorState) m places a m') :
    Follows (readGovernorState >>= f) m places a m' :=
  follows_lift.bind h

theorem applyGovernor_follows :
    Follows (applyGovernor call) m (applyPlaces call m) m.governorState (applied call m) := by
  unfold applyGovernor applyPlaces applied
  refine readGovernorState_bind_follows ?_
  rw [← governorState_loaded]
  cases call.args.arm with
  | stock => exact (onlyIf_throw_follows _ _).bind follows_pure
  | custom => exact (onlyIf_throw_follows _ _).bind follows_pure
  | customNogov =>
    -- the module is gone after `rmmod`
    have hcheck : Follows (onlyIf m.unloaded.governorState.loaded (throw .runtimeError) >>= fun _ =>
        (pure m.governorState : Effect Machine Stop GovernorState)) m.unloaded [] m.governorState
        m.unloaded := rfl
    rw [← List.append_nil (rmmodPlaces call m false)]
    exact (unloadGovernor_follows false).bind (readGovernorState_bind_follows hcheck)
  | customGov =>
    refine (loadGovernor_follows false _).bind (readGovernorState_bind_follows ?_)
    have hcheck : (if decide ((m.load (call.settle call.args.governor)).governorState.params ≠
        call.args.governor.items) then some Stop.runtimeError else none) =
        if call.settle call.args.governor = call.args.governor then none
        else some Stop.runtimeError := by
      show (if decide ((call.settle call.args.governor).items ≠ _) then _ else _) = _
      by_cases h : call.settle call.args.governor = call.args.governor
      · simp [h]
      · simp [h, Params.items_inj]
    rw [← hcheck]
    exact (onlyIf_throw_follows _ _).bind follows_pure

theorem setSchedstats_follows (restoring enabled : Bool) :
    Follows (setSchedstats call restoring enabled) m
      [(if m.schedstats.isSome then none else some .runtimeError, m),
        (call.events.before (.setSchedstats restoring), m),
        (call.events.after (.setSchedstats restoring), m.setSchedstats enabled)] ()
      (m.setSchedstats enabled) := by
  have hopen : Follows (fun m => if m.schedstats.isSome then (.ok (), m)
      else (.error Stop.runtimeError, m) : Effect Machine Stop Unit) m
      [(if m.schedstats.isSome then none else some .runtimeError, m)] () m := by
    obtain ⟨governor, schedstats⟩ := m
    cases schedstats <;> rfl
  exact hopen.bind (perform_follows _ _)

theorem runMatrix_follows :
    Follows (runMatrix call) m (runPlaces call m) () (steered call m) := by
  have hsteer : Follows (onlyIf call.args.steer (setSchedstats call false true)) m
      (steerPlaces call m) () (steered call m) := by
    unfold steerPlaces steered
    cases call.args.steer with
    | false => exact follows_pure
    | true => exact setSchedstats_follows false true
  refine hsteer.bind (follows_happens.bind ?_)
  exact follows_forEach fun rep => follows_forEach fun scenario => follows_happens

theorem toParams_governorState {p : Params} (h : m.governor = some p) :
    m.governorState.toParams = p := by
  unfold Machine.governorState
  rw [h]
  rfl

/-- The parameters of the original state are read back by the module. -/
theorem restoreGovernor_follows {original : Machine}
    (hsettle : ∀ p, original.governor = some p → call.settle p = p) :
    Follows (restoreGovernor call original.governorState) m (restorePlaces call m original.governor)
      () { m with governor := original.governor } := by
  unfold restoreGovernor restorePlaces
  refine readGovernorState_bind_follows ?_
  by_cases hsame : m.governor = original.governor
  · have hstate : m.governorState = original.governorState := by
      unfold Machine.governorState
      rw [hsame]
    rw [if_pos hsame, ← hsame, hstate]
    cases hloaded : original.governorState.loaded with
    | false => exact follows_pure
    | true =>
      have hcondition : (!(true && decide (original.governorState.params =
          original.governorState.params))) = false := by simp
      rw [if_pos rfl, hcondition]
      exact follows_pure
  · rw [if_neg hsame]
    cases horiginal : original.governor with
    | none =>
      rw [horiginal] at hsame
      have hloaded : original.governorState.loaded = false := by
        rw [governorState_loaded, horiginal]
        rfl
      have hloaded' : m.governorState.loaded = true := by
        rw [governorState_loaded, Option.isSome_iff_ne_none]
        exact hsame
      rw [hloaded, hloaded']
      exact unloadGovernor_follows true
    | some p =>
      have hloaded : original.governorState.loaded = true := by
        rw [governorState_loaded, horiginal]
        rfl
      -- the parameters that are read differ as the parameters do
      have hcondition : (!(m.governorState.loaded && decide (m.governorState.params =
          original.governorState.params))) = true := by
        unfold Machine.governorState
        rw [horiginal] at hsame ⊢
        cases hm : m.governor with
        | none => rfl
        | some q =>
          rw [hm, Option.some.injEq] at hsame
          simp [Params.items_inj, hsame]
      rw [hloaded, if_pos rfl, hcondition, toParams_governorState horiginal]
      have hload : Follows (loadGovernor call true p) m (loadPlaces call m true p) ()
        (m.load (call.settle p)) := loadGovernor_follows true p
      rw [hsettle p horiginal] at hload
      exact hload

theorem schedstatsText_applied : (applied call m).schedstatsText = m.schedstatsText := by
  unfold applied
  cases call.args.arm <;> rfl

theorem beforeTry_follows :
    Follows (beforeTry call) m (placesBeforeTry call m) (m.governorState, m.schedstatsText)
      (applied call m) := by
  have hlast : Follows (happens (call.events.before .beforeTry) >>= fun _ =>
      (pure (m.governorState, m.schedstatsText) : Effect Machine Stop _)) (applied call m)
      [(call.events.before .beforeTry, applied call m)] (m.governorState, m.schedstatsText)
      (applied call m) := follows_happens.bind follows_pure
  have hread : Follows ((fun m => (.ok m.schedstatsText, m) : Effect Machine Stop String) >>=
      fun originalSchedstats => happens (call.events.before .beforeTry) >>= fun _ =>
        pure (m.governorState, originalSchedstats)) (applied call m)
      [(call.events.before .beforeTry, applied call m)] (m.governorState, m.schedstatsText)
      (applied call m) := by
    have htext : m.schedstatsText = (applied call m).schedstatsText := schedstatsText_applied.symm
    rw [htext] at hlast ⊢
    exact follows_lift.bind hlast
  unfold beforeTry placesBeforeTry
  rw [List.append_assoc]
  refine (onlyIf_throw_follows _ _).bind (follows_happens.bind ?_)
  exact applyGovernor_follows.bind hread

end Follows

/-! ### Settings that are put back -/

section Keeps

variable (call : Call) (m : Machine)

/-- The run is left before a step. -/
def Call.LeftBefore (step : Step) : Prop := (call.events.before step).isSome

/-- A step is gone through. -/
def Call.Passes (step : Step) : Prop :=
  call.events.before step = none ∧ call.events.after step = none

/-- The governor of the arm is the original one. -/
def SameGovernor : Prop :=
  match call.args.arm with
  | .stock => True
  | .custom => True
  | .customNogov => m.governor = none
  | .customGov => m.governor = some (call.settle call.args.governor)

/-- `apply_governor` returns. -/
def ArmPasses : Prop :=
  match call.args.arm with
  | .stock => m.governor = none
  | .custom => m.governor = none
  | .customNogov => m.governor = none ∨ call.Passes (.rmmod false)
  | .customGov => (m.governor = none ∨ call.Passes (.rmmod false)) ∧ call.Passes (.modprobe false) ∧
      call.settle call.args.governor = call.args.governor

/-- `apply_governor` is left while the governor is the original one: the arm is refused, the first
command is not reached, or the last one is carried out and loads what was loaded. -/
def ArmLeft : Prop :=
  match call.args.arm with
  | .stock => m.governor ≠ none
  | .custom => m.governor ≠ none
  | .customNogov => m.governor ≠ none ∧ call.LeftBefore (.rmmod false)
  | .customGov =>
    m.governor = none ∧ call.LeftBefore (.modprobe false) ∨
      m.governor ≠ none ∧ call.LeftBefore (.rmmod false) ∨
      SameGovernor call m ∧ call.Passes (.rmmod false) ∧
        call.events.before (.modprobe false) = none ∧
        ((call.events.after (.modprobe false)).isSome ∨
          call.settle call.args.governor ≠ call.args.governor)

/-- The run is left before the `try`, while the governor is the original one. -/
def LeftInTime : Prop :=
  call.args.refused = true ∨ call.LeftBefore .compileWorkloads ∨ ArmLeft call m ∨
    ArmPasses call m ∧ call.LeftBefore .beforeTry ∧ SameGovernor call m

/-- The `try` is reached. -/
def EntersTry : Prop :=
  call.args.refused = false ∧ call.events.before .compileWorkloads = none ∧ ArmPasses call m ∧
    call.events.before .beforeTry = none

/-- What may end the `try`, in order. -/
def tryEvents : List (Option Stop) :=
  (if call.args.steer then
    [if m.schedstats.isSome then none else some .runtimeError,
      call.events.before (.setSchedstats false), call.events.after (.setSchedstats false)]
  else []) ++ call.events.before .ensureParent ::
    ((List.range call.args.reps).map (· + 1)).flatMap fun rep =>
      (call.args.order rep).map fun scenario => call.events.before (.runScenario rep scenario)

/-- What ends the `try`, if anything does. -/
def tryStop : Option Stop := (tryEvents call m).findSome? id

/-- The `try` leaves schedstats as they were: it does not write them, or they were not off. -/
def SchedstatsUntouched : Prop :=
  call.args.steer = false ∨ call.LeftBefore (.setSchedstats false) ∨ m.schedstats ≠ some false

/-- `restore_governor` carries out its last command, where it needs one. -/
def GovernorBack : Prop :=
  SameGovernor call m ∨
    match m.governor with
    | none => call.events.before (.rmmod true) = none
    | some _ => (call.args.arm = .customGov → call.Passes (.rmmod true)) ∧
        call.events.before (.modprobe true) = none

/-- `restore` gets to schedstats and writes them. -/
def SchedstatsBack : Prop :=
  call.events.before (.setSchedstats true) = none ∧
    (SameGovernor call m ∨ call.events.after
      (if m.governor.isSome then .modprobe true else .rmmod true) ≠ some .killed)

/-- The settings survive the `try` and `restore`: nothing was changed when the process or `restore`
ends at once, or `restore` puts back what was. -/
def TryKeeps : Prop :=
  (tryStop call m = some .killed ∨ call.LeftBefore .restore) ∧
      SameGovernor call m ∧ SchedstatsUntouched call m ∨
    tryStop call m ≠ some .killed ∧ call.events.before .restore = none ∧ GovernorBack call m ∧
      (SchedstatsUntouched call m ∨ SchedstatsBack call m)

/-- The run is left, for good, only where the settings are what they were. -/
def Keeps : Prop := LeftInTime call m ∨ EntersTry call m ∧ TryKeeps call m

end Keeps

/-! ### The same, by place -/

section KeepsAt

variable (call : Call) (m : Machine)

/-- Schedstats are as they were, or are written once more. -/
def SchedstatsKept (place : Machine) : Prop :=
  place.schedstats = m.schedstats ∨
    call.args.steer = true ∧ call.events.before (.setSchedstats true) = none

/-- The settings are put back where `restore_governor` is left. -/
def PutBack (e : Stop) (place : Machine) : Prop :=
  if e = .killed then place = m else place.governor = m.governor ∧ SchedstatsKept call m place

/-- From the place where the `try` is left, the settings are put back. -/
def RestoreKeepsAt (place : Machine) : Prop :=
  if (call.events.before .restore).isSome then place = m
  else AtEnd (restorePlaces call place m.governor) (PutBack call m) (SchedstatsKept call m place)

/-- `Keeps`, by the places where the run is left. -/
def KeepsAt : Prop :=
  AtEnd (placesBeforeTry call m) (fun _ place => place = m) <|
    AtEnd (runPlaces call (applied call m))
      (fun e place => if e = .killed then place = m else RestoreKeepsAt call m place)
      (RestoreKeepsAt call m (steered call (applied call m)))

end KeepsAt

section Restore

variable {call : Call} {m : Machine} {x last : Effect Machine Stop Unit}

theorem bind_happens_state (e : Option Stop) (s : Machine) :
    ((x >>= fun _ => happens e) s).2 = (x s).2 := by
  obtain ⟨r, s', hx⟩ : ∃ r s', x s = (r, s') := ⟨_, _, rfl⟩
  rw [hx]
  cases r with
  | ok a =>
    rw [bind_of_ok hx]
    cases e <;> rfl
  | error e' => rw [bind_of_error hx]

theorem logged_state (s : Machine) : (logged x s).2 = (x s).2 := by
  obtain ⟨r, s', hx⟩ : ∃ r s', x s = (r, s') := ⟨_, _, rfl⟩
  rw [hx]
  cases r with
  | ok a => rw [logged, tryCatch_of_ok hx]
  | error e =>
    rw [logged, tryCatch_of_error hx]
    split_ifs <;> rfl

theorem protect_of_killed {s s' : Machine} (h : x s = (.error .killed, s')) :
    (protect x last s).2 = s' := by
  unfold protect
  rw [h]

theorem protect_of_error {s s' : Machine} {e : Stop} (h : x s = (.error e, s'))
    (he : e ≠ .killed) : (protect x last s).2 = (last s').2 := by
  unfold protect
  rw [h]
  cases e with
  | killed => exact absurd rfl he
  | runtimeError =>
    show (Effect.tryFinally x last s).2 = _
    rw [tryFinally_state, h]
  | otherException =>
    show (Effect.tryFinally x last s).2 = _
    rw [tryFinally_state, h]

theorem protect_of_ok {s s' : Machine} (h : x s = (.ok (), s')) :
    (protect x last s).2 = (last s').2 := by
  unfold protect
  rw [h]
  show (Effect.tryFinally x last s).2 = _
  rw [tryFinally_state, h]

/-- The last part of `restore` puts schedstats back unless it is left before it writes. -/
theorem schedstats_state (enabled : Bool) (s : Machine) :
    ((onlyIf call.args.steer (logged (setSchedstats call true enabled)) >>= fun _ =>
        happens (call.events.before .cleanCgroup)) s).2 =
      if call.args.steer = true ∧ call.events.before (.setSchedstats true) = none then
        s.setSchedstats enabled
      else s := by
  rw [bind_happens_state]
  cases call.args.steer with
  | false => rfl
  | true =>
    show (logged (setSchedstats call true enabled) s).2 = _
    rw [logged_state, setSchedstats_follows true enabled]
    obtain ⟨governor, schedstats⟩ := s
    cases schedstats with
    | none =>
      -- no file: the write fails, and there is no setting to put back
      show (⟨governor, none⟩ : Machine) = if _ then ⟨governor, none⟩ else ⟨governor, none⟩
      exact (ite_self _).symm
    | some b =>
      cases hbefore : call.events.before (.setSchedstats true) with
      | some e => simp [left]
      | none =>
        cases hafter : call.events.after (.setSchedstats true) <;> simp [left]

theorem schedstats_rmmodPlaces {s : Machine} {restoring : Bool} :
    ∀ p ∈ rmmodPlaces call s restoring, p.2.schedstats = s.schedstats := by
  intro p hp
  unfold rmmodPlaces at hp
  split_ifs at hp
  · rcases List.mem_pair.1 hp with rfl | rfl <;> rfl
  · cases hp

theorem schedstats_loadPlaces {s : Machine} {restoring : Bool} {params : Params} :
    ∀ p ∈ loadPlaces call s restoring params, p.2.schedstats = s.schedstats := by
  intro p hp
  rcases List.mem_append.1 hp with hp | hp
  · exact schedstats_rmmodPlaces p hp
  · rcases List.mem_pair.1 hp with rfl | rfl <;> rfl

/-- Putting the governor back leaves schedstats alone. -/
theorem schedstats_restorePlaces {s : Machine} {original : Option Params} :
    ∀ p ∈ restorePlaces call s original, p.2.schedstats = s.schedstats := by
  intro p hp
  unfold restorePlaces at hp
  split_ifs at hp
  · cases hp
  · cases original with
    | none => exact schedstats_rmmodPlaces p hp
    | some params => exact schedstats_loadPlaces p hp

/-- What the last part of `restore` makes of schedstats. -/
theorem schedstats_state_iff {s : Machine} (hfile : s.schedstats.isSome = m.schedstats.isSome) :
    ((onlyIf call.args.steer (logged (setSchedstats call true (m.schedstatsText = "1"))) >>=
        fun _ => happens (call.events.before .cleanCgroup)) s).2 = m ↔
      s.governor = m.governor ∧ SchedstatsKept call m s := by
  have hput : (s.setSchedstats (m.schedstatsText = "1")).schedstats = m.schedstats := by
    obtain ⟨governor, schedstats⟩ := m
    obtain ⟨governor', schedstats'⟩ := s
    cases schedstats <;> cases schedstats' <;> cases hfile
    · rfl
    · rename_i b b'
      cases b <;> rfl
  rw [schedstats_state]
  unfold SchedstatsKept
  split_ifs with h
  · constructor
    · intro heq
      have hgovernor : (s.setSchedstats (m.schedstatsText = "1")).governor = m.governor := by
        rw [heq]
      exact ⟨hgovernor, .inr h⟩
    · rintro ⟨hgovernor, -⟩
      exact Machine.ext hgovernor hput
  · constructor
    · rintro rfl
      exact ⟨rfl, .inl rfl⟩
    · rintro ⟨hgovernor, hsched | hput'⟩
      · exact Machine.ext hgovernor hsched
      · exact absurd hput' h

theorem restore_keeps_iff {s : Machine}
    (hsettle : ∀ p, m.governor = some p → call.settle p = p)
    (hfile : s.schedstats.isSome = m.schedstats.isSome) :
    (restore call m.governorState m.schedstatsText s).2 = m ↔ RestoreKeepsAt call m s := by
  unfold restore RestoreKeepsAt
  cases hbefore : call.events.before .restore with
  | some e =>
    have herror : (happens (some e) : Effect Machine Stop Unit) s = (.error e, s) := rfl
    rw [bind_of_error herror]
    exact Iff.rfl
  | none =>
    have hok : (happens none : Effect Machine Stop Unit) s = (.ok (), s) := rfl
    rw [bind_of_ok hok]
    rw [if_neg (by decide)]
    have hrestore := restoreGovernor_follows (m := s) hsettle
    -- the statistics are restored unless the restoration of the governor was killed
    cases hleft : left (restorePlaces call s m.governor) with
    | none =>
      rw [AtEnd.of_none hleft, protect_of_ok (hrestore.of_none hleft)]
      exact (schedstats_state_iff (s := { s with governor := m.governor }) hfile).trans
        (and_iff_right rfl)
    | some stopped =>
      obtain ⟨e, place⟩ := stopped
      have herror := hrestore.of_left hleft
      have hfile' : place.schedstats.isSome = m.schedstats.isSome := by
        rw [schedstats_restorePlaces _ (mem_of_left hleft), hfile]
      rw [AtEnd.of_left hleft, PutBack]
      by_cases he : e = .killed
      · rw [if_pos he, protect_of_killed (he ▸ herror)]
      · rw [if_neg he, protect_of_error herror he]
        exact schedstats_state_iff hfile'

theorem schedstats_steered {s : Machine} :
    (steered call s).schedstats.isSome = s.schedstats.isSome := by
  unfold steered
  split_ifs
  · exact Option.isSome_map
  · rfl

theorem schedstats_runPlaces {s : Machine} :
    ∀ p ∈ runPlaces call s, p.2.schedstats.isSome = s.schedstats.isSome := by
  intro p hp
  rcases List.mem_append.1 hp with hp | hp
  · unfold steerPlaces at hp
    by_cases hsteer : call.args.steer = true
    · rw [if_pos hsteer] at hp
      rcases List.mem_cons.1 hp with rfl | hp
      · rfl
      · rcases List.mem_pair.1 hp with rfl | rfl
        · rfl
        · exact Option.isSome_map
    · rw [if_neg hsteer] at hp
      cases hp
  · rcases List.mem_cons.1 hp with rfl | hp
    · exact schedstats_steered
    · obtain ⟨rep, -, hp⟩ := List.mem_flatMap.1 hp
      obtain ⟨scenario, -, hp⟩ := List.mem_flatMap.1 hp
      rw [List.mem_singleton.1 hp]
      exact schedstats_steered

theorem schedstats_applied {s : Machine} : (applied call s).schedstats = s.schedstats := by
  unfold applied
  cases call.args.arm <;> rfl

end Restore

/-! ### Whole runs -/

/-- The run is followed from place to place. -/
theorem main_keepsAt_iff (call : Call) (m : Machine)
    (hsettle : ∀ p, m.governor = some p → call.settle p = p) :
    (main call m).2 = m ↔ KeepsAt call m := by
  unfold KeepsAt
  have hbefore : Follows (beforeTry call) m _ _ _ := beforeTry_follows
  cases hleft : left (placesBeforeTry call m) with
  | some stopped =>
    obtain ⟨e, place⟩ := stopped
    rw [AtEnd.of_left hleft, main, bind_of_error (hbefore.of_left hleft)]
  | none =>
    rw [AtEnd.of_none hleft, main, bind_of_ok (hbefore.of_none hleft), bind_happens_state]
    have hrun : Follows (runMatrix call) (applied call m) _ _ _ := runMatrix_follows
    cases hinside : left (runPlaces call (applied call m)) with
    | none =>
      rw [AtEnd.of_none hinside, protect_of_ok (hrun.of_none hinside)]
      exact restore_keeps_iff hsettle (by rw [schedstats_steered, schedstats_applied])
    | some stopped =>
      obtain ⟨e, place⟩ := stopped
      have herror := hrun.of_left hinside
      have hfile : place.schedstats.isSome = m.schedstats.isSome := by
        rw [schedstats_runPlaces _ (mem_of_left hinside), schedstats_applied]
      rw [AtEnd.of_left hinside]
      by_cases he : e = .killed
      · rw [if_pos he, protect_of_killed (he ▸ herror)]
      · rw [if_neg he, protect_of_error herror he]
        exact restore_keeps_iff hsettle hfile

/-! ### The places, by arm and event -/

section Arms

variable {call : Call} {m s : Machine} {P : Prop}

@[simp] theorem unloaded_eq_self_iff : m.unloaded = m ↔ m.governor = none := by
  obtain ⟨governor, schedstats⟩ := m
  simp [Machine.unloaded, eq_comm]

@[simp] theorem load_eq_self_iff {p : Params} : m.load p = m ↔ m.governor = some p := by
  obtain ⟨governor, schedstats⟩ := m
  simp [Machine.load, eq_comm]

theorem applied_eq_self_iff : applied call m = m ↔ SameGovernor call m := by
  unfold applied SameGovernor
  cases call.args.arm <;> simp

theorem leftBefore_iff {step : Step} :
    call.LeftBefore step ↔ ∃ e, call.events.before step = some e := Option.isSome_iff_exists

theorem atEnd_rmmodPlaces (restoring : Bool) :
    AtEnd (rmmodPlaces call m restoring) (fun _ place => place = m) P ↔
      m.governor ≠ none ∧ call.LeftBefore (.rmmod restoring) ∨
        (m.governor = none ∨ call.Passes (.rmmod restoring)) ∧ P := by
  unfold rmmodPlaces
  cases hm : m.governor with
  | none => simp [atEnd_nil]
  | some p => simp [atEnd_cons, atEnd_nil, hm, leftBefore_iff, Call.Passes, and_assoc]

theorem atEnd_loadPlaces (restoring : Bool) (p : Params) :
    AtEnd (loadPlaces call m restoring p) (fun _ place => place = m) P ↔
      m.governor ≠ none ∧ call.LeftBefore (.rmmod restoring) ∨
        (m.governor = none ∨ call.Passes (.rmmod restoring)) ∧
          (call.LeftBefore (.modprobe restoring) ∧ m.governor = none ∨
            call.events.before (.modprobe restoring) = none ∧
              ((call.events.after (.modprobe restoring)).isSome ∧
                  m.governor = some (call.settle p) ∨
                call.events.after (.modprobe restoring) = none ∧ P)) := by
  rw [loadPlaces, atEnd_append, atEnd_rmmodPlaces]
  simp only [atEnd_cons, atEnd_nil, unloaded_eq_self_iff, load_eq_self_iff, exists_and_right,
    ← Option.isSome_iff_exists, Call.LeftBefore]

theorem atEnd_throw (condition : Bool) (e : Stop) :
    AtEnd [(if condition then some e else none, m)] (fun _ place => place = m) P ↔
      condition = true ∨ condition = false ∧ P := by
  cases condition <;> simp [atEnd_cons, atEnd_nil]

/-- The command and the checks of the arm. -/
theorem atEnd_applyPlaces :
    AtEnd (applyPlaces call m) (fun _ place => place = m) P ↔
      ArmLeft call m ∨ ArmPasses call m ∧ P := by
  have hrefused : AtEnd [(if m.governor.isSome then some Stop.runtimeError else none, m)]
      (fun _ place => place = m) P ↔ m.governor ≠ none ∨ m.governor = none ∧ P := by
    rw [atEnd_throw, Option.isSome_iff_ne_none, Option.isSome_eq_false_iff,
      Option.isNone_iff_eq_none]
  unfold applyPlaces ArmLeft ArmPasses
  cases harm : call.args.arm with
  | stock => exact hrefused
  | custom => exact hrefused
  | customNogov => exact atEnd_rmmodPlaces false
  | customGov =>
    -- what is loaded in the end is checked
    have hchecked : AtEnd [(if call.settle call.args.governor = call.args.governor then none
        else some Stop.runtimeError, m.load (call.settle call.args.governor))]
        (fun _ place => place = m) P ↔
        call.settle call.args.governor ≠ call.args.governor ∧
          m.governor = some (call.settle call.args.governor) ∨
        call.settle call.args.governor = call.args.governor ∧ P := by
      by_cases h : call.settle call.args.governor = call.args.governor
      · simp [atEnd_cons, atEnd_nil, h]
      · simp [atEnd_cons, atEnd_nil, h]
    rw [atEnd_append, hchecked, atEnd_loadPlaces, SameGovernor, harm]
    simp only [Call.Passes, Option.isSome_iff_ne_none]
    cases m.governor with
    | none =>
      simp
      tauto
    | some p =>
      simp
      grind

theorem atEnd_placesBeforeTry :
    AtEnd (placesBeforeTry call m) (fun _ place => place = m) P ↔
      LeftInTime call m ∨ EntersTry call m ∧ P := by
  unfold placesBeforeTry LeftInTime EntersTry
  simp only [atEnd_append, atEnd_applyPlaces, atEnd_cons, atEnd_nil, applied_eq_self_iff,
    exists_and_right, and_true, ← leftBefore_iff]
  cases call.args.refused with
  | true => simp
  | false =>
    cases hcompile : call.events.before .compileWorkloads with
    | some e => simp [Call.LeftBefore, hcompile]
    | none =>
      simp [Call.LeftBefore, hcompile]
      tauto

/-- Where the `try` ends, the governor is that of the arm, and schedstats are those of before unless
it has changed them. -/
structure TryEnds (call : Call) (m place : Machine) : Prop where
  governor : place.governor = (applied call m).governor
  schedstats : place.schedstats = m.schedstats ↔ SchedstatsUntouched call m

theorem tryEnds_applied (h : SchedstatsUntouched call m) : TryEnds call m (applied call m) :=
  ⟨rfl, iff_of_true schedstats_applied h⟩

theorem tryEnds_steered (hbefore : call.args.steer = true →
    m.schedstats.isSome ∧ call.events.before (.setSchedstats false) = none) :
    TryEnds call m (steered call (applied call m)) := by
  by_cases hsteer : call.args.steer = true
  · obtain ⟨hfile, hevent⟩ := hbefore hsteer
    refine ⟨by rw [steered, if_pos hsteer]; rfl, ?_⟩
    rw [steered, if_pos hsteer, Machine.setSchedstats, schedstats_applied, SchedstatsUntouched,
      Call.LeftBefore, hevent, hsteer]
    obtain ⟨b, hb⟩ := Option.isSome_iff_exists.1 hfile
    cases b <;> simp [hb]
  · have hsame : steered call (applied call m) = applied call m := if_neg hsteer
    rw [hsame]
    exact tryEnds_applied (.inl (Bool.eq_false_of_not_eq_true hsteer))

/-- Where the `try` is left. -/
theorem tryEnds_left {e : Stop} (h : left (runPlaces call (applied call m)) = some (e, s)) :
    TryEnds call m s := by
  have hrest : ∀ p ∈ (call.events.before .ensureParent, steered call (applied call m)) ::
      ((List.range call.args.reps).map (· + 1)).flatMap (fun rep =>
        (call.args.order rep).flatMap fun scenario =>
          [(call.events.before (.runScenario rep scenario), steered call (applied call m))]),
      p.2 = steered call (applied call m) := by
    intro p hp
    rcases List.mem_cons.1 hp with rfl | hp
    · rfl
    · obtain ⟨rep, -, hp⟩ := List.mem_flatMap.1 hp
      obtain ⟨scenario, -, hp⟩ := List.mem_flatMap.1 hp
      rw [List.mem_singleton.1 hp]
  by_cases hsteer : call.args.steer = true
  · have hturned : steered call (applied call m) = (applied call m).setSchedstats true :=
      if_pos hsteer
    rw [runPlaces, steerPlaces, if_pos hsteer, schedstats_applied] at h
    cases hfile : m.schedstats.isSome with
    | false =>
      simp only [hfile, Bool.false_eq_true, if_false, List.cons_append, left] at h
      cases h
      exact tryEnds_applied (.inr (.inr fun hfalse => by simp [hfalse] at hfile))
    | true =>
      cases hevent : call.events.before (.setSchedstats false) with
      | some stop =>
        simp only [hfile, hevent, if_true, List.cons_append, left] at h
        cases h
        exact tryEnds_applied (.inr (.inl (by simp [Call.LeftBefore, hevent])))
      | none =>
        simp only [hfile, hevent, if_true, List.cons_append, List.nil_append, left] at h
        have hplace : s = steered call (applied call m) := by
          rcases List.mem_cons.1 (mem_of_left h) with heq | hmem
          · rw [hturned]
            exact (Prod.ext_iff.1 heq).2
          · exact hrest _ hmem
        rw [hplace]
        exact tryEnds_steered fun _ => ⟨hfile, hevent⟩
  · rw [runPlaces, steerPlaces, if_neg hsteer, List.nil_append] at h
    have hplace : s = steered call (applied call m) := hrest _ (mem_of_left h)
    rw [hplace]
    exact tryEnds_steered fun h => absurd h hsteer

/-- The end of the `try`. -/
theorem tryEnds_none (h : left (runPlaces call (applied call m)) = none) :
    TryEnds call m (steered call (applied call m)) := by
  refine tryEnds_steered fun hsteer => ?_
  rw [runPlaces, steerPlaces, if_pos hsteer, schedstats_applied] at h
  cases hfile : m.schedstats.isSome with
  | false => simp [hfile, left] at h
  | true =>
    cases hevent : call.events.before (.setSchedstats false) with
    | none => exact ⟨rfl, rfl⟩
    | some e => simp [hfile, hevent, left] at h

theorem tryStop_eq :
    tryStop call m = (left (runPlaces call (applied call m))).map Prod.fst := by
  have hscenarios : ∀ rep, ((call.args.order rep).flatMap fun scenario =>
      [(call.events.before (.runScenario rep scenario), steered call (applied call m))]).map
        Prod.fst =
      (call.args.order rep).map fun scenario => call.events.before (.runScenario rep scenario) := by
    intro rep
    rw [List.map_flatMap, List.map_eq_flatMap]
    rfl
  have hevents : (runPlaces call (applied call m)).map Prod.fst = tryEvents call m := by
    unfold runPlaces tryEvents steerPlaces
    rw [List.map_append, List.map_cons, List.map_flatMap, schedstats_applied]
    simp only [hscenarios]
    cases call.args.steer <;> rfl
  rw [map_fst_left, hevents, tryStop]

theorem TryEnds.eq_iff (h : TryEnds call m s) :
    s = m ↔ SameGovernor call m ∧ SchedstatsUntouched call m := by
  rw [← applied_eq_self_iff, Machine.ext_iff, Machine.ext_iff, h.governor, h.schedstats,
    schedstats_applied, and_iff_left rfl]

theorem TryEnds.schedstatsKept_iff (h : TryEnds call m s) : SchedstatsKept call m s ↔
    SchedstatsUntouched call m ∨ call.events.before (.setSchedstats true) = none := by
  rw [SchedstatsKept, h.schedstats]
  cases hsteer : call.args.steer with
  | false => simp [SchedstatsUntouched, hsteer]
  | true => simp

theorem not_putBack {e : Stop} (h : s.governor ≠ m.governor) : ¬PutBack call m e s := by
  rw [PutBack]
  split_ifs
  · exact fun heq => h (congrArg Machine.governor heq)
  · exact fun hput => h hput.1

/-- An exception behind the last command of `restore_governor` leaves schedstats to be written; the
end of the process does not. -/
theorem TryEnds.atEnd_last {last : Option Stop} {place : Machine} (h : TryEnds call m s)
    (hgovernor : place.governor = m.governor) (hschedstats : place.schedstats = s.schedstats) :
    AtEnd [(last, place)] (PutBack call m) (SchedstatsKept call m s) ↔ SchedstatsUntouched call m ∨
      call.events.before (.setSchedstats true) = none ∧ last ≠ some .killed := by
  have hkept : SchedstatsKept call m place ↔ SchedstatsKept call m s := by
    rw [SchedstatsKept, SchedstatsKept, hschedstats]
  have hsame : place = m ↔ SchedstatsUntouched call m := by
    rw [Machine.ext_iff, and_iff_right hgovernor, hschedstats, h.schedstats]
  simp only [atEnd_cons, atEnd_nil, PutBack, hkept, hsame, h.schedstatsKept_iff, hgovernor, true_and]
  cases last with
  | none => simp
  | some e => cases e <;> simp

theorem TryEnds.atEnd_restorePlaces (h : TryEnds call m s)
    (hsettle : ∀ p, m.governor = some p → call.settle p = p) :
    AtEnd (restorePlaces call s m.governor) (PutBack call m) (SchedstatsKept call m s) ↔
      GovernorBack call m ∧ (SchedstatsUntouched call m ∨ SchedstatsBack call m) := by
  have hgovernor : s.governor = m.governor ↔ SameGovernor call m := by
    rw [h.governor, ← applied_eq_self_iff, Machine.ext_iff, schedstats_applied, and_iff_left rfl]
  unfold restorePlaces GovernorBack SchedstatsBack
  by_cases hsame : SameGovernor call m
  · rw [if_pos (hgovernor.2 hsame), atEnd_nil, h.schedstatsKept_iff]
    simp [hsame]
  · have hdiffers : s.governor ≠ m.governor := fun heq => hsame (hgovernor.1 heq)
    rw [if_neg hdiffers]
    cases hm : m.governor with
    | none =>
      have hloaded : s.governor.isSome = true := Option.isSome_iff_ne_none.2 (hm ▸ hdiffers)
      have hback : s.unloaded.governor = m.governor := hm.symm
      simp only [rmmodPlaces, if_pos hloaded, atEnd_cons_of_not fun e => not_putBack hdiffers,
        h.atEnd_last hback rfl]
      simp [hsame]
    | some p =>
      have hgone : s.unloaded.governor ≠ m.governor := by
        rw [hm]
        exact (Option.some_ne_none p).symm
      have hback : (s.load (call.settle p)).governor = m.governor := by
        rw [hm, Machine.load, hsettle p hm]
      have hload : AtEnd [(call.events.before (.modprobe true), s.unloaded),
          (call.events.after (.modprobe true), s.load (call.settle p))] (PutBack call m)
          (SchedstatsKept call m s) ↔ call.events.before (.modprobe true) = none ∧
            (SchedstatsUntouched call m ∨ call.events.before (.setSchedstats true) = none ∧
              call.events.after (.modprobe true) ≠ some .killed) := by
        rw [atEnd_cons_of_not fun e => not_putBack hgone, h.atEnd_last hback rfl]
      have hgovernor := h.governor
      unfold applied at hgovernor
      unfold loadPlaces rmmodPlaces
      rw [atEnd_append, hload]
      cases harm : call.args.arm with
      | stock => exact absurd (by rw [SameGovernor, harm]; trivial) hsame
      | custom => exact absurd (by rw [SameGovernor, harm]; trivial) hsame
      | customNogov =>
        rw [harm] at hgovernor
        have hnone : s.governor.isSome = false := congrArg Option.isSome hgovernor
        rw [hnone, if_neg Bool.false_ne_true, atEnd_nil]
        simp [hsame]
      | customGov =>
        rw [harm] at hgovernor
        have hloaded : s.governor.isSome = true := congrArg Option.isSome hgovernor
        rw [hloaded, if_pos rfl, atEnd_cons_of_not fun e => not_putBack hdiffers,
          atEnd_cons_of_not fun e => not_putBack hgone, atEnd_nil]
        simp [hsame, Call.Passes, and_assoc]

theorem TryEnds.restoreKeepsAt_iff (h : TryEnds call m s)
    (hsettle : ∀ p, m.governor = some p → call.settle p = p) :
    RestoreKeepsAt call m s ↔
      call.LeftBefore .restore ∧ SameGovernor call m ∧ SchedstatsUntouched call m ∨
      call.events.before .restore = none ∧ GovernorBack call m ∧
        (SchedstatsUntouched call m ∨ SchedstatsBack call m) := by
  rw [RestoreKeepsAt]
  cases hbefore : call.events.before .restore with
  | some e => simp [Call.LeftBefore, hbefore, h.eq_iff]
  | none =>
    have hleft : ¬call.LeftBefore .restore := by simp [Call.LeftBefore, hbefore]
    rw [if_neg (by decide), h.atEnd_restorePlaces hsettle]
    simp [hleft]

theorem keepsAt_iff (hsettle : ∀ p, m.governor = some p → call.settle p = p) :
    KeepsAt call m ↔ Keeps call m := by
  rw [KeepsAt, atEnd_placesBeforeTry, Keeps, TryKeeps, tryStop_eq]
  refine or_congr_right (and_congr_right fun _ => ?_)
  cases hleft : left (runPlaces call (applied call m)) with
  | none =>
    rw [AtEnd.of_none hleft, (tryEnds_none hleft).restoreKeepsAt_iff hsettle]
    simp
  | some stopped =>
    obtain ⟨e, place⟩ := stopped
    have hends := tryEnds_left hleft
    rw [AtEnd.of_left hleft, hends.eq_iff, hends.restoreKeepsAt_iff hsettle]
    by_cases he : e = .killed
    · simp [he]
    · simp [he]

end Arms

/-- At the end of a run the governor and schedstats are what they were exactly when the run is left
only where they are.  The module takes the parameters of its original state. -/
theorem main_keeps_iff (call : Call) (m : Machine)
    (hsettle : ∀ p, m.governor = some p → call.settle p = p) :
    (main call m).2 = m ↔ Keeps call m :=
  (main_keepsAt_iff call m hsettle).trans (keepsAt_iff hsettle)

/-- What the `finally` is for: in the `try` an exception is as harmless as none. -/
theorem keeps_of_raised (call : Call) (m : Machine) (henters : EntersTry call m)
    (hkilled : tryStop call m ≠ some .killed) (hrestore : call.events.before .restore = none)
    (hrmmod : call.Passes (.rmmod true)) (hmodprobe : call.Passes (.modprobe true))
    (hschedstats : call.events.before (.setSchedstats true) = none) : Keeps call m := by
  refine .inr ⟨henters, .inr ⟨hkilled, hrestore, .inr ?_, .inr ⟨hschedstats, .inr ?_⟩⟩⟩
  · cases m.governor with
    | none => exact hrmmod.1
    | some p => exact ⟨fun _ => hrmmod, hmodprobe.1⟩
  · split_ifs
    · simp [hmodprobe.2]
    · simp [hrmmod.2]

/-- The governor arm on a machine where the governor runs; `modprobe` fails after `rmmod`. -/
def modprobeFails : Call where
  args := ⟨.customGov, 1, ["steal"], fun _ => ["steal"], ⟨1000, 500, 200⟩⟩
  events :=
    { before := fun step => match step with
        | .modprobe false => some .otherException
        | _ => none
      after := fun _ => none }
  settle := id

/-- The governor runs, with schedstats off. -/
def governorRuns : Machine := ⟨some ⟨2000, 600, 100⟩, some false⟩

theorem main_unloads_modprobeFails :
    (main modprobeFails governorRuns).2 = governorRuns.unloaded ∧
      governorRuns.unloaded ≠ governorRuns := by
  decide +kernel

theorem main_keeps_iff_modprobeFails :
    (main modprobeFails governorRuns).2 = governorRuns ↔ Keeps modprobeFails governorRuns :=
  main_keeps_iff modprobeFails governorRuns fun _ _ => rfl

end SchedCoreDelta
