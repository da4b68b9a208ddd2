import K8Labs.LinuxSched.BlockOrder
import K8Labs.Python.Effect
import K8Labs.Python.OrderStatistics
import K8Labs.Python.Text

/-!
# The rows of a phase directory

`cmd_run` of `research/linux-sched/experiments/run-block.sh`, with `next_block_id` and
`append_block_row` of `lib.sh`: a run numbers its blocks after those that `blocks.csv` has, and
appends one row for each block, arm and policy.  It may be cut off between any two of its steps
(`moment`), by a signal or because a step dies.

`blocks_distinct` is the result: **after any history of runs, each cut off anywhere, no two rows of
`blocks.csv` are of the same block, scheduler, workload, metric and policy, and the analysis finds no
duplicate.**  What carries it is that the rows of a run are those of the blocks and pairs that are
done (`Filled`).

A row is read as the record of its fields; the names have no separators in them.
-/

namespace LinuxSched

namespace RunBlock

open Py BlockOrder

/-! ### Runs -/

/-- A line of `blocks.csv` after the first. -/
structure Row where
  block : ℕ
  scheduler : String
  workload : String
  metric : String
  value : ℚ
  direction : String
  policy : String

/-- `blocks.csv`, none when there is no such file, and the number of moments so far. -/
structure World where
  blocksCsv : Option (List Row)
  clock : ℕ

/-- `smoke`, `pilot` or `confirmatory`. -/
inductive Mode where
  | smoke
  | pilot
  | confirmatory
  deriving DecidableEq

/-- What a run is started with: the scenario, and the settings of its environment. -/
structure Invocation where
  scenario : String
  primaryMetric : String
  primaryDirection : String
  mode : Mode
  protocolVersion : String
  /-- What `block_count` prints for the mode. -/
  blockCount : ℕ
  planSeed : ℕ
  arms : List String
  /-- The words of `LINUX_SCHED_POLICIES`. -/
  policyWords : List String
  nodup_arms : arms.Nodup
  nodup_policyWords : policyWords.Nodup

/-- What a run meets: when it is cut off, what it measures, whether another block fits under the
wall-clock cap. -/
structure Surroundings where
  interrupts : ℕ → Bool
  measures : ℕ → ℚ
  fits : ℕ → Bool
  rng : Shuffle

/-- How a run ends early. -/
inductive Stop where
  | interrupted
  | died (message : String)

/-- `policies` of `cmd_run`. -/
def Invocation.policies (inv : Invocation) : List String :=
  if inv.policyWords = [] ∧ inv.mode = .confirmatory ∧ inv.protocolVersion = "v3" then
    ["unlimited", "limited"]
  else if inv.policyWords = [] then [""]
  else inv.policyWords

/-- `next_block_id`. -/
def nextBlockId : Option (List Row) → ℕ
  | none => 1
  | some rows => (rows.map Row.block).foldl max 0 + 1

section Run

variable (env : Surroundings) (inv : Invocation)

/-- A moment at which the run may be cut off. -/
def moment : Effect World Stop Unit := do
  let w ← Effect.get
  Effect.modify fun w => ⟨w.blocksCsv, w.clock + 1⟩
  if env.interrupts w.clock then Effect.throw .interrupted else pure ()

/-- The first line of a file that is not there yet. -/
def writeHeader : Effect World Stop Unit :=
  Effect.modify fun w => ⟨some (w.blocksCsv.getD []), w.clock⟩

/-- The line of a row. -/
def writeRow (row : Row) : Effect World Stop Unit :=
  Effect.modify fun w => ⟨some (w.blocksCsv.getD [] ++ [row]), w.clock⟩

/-- `append_block_row`. -/
def appendBlockRow (row : Row) : Effect World Stop Unit := do
  writeHeader
  moment env
  writeRow row

/-- The cases of `policy`. -/
def checkPolicy (policy : String) : Effect World Stop Unit :=
  if policy ∈ ["", "unlimited", "limited"] then pure ()
  else Effect.throw (.died ("unknown policy: " ++ policy))

/-- `run_block`. -/
def runBlock (block : ℕ) (arm policy : String) : Effect World Stop Unit := do
  checkPolicy policy
  -- the frozen quota, the reset, the storage gate, the capture: whatever dies cuts the run off
  moment env
  let w ← Effect.get
  appendBlockRow env
    { block := block
      scheduler := arm
      workload := inv.scenario
      metric := inv.primaryMetric
      value := env.measures w.clock
      direction := inv.primaryDirection
      policy := policy }
  -- `collect_secondary` writes to a file of its own
  moment env

/-- The arms of a block, under each policy. -/
def runArms (block : ℕ) : Effect World Stop Unit :=
  match balancedBlockOrder env.rng inv.planSeed inv.arms block with
  | .error e => Effect.throw (.died e.message)
  | .ok order =>
    Effect.forEach (fun arm => Effect.forEach (runBlock env inv block arm) inv.policies) order

/-- The loop over the blocks, with the number of those that are left. -/
def runBlocks : ℕ → ℕ → Effect World Stop Unit
  | 0, _ => pure ()
  | left + 1, block => do
    let w ← Effect.get
    if env.fits w.clock then do
      runArms env inv block
      moment env
      runBlocks left (block + 1)
    else pure ()

/-- `cmd_run`. -/
def cmdRun : Effect World Stop Unit := do
  moment env
  let w ← Effect.get
  runBlocks env inv inv.blockCount (nextBlockId w.blocksCsv)
  moment env

/-- The phase directory after runs one after another. -/
def after (history : List Invocation) : World :=
  history.foldl (fun w inv => (cmdRun env inv w).2) ⟨none, 0⟩

end Run

/-- The rows that are there. -/
def World.rows (w : World) : List Row := w.blocksCsv.getD []

/-- What a row is the measurement of. -/
def Row.place (row : Row) : ℕ × String × String := (row.block, row.scheduler, row.policy)

/-- What the analysis may see once only. -/
def Row.cell (row : Row) : ℕ × String × String × String × String :=
  (row.block, row.scheduler, row.workload, row.metric, row.policy)

/-! ### What the steps keep -/

/-- No place was measured twice, and with `single` no block under two policies. -/
structure Distinct (single : Prop) (w : World) : Prop where
  nodup : (w.rows.map Row.place).Nodup
  onePolicy : single → ∀ r ∈ w.rows, ∀ r' ∈ w.rows, r.block = r'.block → r.policy = r'.policy

/-- In the block that is running only the pairs that are done have their rows. -/
structure Filled (single : Prop) (policies : List String) (block : ℕ)
    (done : List (String × String)) (w : World) : Prop extends Distinct single w where
  below : ∀ r ∈ w.rows, r.block < block ∨
    r.block = block ∧ (r.scheduler, r.policy) ∈ done ∧ r.policy ∈ policies

section Steps

variable {env : Surroundings} {inv : Invocation} {single : Prop} {policies : List String}
  {block : ℕ} {done : List (String × String)} {w w' : World}

/-- The invariants are about the rows alone. -/
theorem Filled.of_rows (h : Filled single policies block done w) (hrows : w'.rows = w.rows) :
    Filled single policies block done w' :=
  ⟨⟨by rw [hrows]; exact h.nodup, by rw [hrows]; exact h.onePolicy⟩, by rw [hrows]; exact h.below⟩

theorem preserves_moment {P : World → Prop} (h : ∀ w w', P w → w'.rows = w.rows → P w') :
    Effect.Preserves P (moment env) := by
  refine .bind Effect.preserves_get fun w => ?_
  refine .bind (Effect.preserves_modify fun w hw => h w _ hw rfl) fun _ => ?_
  split
  · exact Effect.preserves_throw _
  · exact Effect.preserves_pure _

/-- The row of a pair that was not done yet. -/
theorem Filled.append (h : Filled single policies block done w) {row : Row} (hblock : row.block = block)
    (hnew : (row.scheduler, row.policy) ∉ done) (hpolicy : row.policy ∈ policies)
    (hsingle : single → policies.length ≤ 1) (hrows : w'.rows = w.rows ++ [row]) :
    Filled single policies block (done ++ [(row.scheduler, row.policy)]) w' := by
  have hfresh : row.place ∉ w.rows.map Row.place := by
    intro hmem
    obtain ⟨r, hr, heq⟩ := List.mem_map.1 hmem
    simp only [Row.place, Prod.mk.injEq] at heq
    obtain ⟨hrblock, hrest⟩ := heq
    rcases h.below r hr with hlt | ⟨-, hdone, -⟩
    · omega
    · rw [hrest.1, hrest.2] at hdone
      exact hnew hdone
  -- a run under one policy has no other in its blocks
  have hone : single → ∀ p ∈ policies, p = row.policy := by
    intro hs p hp
    obtain ⟨only, rfl⟩ := List.length_eq_one_iff.1
      (le_antisymm (hsingle hs) (List.length_pos_of_mem hp))
    rw [List.mem_singleton.1 hp, List.mem_singleton.1 hpolicy]
  have hsame : single → ∀ r ∈ w.rows, r.block = row.block → r.policy = row.policy := by
    intro hs r hr heq
    rcases h.below r hr with hlt | ⟨-, -, hp⟩
    · omega
    · exact hone hs _ hp
  refine ⟨⟨?_, ?_⟩, ?_⟩
  · rw [hrows, List.map_append, List.map_singleton, List.nodup_append]
    refine ⟨h.nodup, List.nodup_singleton _, ?_⟩
    rintro p hp q hq rfl
    exact hfresh (List.mem_singleton.1 hq ▸ hp)
  · rw [hrows]
    intro hs r hr r' hr' heq
    rw [List.mem_append, List.mem_singleton] at hr hr'
    rcases hr with hr | rfl <;> rcases hr' with hr' | rfl
    · exact h.onePolicy hs r hr r' hr' heq
    · exact hsame hs r hr heq
    · exact (hsame hs r' hr' heq.symm).symm
    · rfl
  · rw [hrows]
    intro r hr
    rw [List.mem_append, List.mem_singleton] at hr
    rcases hr with hr | rfl
    · exact (h.below r hr).imp_right fun hin =>
        ⟨hin.1, List.mem_append_left _ hin.2.1, hin.2.2⟩
    · exact .inr ⟨hblock, List.mem_append_right _ (List.mem_singleton_self _), hpolicy⟩

theorem ends_moment : Effect.Ends (Filled single policies block done) (moment env)
    (fun _ => Filled single policies block done) (Distinct single) :=
  Effect.Ends.imp (preserves_moment fun _ _ hw hrows => hw.of_rows hrows) (fun _ _ => id)
    fun _ => Filled.toDistinct

theorem ends_appendBlockRow {row : Row} (hblock : row.block = block)
    (hnew : (row.scheduler, row.policy) ∉ done) (hpolicy : row.policy ∈ policies)
    (hsingle : single → policies.length ≤ 1) :
    Effect.Ends (Filled single policies block done) (appendBlockRow env row)
      (fun _ => Filled single policies block (done ++ [(row.scheduler, row.policy)]))
      (Distinct single) := by
  have hheader : Effect.Ends (Filled single policies block done) writeHeader
      (fun _ => Filled single policies block done) (Distinct single) :=
    Effect.ends_modify fun w hw => hw.of_rows rfl
  refine hheader.bind fun _ => ends_moment.bind fun _ => ?_
  exact Effect.ends_modify fun w hw => hw.append hblock hnew hpolicy hsingle rfl

theorem ends_runBlock {arm policy : String} (hnew : (arm, policy) ∉ done) (hpolicy : policy ∈ policies)
    (hsingle : single → policies.length ≤ 1) :
    Effect.Ends (Filled single policies block done) (runBlock env inv block arm policy)
      (fun _ => Filled single policies block (done ++ [(arm, policy)])) (Distinct single) := by
  have hcheck : Effect.Ends (Filled single policies block done) (checkPolicy policy)
      (fun _ => Filled single policies block done) (Distinct single) := by
    unfold checkPolicy
    split_ifs
    · exact Effect.ends_pure fun _ => id
    · exact Effect.ends_throw fun _ => Filled.toDistinct
  refine hcheck.bind fun _ => ends_moment.bind fun _ => Effect.ends_bind_get fun w => ?_
  refine Effect.Ends.weaken ?_ fun _ hw => hw.2
  refine Effect.Ends.bind (ends_appendBlockRow ?_ ?_ ?_ hsingle) fun _ => ends_moment
  · rfl
  · exact hnew
  · exact hpolicy

theorem nodup_balancedBlockOrder {rng : Shuffle} {planSeed : ℕ} {arms order : List String}
    (hnodup : arms.Nodup) (h : balancedBlockOrder rng planSeed arms block = .ok order) :
    order.Nodup := by
  have hperm := rng.perm planSeed arms
  by_cases hne : arms = []
  · subst hne
    rw [balancedBlockOrder] at h
    dsimp only at h
    rw [if_pos (by rw [seededPermutation, hperm.length_eq]; rfl)] at h
    cases h
  · rw [balancedBlockOrder_eq hne] at h
    cases h
    exact List.nodup_rotate.2 (hperm.nodup_iff.2 hnodup)

theorem nodup_policies (inv : Invocation) : inv.policies.Nodup := by
  unfold Invocation.policies
  split_ifs
  · decide
  · exact List.nodup_singleton _
  · exact inv.nodup_policyWords

/-- The pairs of the arms that are done with every policy. -/
def pairs (arms policies : List String) : List (String × String) :=
  arms.flatMap fun arm => policies.map fun policy => (arm, policy)

theorem notMem_of_nodup_append {α : Type} {before rest : List α} {x : α}
    (h : (before ++ x :: rest).Nodup) : x ∉ before :=
  fun hmem => List.disjoint_of_nodup_append h hmem List.mem_cons_self

/-- The arms of a block, one after another, and each under one policy after another. -/
theorem ends_runArms (hsingle : single → inv.policies.length ≤ 1) :
    Effect.Ends (Filled single inv.policies block []) (runArms env inv block)
      (fun _ => Filled single inv.policies (block + 1) []) (Distinct single) := by
  unfold runArms
  split
  · exact Effect.ends_throw fun _ => Filled.toDistinct
  · rename_i order horder
    have hnodup := nodup_balancedBlockOrder inv.nodup_arms horder
    have harms : Effect.Ends (Filled single inv.policies block (pairs [] inv.policies))
        (Effect.forEach (fun arm => Effect.forEach (runBlock env inv block arm) inv.policies) order)
        (fun _ => Filled single inv.policies block (pairs order inv.policies))
        (Distinct single) := by
      refine Effect.ends_forEach (fun before => Filled single inv.policies block
        (pairs before inv.policies)) fun armsBefore arm armsRest horder => ?_
      have harm := notMem_of_nodup_append (horder ▸ hnodup)
      have hstart : pairs armsBefore inv.policies =
          pairs armsBefore inv.policies ++ [].map fun policy => (arm, policy) := by
        rw [List.map_nil, List.append_nil]
      have hend : pairs (armsBefore ++ [arm]) inv.policies =
          pairs armsBefore inv.policies ++ inv.policies.map fun policy => (arm, policy) := by
        rw [pairs, List.flatMap_append, List.flatMap_singleton]
        rfl
      rw [hstart, hend]
      refine Effect.ends_forEach (fun before => Filled single inv.policies block
        (pairs armsBefore inv.policies ++ before.map fun policy => (arm, policy)))
        fun policiesBefore policy policiesRest hpolicies => ?_
      have hpolicy := notMem_of_nodup_append (hpolicies ▸ nodup_policies inv)
      rw [List.map_append, List.map_singleton, ← List.append_assoc]
      refine ends_runBlock ?_ (hpolicies ▸ by simp) hsingle
      simp only [pairs, List.mem_append, List.mem_flatMap, List.mem_map, Prod.mk.injEq]
      rintro (⟨other, hother, _, -, rfl, -⟩ | ⟨other, hother, -, rfl⟩)
      · exact harm hother
      · exact hpolicy hother
    refine harms.imp (fun _ w hw => ⟨hw.toDistinct, fun r hr => ?_⟩) fun _ => id
    -- whatever the block has, it is below the next one
    rcases hw.below r hr with hlt | ⟨heq, -⟩
    · exact .inl (Nat.lt_succ_of_lt hlt)
    · exact .inl (heq ▸ Nat.lt_succ_self _)

theorem ends_runBlocks (hsingle : single → inv.policies.length ≤ 1) (left : ℕ) :
    Effect.Ends (Filled single inv.policies block []) (runBlocks env inv left block)
      (fun _ => Distinct single) (Distinct single) := by
  induction left generalizing block with
  | zero => exact Effect.ends_pure fun _ => Filled.toDistinct
  | succ left ih =>
    refine Effect.ends_bind_get fun w => Effect.Ends.weaken ?_ fun _ hw => hw.2
    split_ifs
    · exact (ends_runArms hsingle).bind fun _ => ends_moment.bind fun _ => ih
    · exact Effect.ends_pure fun _ => Filled.toDistinct

/-- The number of the first block is above all that are there. -/
theorem lt_nextBlockId {row : Row} (hrow : row ∈ w.rows) : row.block < nextBlockId w.blocksCsv := by
  unfold World.rows at hrow
  cases hfile : w.blocksCsv with
  | none =>
    rw [hfile] at hrow
    cases hrow
  | some rows =>
    rw [hfile] at hrow
    exact Nat.lt_succ_of_le (Py.le_foldl_max_iff.2 (.inr ⟨_, List.mem_map_of_mem hrow, le_rfl⟩))

/-- One run, however it ends. -/
theorem preserves_cmdRun (hsingle : single → inv.policies.length ≤ 1) :
    Effect.Preserves (Distinct single) (cmdRun env inv) := by
  have hmoment : Effect.Preserves (Distinct single) (moment env) :=
    preserves_moment fun w w' hw hrows =>
      ⟨by rw [hrows]; exact hw.nodup, by rw [hrows]; exact hw.onePolicy⟩
  refine hmoment.bind fun _ => Effect.ends_bind_get fun w => ?_
  refine .bind (Effect.Ends.weaken (ends_runBlocks hsingle inv.blockCount) ?_) fun _ => hmoment
  rintro w' ⟨rfl, hw⟩
  exact ⟨hw, fun r hr => .inl (lt_nextBlockId hr)⟩

/-- Any history of runs. -/
theorem distinct_after {history : List Invocation}
    (h : ∀ inv ∈ history, single → inv.policies.length ≤ 1) :
    Distinct single (after env history) := by
  have hrun : ∀ (history : List Invocation) (w : World), Distinct single w →
      (∀ inv ∈ history, single → inv.policies.length ≤ 1) →
      Distinct single (history.foldl (fun w inv => (cmdRun env inv w).2) w) := by
    intro history
    induction history with
    | nil => exact fun w hw _ => hw
    | cons inv history ih =>
      intro w hw hall
      obtain ⟨hinv, hall⟩ := List.forall_mem_cons.1 hall
      exact ih _ ((preserves_cmdRun hinv).after hw) hall
  exact hrun history _ ⟨List.nodup_nil, fun _ r hr => by cases hr⟩ h

end Steps

/-! ### What the analysis reads -/

/-- A field that may be empty. -/
def optional (field : String) : Option String := if field = "" then none else some field

/-- The observation that `read_blocks` of the factorial analysis makes of a row. -/
def Row.observation (row : Row) : FactorialAnalysis.Observation ℚ :=
  { blockId := String.ofList (natDigits row.block)
    workload := row.workload
    metric := row.metric
    scheduler := row.scheduler
    value := row.value
    direction := optional row.direction
    policy := optional row.policy }

/-- The one that the scheduler-only analysis makes of it: it has no policy. -/
def Row.schedObservation (row : Row) : SchedAnalysis.Observation ℚ :=
  { blockId := String.ofList (natDigits row.block)
    workload := row.workload
    metric := row.metric
    scheduler := row.scheduler
    value := row.value
    direction := optional row.direction }

theorem optional_injective {a b : String} (h : optional a = optional b) : a = b := by
  unfold optional at h
  split_ifs at h with ha hb
  · rw [ha, hb]
  · exact Option.some.inj h

theorem blockId_injective {m n : ℕ}
    (h : String.ofList (natDigits m) = String.ofList (natDigits n)) : m = n := by
  rw [← digitsValue_natDigits m, String.ofList_injective h, digitsValue_natDigits]

/-- What tells more apart is without duplicates too. -/
theorem nodup_map_of_imp {α β γ : Type} {f : α → β} {g : α → γ} {xs : List α}
    (h : (xs.map f).Nodup) (himp : ∀ x ∈ xs, ∀ y ∈ xs, g x = g y → f x = f y) :
    (xs.map g).Nodup := by
  refine List.pairwise_map.2 ((List.pairwise_map.1 h).imp_of_mem fun {x y} hx hy hne heq => ?_)
  exact hne (himp x hx y hy heq)

/-- **No duplicates in `blocks.csv`.**  After any history of runs, each cut off anywhere, no two rows
have the same block, scheduler, workload, metric and policy; the analysis that reads the five
accepts the file, and so does the one that knows no policy when no run has more than one. -/
theorem blocks_distinct (env : Surroundings) (history : List Invocation) :
    ((after env history).rows.map Row.cell).Nodup ∧
    FactorialAnalysis.groupObservations ((after env history).rows.map Row.observation) =
      .ok (FactorialAnalysis.group ((after env history).rows.map Row.observation)) ∧
    ((∀ inv ∈ history, inv.policies.length ≤ 1) →
      SchedAnalysis.groupObservations ((after env history).rows.map Row.schedObservation) =
        .ok (SchedAnalysis.group ((after env history).rows.map Row.schedObservation))) := by
  have hdistinct : Distinct False (after env history) := distinct_after fun _ _ => False.elim
  have hplaces := hdistinct.nodup
  refine ⟨?_, ?_, fun hsingle => ?_⟩
  · refine nodup_map_of_imp hplaces fun r _ r' _ heq => ?_
    simp only [Row.cell, Prod.mk.injEq] at heq
    rw [Row.place, Row.place, heq.1, heq.2.1, heq.2.2.2.2]
  · rcases FactorialAnalysis.groupObservations_cases
      ((after env history).rows.map Row.observation) with ⟨-, hok⟩ | ⟨hdup, -⟩
    · exact hok
    · refine absurd ?_ hdup
      rw [List.map_map]
      refine nodup_map_of_imp hplaces fun r _ r' _ heq => ?_
      simp only [Function.comp_apply, FactorialAnalysis.Observation.cell, Row.observation,
        Prod.mk.injEq] at heq
      rw [Row.place, Row.place, blockId_injective heq.2.2.2, heq.2.1,
        optional_injective heq.2.2.1]
  · have hone : Distinct True (after env history) := distinct_after fun inv hinv _ => hsingle inv hinv
    rcases SchedAnalysis.groupObservations_cases
      ((after env history).rows.map Row.schedObservation) with ⟨-, hok⟩ | ⟨hdup, -⟩
    · exact hok
    · refine absurd ?_ hdup
      rw [List.map_map]
      refine nodup_map_of_imp hplaces fun r hr r' hr' heq => ?_
      simp only [Function.comp_apply, SchedAnalysis.Observation.cell, Row.schedObservation,
        Prod.mk.injEq] at heq
      have hblock := blockId_injective heq.2.2
      rw [Row.place, Row.place, hblock, heq.2.1, hone.onePolicy trivial r hr r' hr' hblock]

/-- A confirmatory run of two blocks under both policies. -/
def sampleRun : Invocation where
  scenario := "http"
  primaryMetric := "latency_p99_ms"
  primaryDirection := "lower-is-better"
  mode := .confirmatory
  protocolVersion := "v3"
  blockCount := 2
  planSeed := 7
  arms := ["eevdf", "scx_lavd"]
  policyWords := []
  nodup_arms := by decide
  nodup_policyWords := List.nodup_nil

/-- The tenth moment cuts the run off. -/
def cutOnce : Surroundings := ⟨fun n => n == 9, fun n => n, fun _ => true, keepOrder⟩

/-- The first run is cut off behind its third row, and the second one goes on with new blocks. -/
theorem blocks_distinct_cutOnce :
    (after cutOnce [sampleRun, sampleRun]).rows.map Row.block = [1, 1, 1, 2, 2, 2, 2, 3, 3, 3, 3] ∧
    ((after cutOnce [sampleRun, sampleRun]).rows.map Row.cell).Nodup ∧
    FactorialAnalysis.groupObservations
        ((after cutOnce [sampleRun, sampleRun]).rows.map Row.observation) =
      .ok (FactorialAnalysis.group
        ((after cutOnce [sampleRun, sampleRun]).rows.map Row.observation)) := by
  obtain ⟨hnodup, hgroups, -⟩ := blocks_distinct cutOnce [sampleRun, sampleRun]
  exact ⟨by decide +kernel, hnodup, hgroups⟩

end RunBlock

end LinuxSched
