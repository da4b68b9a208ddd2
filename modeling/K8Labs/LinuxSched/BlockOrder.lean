import K8Labs.LinuxSched.SampleSize
import Mathlib.Data.List.Rotate

/-!
# The order of the arms within the blocks

`balanced_block_order` of `research/linux-sched/experiments/lib.sh` rotates one seeded permutation
of the arms by the number of the block.  A position is balanced over a run when every arm is there
equally often.

* `balanced_iff_dvd` : the run is balanced **if and only if the number of arms divides the number of
  blocks**, from whatever block it starts.
* `balanced_frozen_iff` : so it is with every count that the sample-size plan freezes.  The plan
  rounds to a multiple of three, whatever the number of arms.
-/

namespace LinuxSched

namespace BlockOrder

open Py

/-! ### The order of a block -/

/-- `random.Random(seed).shuffle`. -/
structure Shuffle where
  shuffle : ℕ → List String → List String
  perm : ∀ seed arms, (shuffle seed arms).Perm arms

variable (rng : Shuffle) (planSeed : ℕ) (arms : List String)

/-- `seeded_permutation`. -/
def seededPermutation (seed : ℕ) : List String := rng.shuffle seed arms

/-- `balanced_block_order`. -/
def balancedBlockOrder (block : ℕ) : Except Exc (List String) :=
  let base := seededPermutation rng arms planSeed
  let n := base.length
  if n = 0 then .error ⟨.systemExit, "no scheduler arms configured"⟩
  else
    let rot := (block - 1) % n
    .ok ((List.range n).map fun i => base.getD ((i + rot) % n) "")

/-- The orders of the blocks of a run. -/
def runOrders (firstBlock blocks : ℕ) : Except Exc (List (List String)) :=
  Py.traverse (balancedBlockOrder rng planSeed arms) (List.range' firstBlock blocks)

/-- What stands at a position, block after block. -/
def column (orders : List (List String)) (position : ℕ) : List (Option String) :=
  orders.map fun order => order[position]?

/-- Every arm is at every position equally often. -/
def Balanced (orders : List (List String)) : Prop :=
  ∃ k, ∀ arm ∈ arms, ∀ position < arms.length, (column orders position).count (some arm) = k

/-! ### Rotation -/

section Rotation

variable {rng planSeed arms} {block firstBlock position blocks q r n : ℕ} {base : List String}

theorem balancedBlockOrder_eq (hne : arms ≠ []) :
    balancedBlockOrder rng planSeed arms block =
      .ok ((seededPermutation rng arms planSeed).rotate (block - 1)) := by
  have hlen : (seededPermutation rng arms planSeed).length ≠ 0 := by
    rw [seededPermutation, (rng.perm planSeed arms).length_eq]
    exact mt List.length_eq_zero_iff.1 hne
  rw [balancedBlockOrder]
  dsimp only
  rw [if_neg hlen]
  congr 1
  refine List.ext_getElem (by simp) fun i hi _ => ?_
  rw [List.length_map, List.length_range] at hi
  rw [List.getElem_map, List.getElem_range, List.getElem_rotate, Nat.add_mod_mod,
    List.getD_eq_getElem?_getD, List.getElem?_eq_getElem, Option.getD_some]

/-- Within one cycle a position goes through a rotation of the arms. -/
theorem column_rotate (hr : r ≤ base.length) (hposition : position < base.length)
    (hfirst : 1 ≤ firstBlock) :
    column ((List.range' firstBlock r).map fun block => base.rotate (block - 1)) position =
      ((base.rotate (position + (firstBlock - 1))).take r).map some := by
  refine List.ext_getElem ?_ fun i hi _ => ?_
  · simp [column, hr]
  · simp only [column, List.length_map, List.length_range'] at hi
    simp only [column, List.getElem_map, List.getElem_range', List.getElem_take, one_mul,
      List.getElem_rotate]
    have hindex : position + (firstBlock + i - 1) = i + (position + (firstBlock - 1)) := by omega
    rw [List.getElem?_rotate hposition, hindex, List.getElem?_eq_getElem]

/-- Whole cycles and a rest: every arm comes once in each cycle, and once more if it comes in the
rest. -/
theorem count_column (hnodup : base.Nodup) (hr : r ≤ base.length) (hposition : position < base.length)
    (hfirst : 1 ≤ firstBlock) {arm : String} (harm : arm ∈ base) :
    (column ((List.range' firstBlock (q * base.length + r)).map fun block =>
        base.rotate (block - 1)) position).count (some arm) =
      q + ((base.rotate (position + (firstBlock + q * base.length - 1))).take r).count arm := by
  induction q generalizing firstBlock with
  | zero =>
    simp only [Nat.zero_mul, Nat.zero_add, Nat.add_zero]
    rw [column_rotate hr hposition hfirst,
      List.count_map_of_injective _ _ (Option.some_injective _)]
  | succ q ih =>
    have hsplit : (q + 1) * base.length + r = base.length + (q * base.length + r) := by ring
    have hcycle : (column ((List.range' firstBlock base.length).map fun block =>
        base.rotate (block - 1)) position).count (some arm) = 1 := by
      rw [column_rotate le_rfl hposition hfirst,
        List.count_map_of_injective _ _ (Option.some_injective _),
        List.take_of_length_le (by simp)]
      exact List.count_eq_one_of_mem (List.nodup_rotate.2 hnodup) (List.mem_rotate.2 harm)
    have hnext : firstBlock + base.length + q * base.length - 1 =
        firstBlock + (q + 1) * base.length - 1 := by
      rw [Nat.succ_mul]
      omega
    rw [hsplit, ← List.range'_append_1, List.map_append, column, List.map_append, List.count_append]
    rw [column] at hcycle
    have hfirst' : 1 ≤ firstBlock + base.length := by omega
    have hrest := ih hfirst'
    rw [column] at hrest
    rw [hcycle, hrest, hnext]
    omega

end Rotation

/-! ### Balance -/

section Balance

variable {rng planSeed arms} {firstBlock blocks : ℕ} {orders : List (List String)}

theorem runOrders_eq_ok (hne : arms ≠ [])
    (h : runOrders rng planSeed arms firstBlock blocks = .ok orders) :
    orders = (List.range' firstBlock blocks).map fun block =>
      (seededPermutation rng arms planSeed).rotate (block - 1) := by
  have hblocks := traverse_eq_ok.1 h
  simp only [balancedBlockOrder_eq hne, Except.ok.injEq] at hblocks
  have hmap := List.forall₂_map_left_iff.2 hblocks
  rw [List.forall₂_eq_eq_eq] at hmap
  exact hmap.symm

/-- **When a run is balanced.** -/
theorem balanced_iff_dvd (hne : arms ≠ []) (hnodup : arms.Nodup) (hfirst : 1 ≤ firstBlock)
    (h : runOrders rng planSeed arms firstBlock blocks = .ok orders) :
    Balanced arms orders ↔ arms.length ∣ blocks := by
  have hperm : (seededPermutation rng arms planSeed).Perm arms := rng.perm planSeed arms
  obtain rfl := runOrders_eq_ok hne h
  generalize seededPermutation rng arms planSeed = base at hperm ⊢
  have hbase : base.Nodup := hperm.nodup_iff.2 hnodup
  have hlen : 0 < base.length := by
    rw [hperm.length_eq]
    exact List.length_pos_iff.2 hne
  have hr : blocks % base.length ≤ base.length := (Nat.mod_lt _ hlen).le
  rw [Balanced, ← hperm.length_eq]
  simp only [← hperm.mem_iff]
  rw [← Nat.div_add_mod' blocks base.length]
  constructor
  · rintro ⟨k, hk⟩
    rw [Nat.dvd_add_right (Nat.dvd_mul_left _ _), Nat.dvd_iff_mod_eq_zero, Nat.mod_mod]
    by_contra hrest
    -- the first arm of the rest comes once more than an arm that is not in it
    set q := blocks / base.length
    set r := blocks % base.length
    set rotated := base.rotate (0 + (firstBlock + q * base.length - 1)) with hrotated
    have hlength : rotated.length = base.length := List.length_rotate _ _
    have hrn : r < rotated.length := hlength ▸ Nat.mod_lt _ hlen
    have hdistinct : rotated.Nodup := List.nodup_rotate.2 hbase
    have hmore : (rotated.take r).count rotated[0] = 1 := by
      refine List.count_eq_one_of_mem (hdistinct.sublist (List.take_sublist _ _)) ?_
      exact List.mem_take_iff_getElem.2 ⟨0, by omega, rfl⟩
    have hnone : (rotated.take r).count rotated[r] = 0 := by
      refine List.count_eq_zero.2 fun hmem => ?_
      obtain ⟨i, hi, heq⟩ := List.mem_take_iff_getElem.1 hmem
      have := (hdistinct.getElem_inj_iff).1 heq
      omega
    have hin : ∀ (i : ℕ) (hi : i < rotated.length), rotated[i] ∈ base := fun i hi =>
      List.mem_rotate.1 (List.getElem_mem hi)
    have hfirstArm := hk _ (hin 0 (by omega)) 0 hlen
    have hlastArm := hk _ (hin r hrn) 0 hlen
    rw [count_column hbase hr hlen hfirst (hin _ _), ← hrotated, hmore] at hfirstArm
    rw [count_column hbase hr hlen hfirst (hin _ _), ← hrotated, hnone] at hlastArm
    omega
  · intro hdvd
    have hzero : blocks % base.length = 0 := by
      rwa [Nat.div_add_mod', Nat.dvd_iff_mod_eq_zero] at hdvd
    refine ⟨blocks / base.length, fun arm harm position hposition => ?_⟩
    rw [count_column hbase hr hposition hfirst harm, hzero, List.take_zero, List.count_nil,
      Nat.add_zero]

/-! ### The counts that the plan freezes -/

variable {maths : Maths ℚ} {observations : List (SchedAnalysis.Observation ℚ)}
  {planned : SampleSize.Plan} {scenario : SampleSize.Scenario}

/-- A frozen count is a multiple of three from six on. -/
theorem frozen_count (h : SampleSize.plan maths observations = .ok planned)
    (hscenario : scenario ∈ planned.scenarios) (hcount : scenario.confirmatoryBlocks = some blocks) :
    3 ∣ blocks ∧ 6 ≤ blocks := by
  obtain ⟨obs, -, hgroup⟩ := (SampleSize.mem_scenarios h).1 hscenario
  obtain ⟨contrasts, hscenario, -⟩ := SampleSize.planGroup_eq_ok hgroup
  obtain ⟨⟨hdvd, hfloor, -⟩, -⟩ := SampleSize.isLeast_confirmatoryBlocks hscenario hcount
  rw [SampleSize.balance] at hdvd
  rw [SampleSize.confirmatoryFloorBlocks] at hfloor
  omega

/-- What the rounding is for: three arms are always balanced. -/
theorem balanced_three (h : SampleSize.plan maths observations = .ok planned)
    (hscenario : scenario ∈ planned.scenarios) (hcount : scenario.confirmatoryBlocks = some blocks)
    (hthree : arms.length = 3) (hnodup : arms.Nodup) (hfirst : 1 ≤ firstBlock)
    (horders : runOrders rng planSeed arms firstBlock blocks = .ok orders) :
    Balanced arms orders := by
  have hne : arms ≠ [] := by
    rintro rfl
    cases hthree
  rw [balanced_iff_dvd hne hnodup hfirst horders, hthree]
  exact (frozen_count h hscenario hcount).1

/-- **When a frozen count is balanced**: the number of arms divides it. -/
theorem balanced_frozen_iff (h : SampleSize.plan maths observations = .ok planned)
    (hscenario : scenario ∈ planned.scenarios) (hcount : scenario.confirmatoryBlocks = some blocks)
    (hnodup : arms.Nodup) (hfirst : 1 ≤ firstBlock)
    (horders : runOrders rng planSeed arms firstBlock blocks = .ok orders) :
    Balanced arms orders ↔ arms.length ∣ blocks := by
  refine balanced_iff_dvd ?_ hnodup hfirst horders
  -- a run without arms dies at its first block, and there is one
  rintro rfl
  have hblocks := (frozen_count h hscenario hcount).2
  obtain ⟨order, horder⟩ := traverse_isOk.1 ⟨_, horders⟩ firstBlock
    (List.mem_range'_1.2 ⟨le_rfl, by omega⟩)
  have hempty : (seededPermutation rng [] planSeed).length = 0 := (rng.perm planSeed []).length_eq
  rw [balancedBlockOrder] at horder
  dsimp only at horder
  rw [if_pos hempty] at horder
  cases horder

end Balance

/-! ### Four arms -/

/-- A generator that leaves the arms as they are. -/
def keepOrder : Shuffle := ⟨fun _ arms => arms, fun _ arms => .refl arms⟩

def fourArms : List String := ["eevdf", "scx_bpfland", "scx_lavd", "scx_mavd"]

/-- The orders of six blocks. -/
def sixOrders : List (List String) :=
  (List.range' 1 6).map fun block => fourArms.rotate (block - 1)

theorem runOrders_fourArms : runOrders keepOrder 0 fourArms 1 6 = .ok sixOrders := by
  decide +kernel

/-- What the criterion says about the even pilot and four arms. -/
theorem balanced_frozen_iff_fourArms : Balanced fourArms sixOrders ↔ fourArms.length ∣ 6 := by
  obtain ⟨planned, hplanned, hcounts⟩ := SampleSize.plan_evenPilot
  obtain ⟨scenario, hscenarios, hcount⟩ := List.map_eq_singleton_iff.1 hcounts
  exact balanced_frozen_iff hplanned (by rw [hscenarios]; exact .head _) (Prod.mk.inj hcount).1
    (by decide) le_rfl runOrders_fourArms

/-- **Six blocks do not balance four arms.** -/
theorem not_balanced_fourArms : ¬ ∀ (observations : List (SchedAnalysis.Observation ℚ))
    (planned : SampleSize.Plan) (scenario : SampleSize.Scenario) (blocks firstBlock : ℕ)
    (arms : List String) (orders : List (List String)),
    SampleSize.plan roughMaths observations = .ok planned → scenario ∈ planned.scenarios →
    scenario.confirmatoryBlocks = some blocks → arms.Nodup → 1 ≤ firstBlock →
    runOrders keepOrder 0 arms firstBlock blocks = .ok orders → Balanced arms orders := by
  intro h
  obtain ⟨planned, hplanned, hcounts⟩ := SampleSize.plan_evenPilot
  obtain ⟨scenario, hscenarios, hcount⟩ := List.map_eq_singleton_iff.1 hcounts
  obtain ⟨k, hk⟩ := h _ planned scenario 6 1 fourArms sixOrders hplanned
    (by rw [hscenarios]; exact .head _) (Prod.mk.inj hcount).1 (by decide) le_rfl
    runOrders_fourArms
  -- the first arm opens the blocks 1 and 5, the third one only block 3
  have hfirst := hk "eevdf" (by decide) 0 (by decide)
  have hthird := hk "scx_lavd" (by decide) 0 (by decide)
  exact absurd (hfirst.trans hthird.symm) (by decide +kernel)

end BlockOrder

end LinuxSched
