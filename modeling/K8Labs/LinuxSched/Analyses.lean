import K8Labs.LinuxSched.FactorialAnalysis

/-!
# What both analyses guarantee

* `analyse_duplicates`: a measured cell that comes twice is refused, and in an accepted list every
  contrast takes the value of a cell from the one observation of it.
* `analyse_divisors_iff`: **no step-down divides by zero exactly when every family of tested
  contrasts fits its planned size or one of the first contrasts misses its critical value.**
-/

namespace LinuxSched

open Py

/-! ### One observation per cell -/

/-- The value is that of the only observation of the cell. -/
def FromOnly {O κ V : Type} [DecidableEq κ] (cell : O → κ) (value : O → V) (observations : List O)
    (c : κ) (v : Option V) : Prop :=
  ∃ obs, Dict.share cell observations c = [obs] ∧ v = some (value obs)

/-- In a list without duplicates, the values filed by block come from one observation each. -/
theorem fromOnly_index {O κ V : Type} [DecidableEq κ] {cell : O → κ} {block : O → String}
    {value : O → V} {observations chosen : List O} (hnodup : (observations.map cell).Nodup)
    (hsub : chosen.Sublist observations)
    (hcell : ∀ a ∈ chosen, ∀ b ∈ chosen, block a = block b → cell a = cell b) {b : String}
    (hb : b ∈ (Dict.index block value chosen).map Prod.fst) {c : κ}
    (hc : ∀ a ∈ chosen, block a = b → cell a = c) :
    FromOnly cell value observations c ((Dict.index block value chosen).lookup b) := by
  obtain ⟨obs, hobs, rfl⟩ := Dict.mem_keys_index.1 hb
  have hchosen : (chosen.map block).Nodup := by
    rw [List.Nodup, List.pairwise_map]
    have hpair : observations.Pairwise fun a b => cell a ≠ cell b := List.pairwise_map.1 hnodup
    refine (hpair.sublist hsub).imp_of_mem fun {a b} ha hb hne heq => ?_
    exact hne (hcell a ha b hb heq)
  rw [← hc obs hobs rfl, Dict.lookup_index hchosen hobs]
  exact ⟨obs, Dict.share_eq_singleton hnodup (hsub.subset hobs), rfl⟩

/-- Two elements of the list, at different places, stand in the relation. -/
def Repeats {O : Type} (same : O → O → Prop) (observations : List O) : Prop :=
  ∃ (i j : ℕ) (a b : O), i < j ∧ observations[i]? = some a ∧ observations[j]? = some b ∧ same a b

theorem not_nodup_of_repeats {O κ : Type} {same : O → O → Prop} {cell : O → κ}
    {observations : List O} (hsame : ∀ a b, same a b → cell a = cell b)
    (h : Repeats same observations) : ¬ (observations.map cell).Nodup := by
  obtain ⟨i, j, a, b, hij, ha, hb, hab⟩ := h
  intro hnodup
  have heq : (observations.map cell)[i]? = (observations.map cell)[j]? := by
    rw [List.getElem?_map, List.getElem?_map, ha, hb, Option.map_some, Option.map_some,
      hsame a b hab]
  obtain ⟨hj, -⟩ := List.getElem?_eq_some_iff.1 hb
  exact hij.ne ((List.getElem?_inj (by simpa using hij.trans hj) hnodup).1 heq)

variable {K : Type}

namespace SchedAnalysis

/-- Two observations of the same block, scheduler, workload, metric and direction. -/
structure SameCell (a b : Observation K) : Prop where
  blockId : a.blockId = b.blockId
  scheduler : a.scheduler = b.scheduler
  workload : a.workload = b.workload
  metric : a.metric = b.metric
  direction : a.direction = b.direction

/-- Every contrast lists a block once and takes both its values from the only observation of the
cell. -/
def CellsOnce (observations : List (Observation K)) : Prop :=
  ∀ key bySched, (key, bySched) ∈ group observations →
    ∀ scheduler values, (scheduler, values) ∈ bySched →
    let control := (bySched.lookup controlScheduler).getD []
    (sharedBlocks control values).Nodup ∧ ∀ block ∈ sharedBlocks control values,
      FromOnly Observation.cell Observation.value observations (key, controlScheduler, block)
        (control.lookup block) ∧
      FromOnly Observation.cell Observation.value observations (key, scheduler, block)
        (values.lookup block)

theorem fromOnly_blocksOf {observations : List (Observation K)}
    (hnodup : (observations.map Observation.cell).Nodup) {key : String × String × Option String}
    {scheduler block : String} (hb : block ∈ (blocksOf observations key scheduler).map Prod.fst) :
    FromOnly Observation.cell Observation.value observations (key, scheduler, block)
      ((blocksOf observations key scheduler).lookup block) := by
  refine fromOnly_index hnodup ((Dict.share_sublist _ _ _).trans (Dict.share_sublist _ _ _))
    ?_ hb ?_
  · intro a ha b hb heq
    rw [Dict.mem_share, Dict.mem_share] at ha hb
    simp [Observation.cell, ha, hb, heq]
  · intro a ha heq
    rw [Dict.mem_share, Dict.mem_share] at ha
    simp [Observation.cell, ha, heq]

theorem cellsOnce {observations : List (Observation K)}
    (hnodup : (observations.map Observation.cell).Nodup) : CellsOnce observations := by
  intro key bySched hkey scheduler values hvalues
  obtain ⟨-, rfl⟩ := mem_group.1 hkey
  obtain ⟨-, rfl⟩ := mem_schedulersOf.1 hvalues
  rw [lookup_schedulersOf]
  refine ⟨nodup_sharedBlocks Dict.nodup_keys_index, fun block hblock => ?_⟩
  obtain ⟨hcontrol, harm⟩ := mem_sharedBlocks.1 hblock
  exact ⟨fromOnly_blocksOf hnodup hcontrol, fromOnly_blocksOf hnodup harm⟩

variable [Field K] [LinearOrder K] {maths : Maths K} {settings : Settings K}

theorem analyse_of_repeats {observations : List (Observation K)}
    (h : Repeats SameCell observations) :
    ∃ message, analyse maths settings observations = .error ⟨.valueError, message⟩ := by
  have hnot : ¬ (observations.map Observation.cell).Nodup := not_nodup_of_repeats
    (fun a b hab => by
      simp [Observation.cell, Observation.key, hab.blockId, hab.scheduler, hab.workload,
        hab.metric, hab.direction]) h
  obtain ⟨hnodup, -⟩ | ⟨-, obs, -, herror⟩ := groupObservations_cases observations
  · exact absurd hnodup hnot
  · exact ⟨duplicateMessage obs, by rw [analyse, collect, herror]; rfl⟩

theorem nodup_of_analyse {observations : List (Observation K)} {result : AnalysisResult Label K}
    (h : analyse maths settings observations = .ok result) :
    (observations.map Observation.cell).Nodup := by
  obtain ⟨hnodup, -⟩ | ⟨-, obs, -, herror⟩ := groupObservations_cases observations
  · exact hnodup
  · rw [analyse, collect, herror] at h
    cases h

end SchedAnalysis

namespace FactorialAnalysis

/-- Two observations of the same block, scheduler, workload, metric, direction and policy. -/
structure SameCell (a b : Observation K) : Prop where
  blockId : a.blockId = b.blockId
  scheduler : a.scheduler = b.scheduler
  workload : a.workload = b.workload
  metric : a.metric = b.metric
  direction : a.direction = b.direction
  policy : a.policy = b.policy

/-- The values of a dictionary are those of the only observations of their cells. -/
def TakenOnce (observations : List (Observation K)) (key : GroupKey) (scheduler : String)
    (policy : Option String) (values : List (String × K)) : Prop :=
  ∀ block ∈ values.map Prod.fst, FromOnly Observation.cell Observation.value observations
    (key, scheduler, policy, block) (values.lookup block)

/-- Every contrast, under one policy or of both, lists a block once and takes its values from the
only observations of the cells. -/
def CellsOnce (observations : List (Observation K)) : Prop :=
  ∀ key bySched, (key, bySched) ∈ group observations →
    ∀ scheduler arm, (scheduler, arm) ∈ bySched →
    let control := (bySched.lookup controlScheduler).getD []
    (interactionBlocks control arm).Nodup ∧
    ∀ policy, (sharedBlocks (ofPolicy control policy) (ofPolicy arm policy)).Nodup ∧
      TakenOnce observations key controlScheduler policy (ofPolicy control policy) ∧
      TakenOnce observations key scheduler policy (ofPolicy arm policy)

theorem takenOnce_blocksOf {observations : List (Observation K)}
    (hnodup : (observations.map Observation.cell).Nodup) (key : GroupKey) (scheduler : String)
    (policy : Option String) : TakenOnce observations key scheduler policy
      (blocksOf observations key scheduler policy) := by
  intro block hb
  refine fromOnly_index hnodup ((Dict.share_sublist _ _ _).trans ((Dict.share_sublist _ _ _).trans
    (Dict.share_sublist _ _ _))) ?_ hb ?_
  · intro a ha b hb heq
    rw [Dict.mem_share, Dict.mem_share, Dict.mem_share] at ha hb
    simp [Observation.cell, ha, hb, heq]
  · intro a ha heq
    rw [Dict.mem_share, Dict.mem_share, Dict.mem_share] at ha
    simp [Observation.cell, ha, heq]

theorem nodup_interactionBlocks {control arm : ByPolicy K}
    (h : ((ofPolicy control unlimited).map Prod.fst).Nodup) :
    (interactionBlocks control arm).Nodup := by
  rw [interactionBlocks]
  split_ifs
  · exact (List.perm_insertionSort _ _).symm.nodup (h.filter _)
  · exact List.nodup_nil

theorem cellsOnce {observations : List (Observation K)}
    (hnodup : (observations.map Observation.cell).Nodup) : CellsOnce observations := by
  intro key bySched hkey scheduler arm harm
  obtain ⟨-, rfl⟩ := (mem_group observations).1 hkey
  obtain ⟨-, rfl⟩ := (mem_schedulersOf observations).1 harm
  have hpolicy : ∀ scheduler policy, ofPolicy (policiesOf observations key scheduler) policy =
      blocksOf observations key scheduler policy := fun _ _ => lookup_policiesOf observations
  have hkeys : ∀ scheduler policy,
      ((ofPolicy (policiesOf observations key scheduler) policy).map Prod.fst).Nodup := by
    intro scheduler policy
    rw [hpolicy]
    exact Dict.nodup_keys_index
  rw [lookup_schedulersOf]
  refine ⟨nodup_interactionBlocks (hkeys _ _), fun policy => ⟨nodup_sharedBlocks (hkeys _ _), ?_⟩⟩
  rw [hpolicy, hpolicy]
  exact ⟨takenOnce_blocksOf hnodup _ _ _, takenOnce_blocksOf hnodup _ _ _⟩

variable [Field K] [LinearOrder K] {maths : Maths K} {settings : Settings K}

theorem analyse_of_repeats {observations : List (Observation K)}
    (h : Repeats SameCell observations) :
    ∃ message, analyse maths settings observations = .error ⟨.valueError, message⟩ := by
  have hnot : ¬ (observations.map Observation.cell).Nodup := not_nodup_of_repeats
    (fun a b hab => by
      simp [Observation.cell, Observation.key, hab.blockId, hab.scheduler, hab.workload,
        hab.metric, hab.direction, hab.policy]) h
  obtain ⟨hnodup, -⟩ | ⟨-, obs, -, herror⟩ := groupObservations_cases observations
  · exact absurd hnodup hnot
  · exact ⟨duplicateMessage obs, by rw [analyse, collect, herror]; rfl⟩

theorem nodup_of_analyse {observations : List (Observation K)} {result : AnalysisResult Label K}
    (h : analyse maths settings observations = .ok result) :
    (observations.map Observation.cell).Nodup := by
  obtain ⟨hnodup, -⟩ | ⟨-, obs, -, herror⟩ := groupObservations_cases observations
  · exact hnodup
  · rw [analyse, collect, herror] at h
    cases h

end FactorialAnalysis

/-! ### Divisors -/

/-- The computation does not divide by zero. -/
def DividesSafely {α : Type} (x : Except Exc α) : Prop :=
  ∀ e, x = .error e → e.cls ≠ .zeroDivisionError

theorem DividesSafely.of_raises {α : Type} {x : Except Exc α}
    (h : Raises [.valueError, .overflowError, .indexError] x) : DividesSafely x := by
  intro e he hzero
  have hmem := h e he
  rw [hzero] at hmem
  simp at hmem

theorem DividesSafely.bind {α β : Type} {x : Except Exc α} {f : α → Except Exc β}
    (hx : DividesSafely x) (hf : ∀ a, x = .ok a → DividesSafely (f a)) :
    DividesSafely (x.bind f) := by
  cases x with
  | ok a => exact hf a rfl
  | error e => exact fun e' he => hx e' (by cases he; rfl)

theorem DividesSafely.map {α β : Type} {x : Except Exc α} {f : α → β} (hx : DividesSafely x) :
    DividesSafely (x.map f) := by
  cases x with
  | ok a => exact fun e he => by cases he
  | error e => exact fun e' he => hx e' (by cases he; rfl)

theorem DividesSafely.fold {α β : Type} {f : β → α → Except Exc β} {xs : List α}
    (h : ∀ b, ∀ x ∈ xs, DividesSafely (f b x)) (b : β) : DividesSafely (fold f b xs) := by
  induction xs generalizing b with
  | nil => exact fun e he => by cases he
  | cons x xs ih =>
    exact (h b x List.mem_cons_self).bind fun c _ =>
      ih (fun b x hx => h b x (List.mem_cons_of_mem _ hx)) c

section Raising

variable {L : Type} [Field K] [LinearOrder K] {maths : Maths K} {settings : Settings K}

theorem raises_tPpf (p : K) (d : ℕ) : Raises [.valueError] (tPpf maths p d) := by
  rw [tPpf]
  split
  · exact raises_error List.mem_cons_self
  · split
    · exact raises_error List.mem_cons_self
    · exact raises_ok _

theorem raises_orientedLogRatio (control arm : K) (lower : Bool) :
    Raises [.valueError, .overflowError, .indexError]
      (orientedLogRatio maths control arm lower) := by
  rw [orientedLogRatio]
  split
  · exact raises_error List.mem_cons_self
  · exact raises_ok _

omit [Field K] [LinearOrder K] in
theorem raises_exp (x : K) :
    Raises [.valueError, .overflowError, .indexError] (maths.exp x) :=
  (maths.exp_raises x).mono (by simp)

theorem raises_evaluate (label : L) (workload metric : String) (logs : List K) (effect : K)
    (descriptive : Bool) : Raises [.valueError, .overflowError, .indexError]
      (evaluate maths settings label workload metric logs effect descriptive) := by
  rw [evaluate]
  split_ifs
  · exact (raises_exp _).map
  · refine Raises.map ?_
    rw [bootstrapInterval]
    split
    · exact (raises_exp _).bind fun _ => (raises_exp _).bind fun _ => raises_ok _
    · exact raises_error (by simp)

theorem raises_verdict (alpha : K) (entry : Comparison L K) (boot : K × K) (decision : Decision) :
    Raises [.valueError, .overflowError, .indexError] (verdict maths alpha entry boot decision) :=
  ((raises_tPpf _ _).mono (by simp)).bind fun _ => (raises_exp _).bind fun _ =>
    (raises_exp _).bind fun _ => (raises_exp _).bind fun _ => raises_ok _

/-- After the first pass only the step-downs can divide by zero. -/
theorem dividesSafely_conclude {holmDecisions : List (Comparison L K) → Except Exc (List Decision)}
    {alpha : K} {items : List (Item L K)}
    (h : DividesSafely (holmDecisions ((Item.stats items).map Prod.fst))) :
    DividesSafely (conclude maths holmDecisions alpha items) :=
  h.bind fun _ _ => DividesSafely.bind
    (.of_raises (Raises.traverse fun _ _ => raises_verdict _ _ _ _)) fun _ _ _ he => by cases he

end Raising

section Families

variable {L : Type} [Field K] [LinearOrder K] (maths : Maths K) (alpha : K)

/-- The tested contrasts of the first pass. -/
def testedContrasts (items : List (Item L K)) : List (Comparison L K) :=
  ((Item.stats items).map Prod.fst).filter isTested

/-- The divisors of the two step-downs over a family of `m` planned contrasts. -/
def familyDivisors (tested : List (Comparison L K)) (m : ℕ) : List ℤ :=
  divisors (tPpf maths) (tested.map noEffectScore) (tested.map Comparison.df) alpha 2 m 0
      (scoreOrder K (tested.map noEffectScore)) ++
    divisors (tPpf maths) (tested.map tostScore) (tested.map Comparison.df) alpha 1 m 0
      (scoreOrder K (tested.map tostScore))

/-- Neither step-down uses up the planned family before the tested contrasts: there are no more of
these, or one of the first `m`, in the order of the statistic, misses the critical value of its
position. -/
def FamilyFits (tested : List (Comparison L K)) (m : ℕ) : Prop :=
  Fits (tPpf maths) (tested.map noEffectScore) (tested.map Comparison.df) alpha 2 m ∧
    Fits (tPpf maths) (tested.map tostScore) (tested.map Comparison.df) alpha 1 m

variable {maths alpha}

theorem familyDivisors_pos_iff {tested : List (Comparison L K)} {m : ℕ} :
    (∀ d ∈ familyDivisors maths alpha tested m, 0 < d) ↔ FamilyFits maths alpha tested m := by
  have hfits : ∀ score sided, 0 < sided →
      ((∀ d ∈ divisors (tPpf maths) (tested.map score) (tested.map Comparison.df) alpha sided m 0
        (scoreOrder K (tested.map score)), 0 < d) ↔
      Fits (tPpf maths) (tested.map score) (tested.map Comparison.df) alpha sided m) := by
    intro score sided hsided
    rw [fits_iff_rejects, ← length_scoreOrder (tested.map score)]
    simpa using divisors_pos_iff hsided (Nat.zero_le m)
  rw [familyDivisors, List.forall_mem_append, hfits _ _ two_pos, hfits _ _ one_pos, FamilyFits]

theorem FamilyFits.dividesSafely [IsStrictOrderedRing K] {tested : List (Comparison L K)} {m : ℕ}
    (h : FamilyFits maths alpha tested m) :
    DividesSafely (holmStepDown (tPpf maths) (tested.map noEffectScore)
      (tested.map Comparison.df) alpha 2 (some m)) ∧
    DividesSafely (holmStepDown (tPpf maths) (tested.map tostScore)
      (tested.map Comparison.df) alpha 1 (some m)) := by
  constructor
  · intro e he hzero
    exact (holmStepDown_zeroDivision_iff two_pos raises_tPpf).1 ⟨e, he, hzero⟩ h.1
  · intro e he hzero
    exact (holmStepDown_zeroDivision_iff one_pos raises_tPpf).1 ⟨e, he, hzero⟩ h.2

end Families

namespace SchedAnalysis

variable [Field K] [LinearOrder K] {maths : Maths K} {settings : Settings K}

theorem raises_collect (observations : List (Observation K)) :
    Raises [.valueError, .overflowError, .indexError] (collect maths settings observations) := by
  refine Raises.bind ?_ fun grouped => Raises.map (Raises.traverse fun entry _ => ?_)
  · obtain ⟨-, hok⟩ | ⟨-, obs, -, herror⟩ := groupObservations_cases observations
    · rw [hok]
      exact raises_ok _
    · rw [herror]
      exact raises_error List.mem_cons_self
  · rw [groupItems]
    dsimp only
    split
    · exact raises_ok _
    · refine Raises.traverse fun arm _ => ?_
      rw [armItem]
      split
      · exact raises_ok _
      · exact (Raises.traverse fun _ _ => raises_orientedLogRatio _ _ _).bind fun _ =>
          raises_evaluate _ _ _ _ _ _

/-- The family of the analysis fits. -/
theorem dividesSafely_analyse [IsStrictOrderedRing K] {observations : List (Observation K)}
    (h : ∀ items, collect maths settings observations = .ok items →
      FamilyFits maths settings.alpha (testedContrasts items) primaryContrasts) :
    DividesSafely (analyse maths settings observations) := by
  refine (DividesSafely.of_raises (raises_collect observations)).bind fun items hitems =>
    dividesSafely_conclude ?_
  obtain ⟨hnoEffect, htost⟩ := (h items hitems).dividesSafely
  rw [holmDecisions]
  split
  · exact fun e he => by cases he
  · exact hnoEffect.bind fun _ _ => htost.map

end SchedAnalysis

namespace FactorialAnalysis

variable [Field K] [LinearOrder K] {maths : Maths K} {settings : Settings K}

theorem raises_logRatios (lowerBetter : Bool) (control arm : List (String × K))
    (blocks : List String) : Raises [.valueError, .overflowError, .indexError]
      (logRatios maths lowerBetter control arm blocks) :=
  Raises.traverse fun _ _ => raises_orientedLogRatio _ _ _

theorem raises_policyItem (g : ArmGroup K) (scheduler : String) (contrast : ContrastKind)
    (family : String) (policy : Option String) (controlValues armValues : List (String × K)) :
    Raises [.valueError, .overflowError, .indexError]
      (policyItem maths settings g scheduler contrast family policy controlValues armValues) := by
  rw [policyItem]
  split
  · exact raises_ok _
  · exact (raises_logRatios _ _ _ _).bind fun _ => raises_evaluate _ _ _ _ _ _

theorem raises_armItems (g : ArmGroup K) (scheduler : String) (arm : ByPolicy K) :
    Raises [.valueError, .overflowError, .indexError]
      (armItems maths settings g scheduler arm) := by
  rw [armItems]
  split
  · refine Raises.map ?_
    rw [throttleItem]
    split
    · exact raises_ok _
    · exact raises_policyItem _ _ _ _ _ _ _
  · refine Raises.bind ?_ fun _ => Raises.map ?_
    · rw [schedulerItems]
      split
      · exact (raises_policyItem _ _ _ _ _ _ _).map
      · split
        · exact Raises.traverse fun _ _ => raises_policyItem _ _ _ _ _ _ _
        · exact raises_ok _
    · rw [interactionItems]
      split
      · dsimp only
        split
        · exact raises_ok _
        · refine Raises.bind (Raises.traverse fun _ _ => ?_) fun _ =>
            (raises_evaluate _ _ _ _ _ _).map
          exact (raises_orientedLogRatio _ _ _).bind fun _ =>
            (raises_orientedLogRatio _ _ _).map
      · exact raises_ok _

theorem raises_collect (observations : List (Observation K)) :
    Raises [.valueError, .overflowError, .indexError] (collect maths settings observations) := by
  refine Raises.bind ?_ fun grouped => Raises.map (Raises.traverse fun entry _ => ?_)
  · obtain ⟨-, hok⟩ | ⟨-, obs, -, herror⟩ := groupObservations_cases observations
    · rw [hok]
      exact raises_ok _
    · rw [herror]
      exact raises_error List.mem_cons_self
  · rw [groupItems]
    dsimp only
    split
    · exact raises_ok _
    · exact (Raises.traverse fun arm _ => raises_armItems _ _ _).map

/-- `FAMILY_SIZES.get(family, len(positions))`. -/
def familySize (entry : String × List ℕ) : ℕ :=
  (familySizes.lookup entry.1).getD entry.2.length

/-- The families of the analysis fit. -/
theorem dividesSafely_analyse [IsStrictOrderedRing K] {observations : List (Observation K)}
    (h : ∀ items, collect maths settings observations = .ok items →
      ∀ entry ∈ families (testedContrasts items),
        FamilyFits maths settings.alpha (members (testedContrasts items) entry.2)
          (familySize entry)) :
    DividesSafely (analyse maths settings observations) := by
  refine (DividesSafely.of_raises (raises_collect observations)).bind fun items hitems =>
    dividesSafely_conclude ?_
  rw [holmDecisions]
  split
  · exact fun e he => by cases he
  · refine DividesSafely.map (DividesSafely.fold (fun results entry hentry => ?_) _)
    obtain ⟨hnoEffect, htost⟩ := (h items hitems entry hentry).dividesSafely
    -- an empty family is not tested at all
    have hsome : ∀ {x : Except Exc (List Bool)}, DividesSafely x →
        DividesSafely (if (some (familySize entry)).getD 0 = 0 then .ok [] else x) := by
      intro x hx
      split
      · exact fun e he => by cases he
      · exact hx
    rw [decideFamily]
    exact (hsome hnoEffect).bind fun _ _ => (hsome htost).map

end FactorialAnalysis

section Divisors

variable [Field K] [LinearOrder K] [IsStrictOrderedRing K]

/-- **The divisors.**  Both analyses divide safely, with positive divisors at every position their
step-downs evaluate, exactly when every family of tested contrasts fits: the ten primary contrasts
of the one, the planned families of the other. -/
theorem analyse_divisors_iff (maths : Maths K) (settings : Settings K) :
    (∀ observations : List (SchedAnalysis.Observation K),
      (DividesSafely (SchedAnalysis.analyse maths settings observations) ∧
        ∀ items, SchedAnalysis.collect maths settings observations = .ok items →
          ∀ d ∈ familyDivisors maths settings.alpha (testedContrasts items)
            SchedAnalysis.primaryContrasts, 0 < d) ↔
      ∀ items, SchedAnalysis.collect maths settings observations = .ok items →
        FamilyFits maths settings.alpha (testedContrasts items)
          SchedAnalysis.primaryContrasts) ∧
    ∀ observations : List (FactorialAnalysis.Observation K),
      (DividesSafely (FactorialAnalysis.analyse maths settings observations) ∧
        ∀ items, FactorialAnalysis.collect maths settings observations = .ok items →
          ∀ entry ∈ FactorialAnalysis.families (testedContrasts items),
            ∀ d ∈ familyDivisors maths settings.alpha
              (FactorialAnalysis.members (testedContrasts items) entry.2)
              (FactorialAnalysis.familySize entry), 0 < d) ↔
      ∀ items, FactorialAnalysis.collect maths settings observations = .ok items →
        ∀ entry ∈ FactorialAnalysis.families (testedContrasts items),
          FamilyFits maths settings.alpha
            (FactorialAnalysis.members (testedContrasts items) entry.2)
            (FactorialAnalysis.familySize entry) := by
  refine ⟨fun observations => ⟨fun h items hitems => ?_, fun h => ⟨?_, fun items hitems => ?_⟩⟩,
    fun observations => ⟨fun h items hitems entry hentry => ?_, fun h => ⟨?_,
      fun items hitems entry hentry => ?_⟩⟩⟩
  · exact familyDivisors_pos_iff.1 (h.2 items hitems)
  · exact SchedAnalysis.dividesSafely_analyse h
  · exact familyDivisors_pos_iff.2 (h items hitems)
  · exact familyDivisors_pos_iff.1 (h.2 items hitems entry hentry)
  · exact FactorialAnalysis.dividesSafely_analyse h
  · exact familyDivisors_pos_iff.2 (h items hitems entry hentry)

/-- The observations of a scheduler in three blocks, the arms twice as good as the control. -/
def threeBlocks (scheduler : String) : List (SchedAnalysis.Observation ℚ) :=
  ["b1", "b2", "b3"].map fun block =>
    { blockId := block
      workload := "hackbench"
      metric := "throughput"
      scheduler := scheduler
      value := if scheduler = "eevdf" then 1 else 2
      direction := none }

/-- The control and eleven arms. -/
def elevenArms : List (SchedAnalysis.Observation ℚ) :=
  ["eevdf", "a", "b", "c", "d", "e", "f", "g", "h", "i", "j", "k"].flatMap threeBlocks

theorem analyse_elevenArms :
    SchedAnalysis.analyse roughMaths FactorialAnalysis.shortRun elevenArms =
      .error ⟨.zeroDivisionError, "float division by zero"⟩ := by
  decide +kernel

/-- What the criterion says about the eleven arms: their family does not fit. -/
theorem analyse_divisors_iff_eleven :
    ¬ ∀ items, SchedAnalysis.collect roughMaths FactorialAnalysis.shortRun elevenArms = .ok items →
      FamilyFits roughMaths FactorialAnalysis.shortRun.alpha (testedContrasts items)
        SchedAnalysis.primaryContrasts := by
  intro hfits
  obtain ⟨hsched, -⟩ := analyse_divisors_iff roughMaths FactorialAnalysis.shortRun
  exact ((hsched elevenArms).2 hfits).1 _ analyse_elevenArms rfl

/-- **Eleven rejections divide by zero.**  Eleven arms that are twice as good in every block have an
infinite statistic; the eleventh level is divided by `10 - 11 + 1`. -/
theorem analyse_divides_by_zero :
    SchedAnalysis.analyse roughMaths FactorialAnalysis.shortRun elevenArms =
      .error ⟨.zeroDivisionError, "float division by zero"⟩ ∧
    okAnd (SchedAnalysis.collect roughMaths FactorialAnalysis.shortRun elevenArms)
      (fun items => decide (0 ∈ familyDivisors roughMaths (1 / 20) (testedContrasts items)
        SchedAnalysis.primaryContrasts)) = true :=
  ⟨analyse_elevenArms, by decide +kernel⟩

end Divisors

section Duplicates

variable [Field K] [LinearOrder K]

/-- **A cell that is measured twice is refused**, and an accepted list contributes every cell at
most once to any contrast.  A cell is a block, scheduler, workload, metric and direction, in the
factorial analysis also a policy. -/
theorem analyse_duplicates (maths : Maths K) (settings : Settings K) :
    (∀ observations : List (SchedAnalysis.Observation K),
      (Repeats SchedAnalysis.SameCell observations →
        ∃ message, SchedAnalysis.analyse maths settings observations =
          .error ⟨.valueError, message⟩) ∧
      ∀ result, SchedAnalysis.analyse maths settings observations = .ok result →
        SchedAnalysis.CellsOnce observations) ∧
    ∀ observations : List (FactorialAnalysis.Observation K),
      (Repeats FactorialAnalysis.SameCell observations →
        ∃ message, FactorialAnalysis.analyse maths settings observations =
          .error ⟨.valueError, message⟩) ∧
      ∀ result, FactorialAnalysis.analyse maths settings observations = .ok result →
        FactorialAnalysis.CellsOnce observations :=
  ⟨fun _ => ⟨SchedAnalysis.analyse_of_repeats, fun _ h =>
      SchedAnalysis.cellsOnce (SchedAnalysis.nodup_of_analyse h)⟩,
    fun _ => ⟨FactorialAnalysis.analyse_of_repeats, fun _ h =>
      FactorialAnalysis.cellsOnce (FactorialAnalysis.nodup_of_analyse h)⟩⟩

/-- One observation, given twice. -/
def twice : List (SchedAnalysis.Observation ℚ) := List.replicate 2
  { blockId := "b1"
    workload := "hackbench"
    metric := "throughput"
    scheduler := "eevdf"
    value := 1
    direction := none }

/-- The observation given twice is refused; the control under two policies is measured once each. -/
theorem analyse_duplicates_twice :
    (∃ message, SchedAnalysis.analyse roughMaths FactorialAnalysis.shortRun twice =
      .error ⟨.valueError, message⟩) ∧
    FactorialAnalysis.CellsOnce FactorialAnalysis.limitedArm := by
  obtain ⟨hsched, hfactorial⟩ := analyse_duplicates roughMaths FactorialAnalysis.shortRun
  refine ⟨(hsched twice).1 ?_,
    (hfactorial FactorialAnalysis.limitedArm).2 _ FactorialAnalysis.analyse_limitedArm⟩
  exact ⟨0, 1, _, _, Nat.zero_lt_one, rfl, rfl, ⟨rfl, rfl, rfl, rfl, rfl⟩⟩

/-- **Other fields do matter.**  Two observations that share block, scheduler, workload and metric
are accepted when their policies differ. -/
theorem analyse_accepts_policies :
    (∃ a b, FactorialAnalysis.limitedArm[0]? = some a ∧ FactorialAnalysis.limitedArm[3]? = some b ∧
      a.blockId = b.blockId ∧ a.scheduler = b.scheduler ∧ a.workload = b.workload ∧
      a.metric = b.metric) ∧
    ∃ result, FactorialAnalysis.analyse roughMaths FactorialAnalysis.shortRun
      FactorialAnalysis.limitedArm = .ok result :=
  ⟨⟨_, _, rfl, rfl, rfl, rfl, rfl, rfl⟩, _, FactorialAnalysis.analyse_limitedArm⟩

end Duplicates

end LinuxSched
