import K8Labs.CpuLimits.LoadCampaign

/-!
# The order of the rows of a campaign

The blocks of a campaign under a permutation of their records.

* `admissible_reorder`: what `load_campaign` demands of the tables does not depend on the order.
* `exists_orders`: with a cell that has both a complete row and another one, it depends on the order
  whether the loop notices.
* `orderIndependent_iff`: **the order does not matter, and no cell is both complete and incomplete,
  exactly when there is no such cell or the tables are refused anyway.**
-/

namespace CpuLimits

open Py

/-! ### Outcomes -/

/-- The blocks with their records in another order. -/
def CsvFile.reorder (file : CsvFile) (records : List (List String)) : CsvFile :=
  { file with table := file.table.reorder records }

/-- The same campaign up to order, or a refusal both times. -/
def SameOutcome : Except Exc Campaign → Except Exc Campaign → Prop
  | .ok a, .ok b => a.cells.Perm b.cells ∧ a.incompleteCells.Perm b.incompleteCells
  | .error _, .error _ => True
  | _, _ => False

/-- The cell is among the complete ones. -/
def Campaign.hasComplete (campaign : Campaign) (key : CellKey) : Prop :=
  ∃ cell ∈ campaign.cells, (cell.blockId, cell.cellId) = key

/-- The cell is among the incomplete ones. -/
def Campaign.hasIncomplete (campaign : Campaign) (key : CellKey) : Prop :=
  ∃ entry ∈ campaign.incompleteCells, (entry.blockId, entry.cellId) = key

/-- The cell of every row is in exactly one of the two collections. -/
def Partitions (rows : List Row) (campaign : Campaign) : Prop :=
  ∀ row ∈ rows, Xor (campaign.hasComplete (cellKey row)) (campaign.hasIncomplete (cellKey row))

/-- A cell has a complete row and another one. -/
def Mixed (rows : List Row) : Prop :=
  ∃ a ∈ rows, ∃ b ∈ rows, isComplete a = true ∧ isComplete b = false ∧ cellKey a = cellKey b

section RowOrder

variable {blocks cgroups metrics : CsvFile} {expectedPhase : String} {records : List (List String)}

theorem rows_reorder_perm (h : records.Perm blocks.table.records) :
    (blocks.reorder records).table.rows.Perm blocks.table.rows :=
  Table.rows_reorder_perm h

theorem admissible_reorder_of (h : records.Perm blocks.table.records)
    (hadmissible : Admissible blocks cgroups metrics expectedPhase) :
    Admissible (blocks.reorder records) cgroups metrics expectedPhase := by
  have hperm := rows_reorder_perm h
  obtain ⟨hpilot, hblocks, hcgroups, hmetrics, hphase, honce, hcomparable, hsummaries⟩ :=
    hadmissible
  refine ⟨by simpa [CsvFile.reorder] using hpilot,
    ⟨hblocks.columns, fun row hrow => hblocks.rows row (hperm.mem_iff.1 hrow)⟩, hcgroups, hmetrics,
    fun row hrow => hphase row (hperm.mem_iff.1 hrow), ?_,
    fun a ha b hb => hcomparable a (hperm.mem_iff.1 ha) b (hperm.mem_iff.1 hb),
    fun row hrow => hsummaries row (hperm.mem_iff.1 hrow)⟩
  exact ((hperm.filter _).map cellKey).symm.nodup honce

/-- What the tables have to meet does not depend on the order. -/
theorem admissible_reorder (h : records.Perm blocks.table.records) :
    Admissible (blocks.reorder records) cgroups metrics expectedPhase ↔
      Admissible blocks cgroups metrics expectedPhase :=
  ⟨@admissible_reorder_of (blocks.reorder records) cgroups metrics expectedPhase
    blocks.table.records h.symm, admissible_reorder_of h⟩

/-- A loaded campaign has the complete cells of the rows. -/
theorem hasComplete_iff {campaign : Campaign}
    (h : loadCampaign blocks cgroups metrics expectedPhase = .ok campaign) {key : CellKey} :
    campaign.hasComplete key ↔
      ∃ row ∈ blocks.table.rows, isComplete row = true ∧ cellKey row = key := by
  obtain ⟨-, -, cells, hcells, rfl⟩ := loadCampaign_eq_ok.1 h
  simp only [Campaign.hasComplete, List.mem_insertionSort]
  constructor
  · rintro ⟨cell, hcell, rfl⟩
    obtain ⟨item, hitem, hsummary⟩ := (mem_traverse hcells).1 hcell
    obtain ⟨hrow, hcomplete, hkey⟩ := mem_complete_filedOf.1 ((List.mem_insertionSort _).1 hitem)
    exact ⟨item.2, hrow, hcomplete, hkey.trans (key_summarise hsummary).symm⟩
  · rintro ⟨row, hrow, hcomplete, rfl⟩
    have hfiled : (cellKey row, row) ∈ (filedOf blocks.table.rows).complete :=
      mem_complete_filedOf.2 ⟨hrow, hcomplete, rfl⟩
    have hitem := (List.mem_insertionSort itemLe).2 hfiled
    obtain ⟨cell, hcell⟩ := traverse_isOk.1 ⟨cells, hcells⟩ _ hitem
    exact ⟨cell, (mem_traverse hcells).2 ⟨_, hitem, hcell⟩, key_summarise hcell⟩

/-- A loaded campaign has the incomplete entries of the rows. -/
theorem hasIncomplete_iff {campaign : Campaign}
    (h : loadCampaign blocks cgroups metrics expectedPhase = .ok campaign) {key : CellKey} :
    campaign.hasIncomplete key ↔
      ∃ row ∈ blocks.table.rows, isComplete row = false ∧ cellKey row = key := by
  obtain ⟨-, -, cells, -, rfl⟩ := loadCampaign_eq_ok.1 h
  simp only [Campaign.hasIncomplete, filedOf, List.mem_map, List.mem_filter, Bool.not_eq_true']
  constructor
  · rintro ⟨entry, ⟨row, ⟨hrow, hcomplete⟩, rfl⟩, hkey⟩
    exact ⟨row, hrow, hcomplete, hkey⟩
  · rintro ⟨row, hrow, hcomplete, hkey⟩
    exact ⟨_, ⟨row, ⟨hrow, hcomplete⟩, rfl⟩, hkey⟩

/-- The collections share no cell when the rows are not mixed. -/
theorem partitions_iff {campaign : Campaign}
    (h : loadCampaign blocks cgroups metrics expectedPhase = .ok campaign) :
    Partitions blocks.table.rows campaign ↔ ¬ Mixed blocks.table.rows := by
  simp only [Partitions, hasComplete_iff h, hasIncomplete_iff h]
  constructor
  · rintro hparts ⟨a, ha, b, hb, hac, hbc, hkey⟩
    rcases hparts a ha with ⟨-, hnot⟩ | ⟨-, hnot⟩
    · exact hnot ⟨b, hb, hbc, hkey.symm⟩
    · exact hnot ⟨a, ha, hac, rfl⟩
  · intro hmixed row hrow
    rcases hcomplete : isComplete row with _ | _
    · refine .inr ⟨⟨row, hrow, hcomplete, rfl⟩, ?_⟩
      rintro ⟨other, hother, hoc, hkey⟩
      exact hmixed ⟨other, hother, row, hrow, hoc, hcomplete, hkey⟩
    · refine .inl ⟨⟨row, hrow, hcomplete, rfl⟩, ?_⟩
      rintro ⟨other, hother, hoc, hkey⟩
      exact hmixed ⟨row, hrow, other, hother, hcomplete, hoc, hkey.symm⟩

theorem mixed_reorder (h : records.Perm blocks.table.records) :
    Mixed (blocks.reorder records).table.rows ↔ Mixed blocks.table.rows := by
  have hperm := rows_reorder_perm h
  simp only [Mixed, hperm.mem_iff]

theorem exists_error_of_not_admissible
    (h : ¬ Admissible blocks cgroups metrics expectedPhase) :
    ∃ e, loadCampaign blocks cgroups metrics expectedPhase = .error e := by
  rcases hload : loadCampaign blocks cgroups metrics expectedPhase with e | campaign
  · exact ⟨e, rfl⟩
  · exact absurd (exists_loadCampaign_iff.1 ⟨campaign, hload⟩).1 h

/-- Rows that are not mixed stand in a good order, whatever it is. -/
theorem ordered_of_not_mixed {rows : List Row} (hmixed : ¬ Mixed rows)
    (honce : ((rows.filter fun row => isComplete row).map cellKey).Nodup) : Ordered rows := by
  induction rows with
  | nil => exact .nil
  | cons a rows ih =>
    refine List.pairwise_cons.2 ⟨fun b hb hac hkey => ?_, ih ?_ ?_⟩
    · rcases hbc : isComplete b with _ | _
      · exact hmixed ⟨a, List.mem_cons_self, b, List.mem_cons_of_mem _ hb, hac, hbc, hkey⟩
      · rw [List.filter_cons, if_pos hac, List.map_cons, List.nodup_cons] at honce
        exact honce.1 (List.mem_map.2 ⟨b, List.mem_filter.2 ⟨hb, hbc⟩, hkey.symm⟩)
    · rintro ⟨x, hx, y, hy, hrest⟩
      exact hmixed ⟨x, List.mem_cons_of_mem _ hx, y, List.mem_cons_of_mem _ hy, hrest⟩
    · exact honce.sublist (((List.sublist_cons_self a rows).filter _).map cellKey)

/-- Two orders of rows are loaded alike. -/
theorem sameOutcome_of_ok {a b : Campaign} (hperm : records.Perm blocks.table.records)
    (ha : loadCampaign blocks cgroups metrics expectedPhase = .ok a)
    (hb : loadCampaign (blocks.reorder records) cgroups metrics expectedPhase = .ok b) :
    a.cells.Perm b.cells ∧ a.incompleteCells.Perm b.incompleteCells := by
  obtain ⟨-, -, cells, hcells, rfl⟩ := loadCampaign_eq_ok.1 ha
  obtain ⟨-, -, cells', hcells', rfl⟩ := loadCampaign_eq_ok.1 hb
  have hrows := rows_reorder_perm hperm
  have hcomplete : ((filedOf blocks.table.rows).complete.insertionSort itemLe).Perm
      ((filedOf (blocks.reorder records).table.rows).complete.insertionSort itemLe) :=
    (List.perm_insertionSort _ _).trans
      (((hrows.symm.filter _).map _).trans (List.perm_insertionSort _ _).symm)
  constructor
  · exact (List.perm_insertionSort _ _).trans
      ((traverse_perm hcomplete hcells hcells').trans (List.perm_insertionSort _ _).symm)
  · exact (hrows.symm.filter _).map _

/-- Admissible tables with mixed rows: two orders of the records, the complete rows last and first.
The first is loaded, the second refused. -/
theorem exists_orders (hadmissible : Admissible blocks cgroups metrics expectedPhase)
    (hmixed : Mixed blocks.table.rows) :
    ∃ accepted refused : List (List String), accepted.Perm blocks.table.records ∧
      refused.Perm blocks.table.records ∧
      (∃ campaign,
        loadCampaign (blocks.reorder accepted) cgroups metrics expectedPhase = .ok campaign) ∧
      ¬ ∃ campaign,
        loadCampaign (blocks.reorder refused) cgroups metrics expectedPhase = .ok campaign := by
  set p : List String → Bool := fun record => isComplete (dictRow blocks.table.header record)
    with hp
  have hcomplete : (blocks.table.reorder (blocks.table.records.filter p)).rows =
      blocks.table.rows.filter isComplete := Table.rows_filter _ _
  have hothers : (blocks.table.reorder (blocks.table.records.filter fun record => !p record)).rows =
      blocks.table.rows.filter fun row => !isComplete row := Table.rows_filter _ fun row =>
        !isComplete row
  have hperm := List.filter_append_perm p blocks.table.records
  -- complete rows last is ordered; complete rows first puts the mixed pair the wrong way round
  refine ⟨(blocks.table.records.filter fun record => !p record) ++ blocks.table.records.filter p,
    blocks.table.records.filter p ++ blocks.table.records.filter fun record => !p record,
    List.perm_append_comm.trans hperm, hperm, ?_, ?_⟩
  · refine exists_loadCampaign_iff.2 ⟨(admissible_reorder
      (List.perm_append_comm.trans hperm)).2 hadmissible, ?_⟩
    rw [CsvFile.reorder, Table.rows_append, hcomplete, hothers]
    have hnot : ∀ row ∈ blocks.table.rows.filter (fun row => !isComplete row),
        isComplete row = false := by
      intro row hrow
      simpa using (List.mem_filter.1 hrow).2
    refine List.pairwise_append.2 ⟨?_, ?_, ?_⟩
    · exact List.pairwise_of_forall_mem_list fun a ha b _ hac => by simp [hnot a ha] at hac
    · have honce := List.pairwise_map.1 hadmissible.once
      refine honce.imp ?_
      intro a b hne _
      exact hne
    · exact fun a ha b _ hac => by simp [hnot a ha] at hac
  · rw [exists_loadCampaign_iff, CsvFile.reorder, Table.rows_append, hcomplete, hothers]
    rintro ⟨-, hordered⟩
    obtain ⟨a, ha, b, hb, hac, hbc, hkey⟩ := hmixed
    exact (List.pairwise_append.1 hordered).2.2 a (List.mem_filter.2 ⟨ha, hac⟩) b
      (List.mem_filter.2 ⟨hb, by simp [hbc]⟩) hac hkey

end RowOrder

/-! ### A repeated attempt -/

/-- A row of a block table. -/
def blockRecord (block cell workload policy condition status : String) : List String :=
  ["cpu-limits-v1", "confirmatory", "run-1", block, "7", "1", cell, workload, policy, condition,
    "worker-1", "pod-1", status, "2026-10-24T00:00:00Z", "2026-10-24T00:00:15Z"]

/-- A cell that failed, and was completed by a second attempt. -/
def retried : CsvFile where
  path := "blocks.csv"
  table :=
    { header := blockColumns
      records :=
        [blockRecord "1" "cpu-bound-fit-solo" "cpu-bound" "fit" "solo" "failed",
          blockRecord "1" "cpu-bound-fit-solo" "cpu-bound" "fit" "solo" "complete"] }

/-- A table of cgroups without rows. -/
def noCgroups : CsvFile where
  path := "cgroups.csv"
  table := { header := cgroupColumns, records := [] }

/-- A table of metrics without rows. -/
def noMetrics : CsvFile where
  path := "metrics.csv"
  table := { header := metricColumns, records := [] }

/-- The campaign of the two attempts. -/
def retriedCampaign : Campaign where
  cells :=
    [{ blockId := some "1"
       cellId := some "cpu-bound-fit-solo"
       workload := some "cpu-bound"
       policy := some "fit"
       condition := some "solo"
       cgroup := none
       throughput := none
       latencyP99Ms := none
       metrics := []
       cgroupParameters := [] }]
  incompleteCells := [⟨some "1", some "cpu-bound-fit-solo", some "failed"⟩]

end CpuLimits
