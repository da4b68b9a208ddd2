import K8Labs.CpuLimits.LoadCampaign
import K8Labs.Python.Instant

/-!
# The last sample of a metric

`_metric_values` of `analyze.py` compares time stamps as texts, and `utc_now` of `run-cell.py` writes
no fraction for a whole second.

* `Kept.of_fold` : of every metric a sample with the greatest text is kept.
* `isLatest_iff` : every sample that is kept is a latest one exactly when no metric has, in its last
  second, both a sample at the whole second and one with a fraction.
-/

namespace CpuLimits

open Py

variable {stamp : Row → Instant} {rows rest : List Row} {row : Row} {metric : String}
  {values values' : List (String × String × ℚ)}

/-- The time stamps of the rows are written by `utc_now`. -/
def Stamped (stamp : Row → Instant) (rows : List Row) : Prop :=
  ∀ row ∈ rows, row.field "timestamp" = some (stamp row).utcNow

/-- A row of a metric. -/
structure OfMetric (rows : List Row) (metric : String) (row : Row) : Prop where
  mem : row ∈ rows
  name : row.stripped "metric" = .ok metric

/-- What is kept of a row. -/
structure SampleOf (stamp : Row → Instant) (metric : String) (row : Row) (entry : String × ℚ) :
    Prop where
  text : entry.1 = (stamp row).utcNow
  value : number (row.field "value") ("metric " ++ metric) = .ok entry.2

/-- The sample of a row with a latest time stamp. -/
def IsLatest (stamp : Row → Instant) (rows : List Row) (metric : String) (entry : String × ℚ) :
    Prop :=
  ∃ row, OfMetric rows metric row ∧ SampleOf stamp metric row entry ∧
    ∀ other, OfMetric rows metric other → (stamp other).time ≤ (stamp row).time

/-- In the last second of a metric there is no sample with a fraction beside one without. -/
def WholeAlone (stamp : Row → Instant) (rows : List Row) (metric : String) : Prop :=
  ∀ row other, OfMetric rows metric row → OfMetric rows metric other →
    (∀ third, OfMetric rows metric third → (stamp third).seconds ≤ (stamp row).seconds) →
    (stamp other).seconds = (stamp row).seconds → (stamp row).microsecond = 0 →
      (stamp other).microsecond = 0

/-! ### The loop -/

/-- What the loop has kept of some rows: for every metric a sample with the greatest text. -/
structure Kept (stamp : Row → Instant) (rows : List Row)
    (values : List (String × String × ℚ)) : Prop where
  greatest : ∀ metric, ∀ entry ∈ values.lookup metric,
    ∃ row, OfMetric rows metric row ∧ SampleOf stamp metric row entry ∧
      ∀ other, OfMetric rows metric other → (stamp other).utcNow ≤ (stamp row).utcNow
  all : ∀ metric row, OfMetric rows metric row → (values.lookup metric).isSome = true

theorem kept_nil : Kept stamp [] [] where
  greatest _ _ h := nomatch h
  all _ _ h := absurd h.mem List.not_mem_nil

theorem ofMetric_concat {other : Row} : OfMetric (rows ++ [row]) metric other ↔
    OfMetric rows metric other ∨ other = row ∧ row.stripped "metric" = .ok metric := by
  constructor
  · rintro ⟨hmem, hname⟩
    rcases List.mem_append.1 hmem with hmem | hmem
    · exact .inl ⟨hmem, hname⟩
    · obtain rfl := List.mem_singleton.1 hmem
      exact .inr ⟨rfl, hname⟩
  · rintro (⟨hmem, hname⟩ | ⟨rfl, hname⟩)
    · exact ⟨List.mem_append_left _ hmem, hname⟩
    · exact ⟨List.mem_append_right _ List.mem_cons_self, hname⟩

/-- A row that the loop takes: its sample is kept unless the one that is there has a greater text. -/
theorem keepLatest_eq_ok (hstamp : row.field "timestamp" = some (stamp row).utcNow)
    (h : keepLatest values row = .ok values') :
    ∃ metric entry, row.stripped "metric" = .ok metric ∧ SampleOf stamp metric row entry ∧
      ((∀ old ∈ values.lookup metric, old.1 ≤ entry.1) ∧
          values' = Dict.update metric (fun _ => entry) values ∨
        (∃ old ∈ values.lookup metric, entry.1 < old.1) ∧ values' = values) := by
  obtain ⟨metric, hmetric, h⟩ := bind_eq_ok.1 h
  have hname : metric ≠ "" := by
    rintro rfl
    rw [if_pos rfl] at h
    cases h
  rw [if_neg hname] at h
  obtain ⟨text, htext, h⟩ := bind_eq_ok.1 h
  obtain ⟨value, hvalue, h⟩ := bind_eq_ok.1 h
  have hwritten : row.stripped "timestamp" = .ok (stamp row).utcNow := by
    rw [Row.stripped, hstamp]
    exact congrArg Except.ok (Instant.strip_utcNow _)
  rw [hwritten] at htext
  cases htext
  refine ⟨metric, ((stamp row).utcNow, value), hmetric, ⟨rfl, hvalue⟩, ?_⟩
  cases hold : values.lookup metric with
  | none =>
    rw [hold] at h
    cases h
    exact .inl ⟨fun _ hnone => absurd hnone (Option.not_mem_none _), rfl⟩
  | some old =>
    rw [hold, Option.all_some] at h
    split_ifs at h with hle
    · cases h
      refine .inl ⟨?_, rfl⟩
      rintro _ ⟨⟩
      exact of_decide_eq_true hle
    · cases h
      exact .inr ⟨⟨old, rfl, not_le.1 fun hle' => hle (decide_eq_true hle')⟩, rfl⟩

theorem Kept.keepLatest (h : Kept stamp rows values)
    (hstamp : row.field "timestamp" = some (stamp row).utcNow)
    (hkeep : keepLatest values row = .ok values') : Kept stamp (rows ++ [row]) values' := by
  obtain ⟨metric, entry, hmetric, hsample, ⟨hgreater, rfl⟩ | ⟨⟨old, hold, hless⟩, rfl⟩⟩ :=
    keepLatest_eq_ok hstamp hkeep
  · constructor
    · intro name found hfound
      rw [Dict.lookup_update] at hfound
      split_ifs at hfound with hname
      · -- the new sample, which no other exceeds
        cases hfound
        subst hname
        refine ⟨row, ofMetric_concat.2 (.inr ⟨rfl, hmetric⟩), hsample, fun other hother => ?_⟩
        rcases ofMetric_concat.1 hother with hother | ⟨rfl, -⟩
        · obtain ⟨old, hold⟩ := Option.isSome_iff_exists.1 (h.all name other hother)
          obtain ⟨kept, -, hkept, hmax⟩ := h.greatest name old hold
          calc (stamp other).utcNow ≤ (stamp kept).utcNow := hmax other hother
            _ = old.1 := hkept.text.symm
            _ ≤ entry.1 := hgreater old hold
            _ = (stamp row).utcNow := hsample.text
        · exact le_rfl
      · obtain ⟨kept, hkept, hof, hmax⟩ := h.greatest name found hfound
        refine ⟨kept, ofMetric_concat.2 (.inl hkept), hof, fun other hother => ?_⟩
        rcases ofMetric_concat.1 hother with hother | ⟨-, hother⟩
        · exact hmax other hother
        · rw [hmetric] at hother
          cases hother
          exact absurd rfl hname
    · intro name other hother
      rw [Dict.lookup_update]
      split_ifs with hname
      · rfl
      · rcases ofMetric_concat.1 hother with hother | ⟨-, hother⟩
        · exact h.all name other hother
        · rw [hmetric] at hother
          cases hother
          exact absurd rfl hname
  · constructor
    · intro name found hfound
      obtain ⟨kept, hkept, hof, hmax⟩ := h.greatest name found hfound
      refine ⟨kept, ofMetric_concat.2 (.inl hkept), hof, fun other hother => ?_⟩
      rcases ofMetric_concat.1 hother with hother | ⟨rfl, hother⟩
      · exact hmax other hother
      · rw [hmetric] at hother
        cases hother
        cases Option.mem_unique hfound hold
        rw [← hsample.text, ← hof.text]
        exact hless.le
    · intro name other hother
      rcases ofMetric_concat.1 hother with hother | ⟨-, hother⟩
      · exact h.all name other hother
      · rw [hmetric] at hother
        cases hother
        rw [Option.mem_def.1 hold]
        rfl

/-- **Of every metric a sample with the greatest text is kept.** -/
theorem Kept.of_fold (h : Kept stamp rows values) (hstamped : Stamped stamp rest)
    (hfold : fold CpuLimits.keepLatest values rest = .ok values') :
    Kept stamp (rows ++ rest) values' := by
  induction rest generalizing rows values with
  | nil =>
    cases hfold
    rwa [List.append_nil]
  | cons row rest ih =>
    obtain ⟨hrow, hrest⟩ := List.forall_mem_cons.1 hstamped
    obtain ⟨next, hnext, hfold⟩ := bind_eq_ok.1 hfold
    simpa using ih (h.keepLatest hrow hnext) hrest hfold

/-! ### Text and time -/

/-- **Every sample that is kept is a latest one** exactly when no metric has in its last second a
sample with a fraction beside one without. -/
theorem isLatest_iff (hstamped : Stamped stamp rows)
    (hfold : fold keepLatest [] rows = .ok values) :
    metricValues rows = .ok (values.map fun entry => (entry.1, entry.2.2)) ∧
    ((∀ metric, ∀ entry ∈ values.lookup metric, IsLatest stamp rows metric entry) ↔
      ∀ metric, WholeAlone stamp rows metric) := by
  have hkept : Kept stamp rows values := kept_nil.of_fold hstamped hfold
  refine ⟨by rw [metricValues, hfold]; rfl, ?_, ?_⟩
  · intro hlatest metric row other hrow hother hlast hsecond hwhole
    obtain ⟨entry, hentry⟩ := Option.isSome_iff_exists.1 (hkept.all metric row hrow)
    obtain ⟨kept, -, hof, hgreatest⟩ := hkept.greatest metric entry hentry
    obtain ⟨latest, hmem, hsample, hmax⟩ := hlatest metric entry hentry
    by_contra hfraction
    have htext : (stamp row).utcNow ≤ (stamp latest).utcNow := by
      rw [← hsample.text, hof.text]
      exact hgreatest row hrow
    have htime := hmax other hother
    have hlimit := hlast latest hmem
    have hmicro := (stamp latest).microsecond_lt
    have hmicro' := (stamp other).microsecond_lt
    rw [← not_lt, Instant.utcNow_lt_iff, Instant.place, Instant.place, if_pos hwhole] at htext
    unfold Instant.time at htime
    split_ifs at htext <;> omega
  · intro halone metric entry hentry
    obtain ⟨row, hrow, hsample, hgreatest⟩ := hkept.greatest metric entry hentry
    refine ⟨row, hrow, hsample, fun other hother => ?_⟩
    by_contra hlater
    rw [not_le, Instant.time_lt_iff] at hlater
    have hlast : ∀ third, OfMetric rows metric third →
        (stamp third).seconds ≤ (stamp row).seconds := by
      intro third hthird
      by_contra hsecond
      exact absurd ((stamp row).utcNow_lt_iff (stamp third) |>.2 (.inl (not_le.1 hsecond)))
        (not_lt.2 (hgreatest third hthird))
    have hsecond := hlast other hother
    have htext := hgreatest other hother
    have hwhole := halone metric row other hrow hother hlast
    have hmicro := (stamp other).microsecond_lt
    rw [← not_lt, Instant.utcNow_lt_iff, Instant.place, Instant.place] at htext
    split_ifs at htext <;> omega

/-! ### A whole second -/

/-- Some microseconds after the beginning of a year. -/
def newYear (microsecond : ℕ) (h : microsecond < 10 ^ 6) : Instant :=
  ⟨2026, 1, 1, 0, 0, 0, microsecond, by decide, by decide, by decide, by decide, by decide,
    by decide, by decide, by decide, by decide, h⟩

/-- A row that `run-cell.py` writes. -/
def throughputRow (i : Instant) (value : String) : Row :=
  [("metric", some "throughput"), ("timestamp", some i.utcNow), ("value", some value)]

/-- The first sample is at the whole second, the second one later. -/
def newYearRows : List Row :=
  [throughputRow (newYear 0 (by decide)) "1", throughputRow (newYear 1 (by decide)) "2"]

/-- The instants of these rows. -/
def newYearStamp (row : Row) : Instant :=
  if row.field "value" = some "1" then newYear 0 (by decide) else newYear 1 (by decide)

theorem stamped_newYearRows : Stamped newYearStamp newYearRows :=
  List.forall_mem_cons.2 ⟨rfl, List.forall_mem_singleton.2 rfl⟩

/-- The sample at the whole second is kept, and the later one is not. -/
theorem earlier_sample_kept :
    Stamped newYearStamp newYearRows ∧
      (newYear 0 (by decide)).time < (newYear 1 (by decide)).time ∧
      metricValues newYearRows = .ok [("throughput", 1)] :=
  ⟨stamped_newYearRows, by decide, eq_of_okAnd (by decide +kernel)⟩

/-- Some microseconds after the first second of that year. -/
def secondLater (microsecond : ℕ) (h : microsecond < 10 ^ 6) : Instant :=
  { newYear microsecond h with second := 1, second_lt := by decide }

/-- Samples out of order: at the whole second, and twice in the second after it. -/
def mixedRows : List Row :=
  [throughputRow (secondLater 5 (by decide)) "2", throughputRow (secondLater 70 (by decide)) "3",
    throughputRow (newYear 0 (by decide)) "1"]

/-- The instants of these rows. -/
def mixedStamp (row : Row) : Instant :=
  if row.field "value" = some "1" then newYear 0 (by decide)
  else if row.field "value" = some "2" then secondLater 5 (by decide)
  else secondLater 70 (by decide)

/-- The last of several samples is kept. -/
theorem isLatest_mixed :
    metricValues mixedRows = .ok [("throughput", 3)] ∧
      ∀ metric, ∀ entry ∈
          [("throughput", (secondLater 70 (by decide)).utcNow, (3 : ℚ))].lookup metric,
        IsLatest mixedStamp mixedRows metric entry := by
  have hfold : fold keepLatest [] mixedRows =
      .ok [("throughput", (secondLater 70 (by decide)).utcNow, 3)] := eq_of_okAnd (by decide +kernel)
  have hstamped : Stamped mixedStamp mixedRows :=
    List.forall_mem_cons.2 ⟨rfl, List.forall_mem_cons.2 ⟨rfl, List.forall_mem_singleton.2 rfl⟩⟩
  obtain ⟨hvalues, hlatest⟩ := isLatest_iff hstamped hfold
  refine ⟨hvalues, hlatest.2 fun metric row other hrow hother hlast hsecond hwhole => ?_⟩
  have hmem := hrow.mem
  simp only [mixedRows, List.mem_cons, List.not_mem_nil, or_false] at hmem
  rcases hmem with rfl | rfl | rfl
  · exact absurd hwhole (by decide)
  · exact absurd hwhole (by decide)
  · -- the whole second is not the last one
    have hlater : OfMetric mixedRows metric (throughputRow (secondLater 70 (by decide)) "3") :=
      ⟨by simp [mixedRows], hrow.name⟩
    exact absurd (hlast _ hlater) (by decide)

end CpuLimits
