import K8Labs.Observers.SampleLine
import K8Labs.Python.Comprehension
import K8Labs.Python.JsonRoundTrip

/-!
# What a scrape recovers

The text of the collector, read by the runner for one cell.  The lines are read one by one
(`parseMetrics_eq`): a sample gives its row, nothing, or an exception that ends the scrape.

* `own_iff` : a sample of the cell gives its own row exactly when its labels are told apart and are
  ASCII, and its value is the float that fifteen of its digits denote.
* `other_iff` : a sample of another cell gives nothing exactly when its labels are told apart and its
  cell is read as another one, or when all pieces of its line are skipped.
* `scrape_recovers_iff` : **the scrape recovers the series of the cell exactly when this is so for
  every sample.**
-/

namespace Observers

open Py

/-! ### The samples in the text -/

/-- The line of a sample. -/
def sampleText (sample : Sample) : List Char :=
  sample.metric.toList ++ renderLabels sample.labels ++ ' ' :: formatGeneral 15 (nearest sample.value)

/-- The samples in the order in which they are written. -/
def exposed (samples : List Sample) : List Sample :=
  metricFamilies.flatMap fun family => familySamples samples family.1

/-- The two comments of a family. -/
def familyComments (family : String × String × String) : List (List Char) :=
  [("# HELP " ++ family.1 ++ " " ++ family.2.1).toList,
    ("# TYPE " ++ family.1 ++ " " ++ family.2.2).toList]

/-- The lines of the text. -/
def textLines (samples : List Sample) : List (List Char) :=
  metricFamilies.flatMap fun family =>
    familyComments family ++ (familySamples samples family.1).map sampleText

section Render

variable {samples : List Sample} {text : List Char}

theorem renderSample_eq_ok {sample : Sample} {line : List Char}
    (h : renderSample sample = .ok line) : line = sampleText sample := by
  obtain ⟨value, hvalue, rfl⟩ := Py.map_eq_ok.1 h
  unfold renderValue at hvalue
  split at hvalue
  · next q hq =>
    cases hvalue
    rw [sampleText, nearest_of_eq_fin hq]
  · cases hvalue

theorem renderSamples_eq_ok (h : renderSamples samples = .ok text) :
    text = (textLines samples).flatMap fun l => l ++ ['\n'] := by
  obtain ⟨families, hfamilies, rfl⟩ := Py.map_eq_ok.1 h
  have hfamily : ∀ family lines, renderFamily samples family = .ok lines →
      lines = familyComments family ++ (familySamples samples family.1).map sampleText := by
    intro family lines hok
    obtain ⟨rendered, hrendered, rfl⟩ := Py.map_eq_ok.1 hok
    have hmap : rendered = (familySamples samples family.1).map sampleText := by
      have := (traverse_eq_ok.1 hrendered).imp fun _ _ => renderSample_eq_ok
      rw [← List.forall₂_eq_eq_eq, List.forall₂_map_right_iff]
      exact this.flip
    rw [hmap]
    rfl
  have hlines : families.flatten = textLines samples := by
    have := (traverse_eq_ok.1 hfamilies).imp fun _ _ => hfamily _ _
    have hmap : families = metricFamilies.map fun family =>
        familyComments family ++ (familySamples samples family.1).map sampleText := by
      rw [← List.forall₂_eq_eq_eq, List.forall₂_map_right_iff]
      exact this.flip
    rw [hmap]
    rfl
  have hne : textLines samples ≠ [] := List.cons_ne_nil _ _
  rw [hlines, intercalate_append hne]

end Render

/-! ### Labels as JSON -/

theorem encodeString_append_inj {s t : String} {rest rest' : List Char}
    (h : Json.encodeString s ++ rest = Json.encodeString t ++ rest') : s = t ∧ rest = rest' := by
  have hquoted : ∀ (u : String) (tail : List Char), Json.encodeString u ++ tail =
      '"' :: (u.toList.flatMap Json.escapeChar ++ '"' :: tail) := fun u tail => by
    simp [Json.encodeString]
  rw [hquoted, hquoted] at h
  have htext := (List.cons.inj h).2
  have hs := Json.scanString_encodeString s rest
  rw [htext, Json.scanString_encodeString t rest', Except.ok.injEq, Prod.mk.injEq] at hs
  exact ⟨(String.toList_inj.1 hs.1).symm, hs.2.symm⟩

/-- A label as an item of an object. -/
def jsonItem (label : String × String) : List Char :=
  Json.encodeString label.1 ++ ':' :: ' ' :: Json.encodeString label.2

theorem jsonItem_append_inj {key value value' : String} {rest rest' : List Char}
    (h : jsonItem (key, value) ++ rest = jsonItem (key, value') ++ rest') :
    value = value' ∧ rest = rest' := by
  simp only [jsonItem, List.append_assoc, List.cons_append, List.append_cancel_left_eq,
    List.cons.injEq, true_and] at h
  exact encodeString_append_inj h

/-- Different values make different texts. -/
theorem forall_eq_of_jsonItems {f : String → String} {labels : List (String × String)}
    {rest rest' : List Char}
    (h : [',', ' '].intercalate (labels.map fun l => jsonItem (l.1, f l.2)) ++ rest =
      [',', ' '].intercalate (labels.map jsonItem) ++ rest') :
    ∀ l ∈ labels, f l.2 = l.2 := by
  induction labels with
  | nil => simp
  | cons l ls ih =>
    cases ls with
    | nil =>
      simp only [List.map_cons, List.map_nil, List.intercalate_singleton] at h
      simpa using (jsonItem_append_inj h).1
    | cons m ls =>
      simp only [List.map_cons, List.intercalate_cons_cons, List.append_assoc] at h ih
      obtain ⟨hvalue, hrest⟩ := jsonItem_append_inj h
      exact List.forall_mem_cons.2 ⟨hvalue, ih (List.append_cancel_left hrest)⟩

theorem labelsJson_readBack {labels : List (String × String)}
    (h : labelsJson (readBack labels) = labelsJson labels) : readBack labels = labels := by
  have hsorted : (readBack labels).insertionSort (fun a b => a.1 ≤ b.1) =
      (labels.insertionSort fun a b => a.1 ≤ b.1).map fun l =>
        (l.1, String.ofList (mangled l.2.toList)) := by
    rw [readBack, ← List.map_insertionSort (fun a b : String × String => a.1 ≤ b.1)]
    exact fun _ _ _ _ => Iff.rfl
  rw [labelsJson, labelsJson, hsorted, List.map_map] at h
  have hall := forall_eq_of_jsonItems (f := fun v => String.ofList (mangled v.toList))
    (List.cons.inj h).2
  refine (List.map_congr_left fun l hl => ?_).trans (List.map_id labels)
  rw [hall l ((List.perm_insertionSort _ _).mem_iff.2 hl)]
  rfl

theorem length_le_mangled (cs : List Char) : cs.length ≤ (mangled cs).length := by
  induction cs with
  | nil => simp
  | cons c cs ih =>
    have hone : 1 ≤ (latin1 c).length := by
      by_cases hc : IsAscii c
      · rw [latin1_of_ascii hc, List.length_singleton]
      · exact (latin1_of_not_ascii hc).1.trans' one_le_two
    rw [mangled, List.flatMap_cons, List.length_append, List.length_cons]
    rw [mangled] at ih
    omega

theorem mangled_eq_iff {cs : List Char} : mangled cs = cs ↔ ∀ c ∈ cs, IsAscii c := by
  constructor
  · intro h
    induction cs with
    | nil => simp
    | cons c cs ih =>
      rw [mangled, List.flatMap_cons] at h
      have hc : IsAscii c := by
        by_contra hc
        -- the text becomes longer
        have hlength := (latin1_of_not_ascii hc).1
        have hrest := length_le_mangled cs
        have htotal := congrArg List.length h
        rw [List.length_append, List.length_cons] at htotal
        rw [mangled] at hrest
        omega
      rw [latin1_of_ascii hc] at h
      exact List.forall_mem_cons.2 ⟨hc, ih (List.cons.inj h).2⟩
  · intro h
    exact (List.flatMap_congr fun c hc => latin1_of_ascii (h c hc)).trans
      (List.flatMap_singleton' cs)

/-- A label is read back as it is exactly when it is ASCII. -/
theorem readBack_eq_iff {labels : List (String × String)} :
    readBack labels = labels ↔ ∀ l ∈ labels, ∀ c ∈ l.2.toList, IsAscii c := by
  have hlabel : ∀ l : String × String,
      (l.1, String.ofList (mangled l.2.toList)) = l ↔ ∀ c ∈ l.2.toList, IsAscii c := by
    intro l
    rw [← mangled_eq_iff, ← String.toList_inj.trans Prod.mk_right_inj.symm, String.toList_ofList]
  rw [readBack]
  constructor
  · intro h l hl
    have hmap : labels.map (fun l => (l.1, String.ofList (mangled l.2.toList))) = labels.map id := by
      rw [h, List.map_id]
    exact (hlabel l).1 (List.map_inj_left.1 hmap l hl)
  · intro h
    exact (List.map_congr_left fun l hl => (hlabel l).2 (h l hl)).trans (List.map_id labels)

/-! ### The samples of the collector -/

/-- What the collector writes as a sample. -/
structure IsSample (sample : Sample) : Prop where
  family : sample.metric ∈ metricFamilies.map Prod.fst
  labels : ∃ (target : CgroupTarget) (node : String), sample.labels = target.labels node
  nonneg : 0 ≤ sample.value

theorem nonneg_of_trueDiv {n scale : ℕ} {q : ℚ} (h : trueDiv n scale = .ok q) : 0 ≤ q := by
  unfold trueDiv at h
  split at h
  · next hq =>
    cases h
    exact nonneg_of_toDouble (div_nonneg (Nat.cast_nonneg _) (Nat.cast_nonneg _)) hq
  · cases h

theorem nonneg_of_scaledStat {stat : List (String × String)} {key : String} {scale : ℕ}
    {value : Option ℚ} (h : scaledStat stat key scale = .ok value) {q : ℚ} (hq : value = some q) :
    0 ≤ q := by
  obtain ⟨n, -, hvalue⟩ := bind_eq_ok.1 h
  cases n with
  | none =>
    cases hvalue
    cases hq
  | some n =>
    obtain ⟨q', hdiv, rfl⟩ := Py.map_eq_ok.1 hvalue
    cases hq
    exact nonneg_of_trueDiv hdiv

/-- A metric of a family, with a value that is not negative. -/
def IsMetric (p : String × ℚ) : Prop := p.1 ∈ metricFamilies.map Prod.fst ∧ 0 ≤ p.2

theorem isMetric_metricValue {name : String} (hname : name ∈ metricFamilies.map Prod.fst)
    {value : Option ℚ} (hvalue : ∀ q, value = some q → 0 ≤ q) :
    ∀ p ∈ metricValue name value, IsMetric p := by
  intro p hp
  obtain ⟨q, hq, rfl⟩ : ∃ q, value = some q ∧ p = (name, q) := by
    cases value <;> simp_all [metricValue]
  exact ⟨hname, hvalue q hq⟩

theorem isMetric_readTargetMetrics {t : Tree} {place : Path} {metrics : List (String × ℚ)}
    (h : readTargetMetrics t place = .ok metrics) : ∀ p ∈ metrics, IsMetric p := by
  have hcast : ∀ (n : Option ℕ) (q : ℚ), n.map Nat.cast = some q → 0 ≤ q := by
    rintro (_ | n) q hq
    · cases hq
    · cases hq
      exact Nat.cast_nonneg n
  obtain ⟨usage, husage, h⟩ := bind_eq_ok.1 h
  obtain ⟨periods, hperiods, h⟩ := bind_eq_ok.1 h
  obtain ⟨throttled, hthrottled, h⟩ := bind_eq_ok.1 h
  obtain ⟨seconds, hseconds, h⟩ := bind_eq_ok.1 h
  obtain ⟨weight, -, h⟩ := bind_eq_ok.1 h
  obtain ⟨⟨quota, period⟩, -, h⟩ := bind_eq_ok.1 h
  obtain ⟨current, -, h⟩ := bind_eq_ok.1 h
  -- the working set and the waiting time, where there are any
  obtain ⟨working, waiting, hwaiting, rfl⟩ : ∃ (working : Option ℕ) (waiting : Option ℚ),
      (∀ q, waiting = some q → 0 ≤ q) ∧ metrics =
        metricValue "container_cpu_usage_seconds_total" usage ++
        metricValue "k8labs_cgroup_cpu_usage_seconds_total" usage ++
        metricValue "container_cpu_cfs_periods_total" periods ++
        metricValue "container_cpu_cfs_throttled_periods_total" throttled ++
        metricValue "container_cpu_cfs_throttled_seconds_total" seconds ++
        metricValue "k8labs_cgroup_cpu_weight" (weight.map Nat.cast) ++
        metricValue "k8labs_cgroup_cpu_max_quota" (quota.map Nat.cast) ++
        metricValue "k8labs_cgroup_cpu_max_period" (period.map Nat.cast) ++
        metricValue "container_memory_working_set_bytes" (working.map Nat.cast) ++
        metricValue "container_pressure_cpu_waiting_seconds_total" waiting := by
    rcases current with _ | current
    on_goal 2 => obtain ⟨inactive, -, h⟩ := bind_eq_ok.1 h
    all_goals
      obtain ⟨working, -, h⟩ := bind_eq_ok.1 h
      obtain ⟨total, -, h⟩ := bind_eq_ok.1 h
      cases total with
      | none =>
        obtain ⟨waiting, hwaiting, h⟩ := bind_eq_ok.1 h
        cases hwaiting
        cases h
        exact ⟨working, none, by simp, rfl⟩
      | some total =>
        obtain ⟨waiting, hwaiting, h⟩ := bind_eq_ok.1 h
        obtain ⟨q, hq, rfl⟩ := Py.map_eq_ok.1 hwaiting
        cases h
        exact ⟨working, some q, fun q' hq' => Option.some.inj hq' ▸ nonneg_of_trueDiv hq, rfl⟩
  simp only [List.forall_mem_append]
  exact ⟨⟨⟨⟨⟨⟨⟨⟨⟨isMetric_metricValue (List.mem_of_getElem? (i := 0) rfl) fun _ =>
    nonneg_of_scaledStat husage,
    isMetric_metricValue (List.mem_of_getElem? (i := 9) rfl) fun _ => nonneg_of_scaledStat husage⟩,
    isMetric_metricValue (List.mem_of_getElem? (i := 1) rfl) fun _ => nonneg_of_scaledStat hperiods⟩,
    isMetric_metricValue (List.mem_of_getElem? (i := 2) rfl) fun _ => nonneg_of_scaledStat hthrottled⟩,
    isMetric_metricValue (List.mem_of_getElem? (i := 3) rfl) fun _ => nonneg_of_scaledStat hseconds⟩,
    isMetric_metricValue (List.mem_of_getElem? (i := 6) rfl) (hcast _)⟩,
    isMetric_metricValue (List.mem_of_getElem? (i := 7) rfl) (hcast _)⟩,
    isMetric_metricValue (List.mem_of_getElem? (i := 8) rfl) (hcast _)⟩,
    isMetric_metricValue (List.mem_of_getElem? (i := 4) rfl) (hcast _)⟩,
    isMetric_metricValue (List.mem_of_getElem? (i := 5) rfl) hwaiting⟩

theorem isSample_of_samples {c : Collector} {t : Tree} {samples : List Sample}
    (h : c.samples t = .ok samples) : ∀ sample ∈ samples, IsSample sample := by
  intro sample hsample
  obtain ⟨lists, hlists, rfl⟩ := Py.map_eq_ok.1 h
  obtain ⟨list, hlist, hmem⟩ := List.mem_flatten.1 hsample
  obtain ⟨target, -, hok⟩ := forall₂_mem_right (traverse_eq_ok.1 hlists) hlist
  obtain ⟨place, metrics, -, hread, hlabels, hvalue⟩ := Collector.mem_targetSamples hok sample hmem
  obtain ⟨hfamily, hnonneg⟩ := isMetric_readTargetMetrics hread _ hvalue
  exact ⟨hfamily, ⟨target, c.node, hlabels⟩, hnonneg⟩

namespace IsSample

variable {sample : Sample}

theorem isName_metric (h : IsSample sample) : IsName sample.metric ∧ sample.metric.toList ≠ [] := by
  obtain ⟨family, hfamily, heq⟩ := List.mem_map.1 h.family
  have hall : ∀ family ∈ metricFamilies, IsName family.1 ∧ family.1 ≠ "" := by
    simp only [metricFamilies, List.forall_mem_cons]
    refine ⟨?_, ?_, ?_, ?_, ?_, ?_, ?_, ?_, ?_, ?_, by simp⟩
    all_goals exact ⟨isName_ofList (by decide), by decide⟩
  obtain ⟨hname, hne⟩ := hall family hfamily
  rw [← heq]
  exact ⟨hname, fun hnil => hne (String.toList_inj.1 hnil)⟩

theorem labels_ne_nil (h : IsSample sample) : ∃ l ls, sample.labels = l :: ls := by
  obtain ⟨target, node, hlabels⟩ := h.labels
  exact ⟨_, _, hlabels⟩

theorem isName_labels (h : IsSample sample) : ∀ m ∈ sample.labels, IsName m.1 := by
  obtain ⟨target, node, hlabels⟩ := h.labels
  rw [hlabels]
  simp only [CgroupTarget.labels, List.forall_mem_cons]
  refine ⟨?_, ?_, ?_, ?_, ?_, ?_, ?_, ?_, by simp⟩
  all_goals exact isName_ofList (by decide)

theorem nodup_keys (h : IsSample sample) : (sample.labels.map Prod.fst).Nodup := by
  obtain ⟨target, node, hlabels⟩ := h.labels
  rw [hlabels]
  simp [CgroupTarget.labels]

end IsSample

/-! ### One sample -/

/-- The rows that are read from the line of a sample, piece by piece. -/
def sampleRows (named : List Char → Option Char) (cellId timestamp : String) (sample : Sample) :
    Except Exc (List (Option Row)) :=
  Py.traverse (parseLine named cellId timestamp) ((sampleText sample).splitOnP isLineBoundary)

/-- The sample is one of the cell. -/
def IsOwn (cellId : String) (sample : Sample) : Prop :=
  sample.labels.lookup "cell_id" = some cellId

instance (cellId : String) (sample : Sample) : Decidable (IsOwn cellId sample) :=
  inferInstanceAs (Decidable (_ = _))

/-- The row has the labels and the value of the sample. -/
structure Tells (timestamp : String) (sample : Sample) (row : Row) : Prop where
  timestamp_eq : row.timestamp = timestamp
  metric_eq : row.metric = sample.metric
  labels_eq : row.labelsJson = labelsJson sample.labels
  value_eq : parseDouble row.value = .ok (.fin sample.value)

/-- The labels of a line are told apart: nothing in them ends a label, the labels or the line. -/
def ToldApart (sample : Sample) : Prop := Apart sample.labels ∧ OneLine sample.labels

instance (sample : Sample) : Decidable (ToldApart sample) := inferInstanceAs (Decidable (_ ∧ _))

/-- A sample of the cell whose row tells of it. -/
def Recoverable (sample : Sample) : Prop :=
  ToldApart sample ∧ (∀ l ∈ sample.labels, ∀ c ∈ l.2.toList, IsAscii c) ∧
    toDouble (rounded 15 sample.value) = .fin sample.value

instance (sample : Sample) : Decidable (Recoverable sample) :=
  inferInstanceAs (Decidable (_ ∧ (∀ l ∈ sample.labels, ∀ c ∈ l.2.toList, IsAscii c) ∧ _))

/-- A sample of another cell that is passed over. -/
def Passed (cellId : String) (sample : Sample) : Prop :=
  (ToldApart sample ∧ (readBack sample.labels).lookup "cell_id" ≠ some cellId) ∨
    Hidden sample.labels

instance (cellId : String) (sample : Sample) : Decidable (Passed cellId sample) :=
  inferInstanceAs (Decidable ((_ ∧ _ ≠ _) ∨ _))

section Sample

variable {named : List Char → Option Char} {cellId timestamp : String} {sample : Sample}
  {rows : List (Option Row)}

/-- The digits of the value. -/
theorem value_text (h : IsSample sample) :
    (∀ c ∈ formatGeneral 15 (nearest sample.value), IsNumberChar c) ∧
      parseFloat (String.ofList (formatGeneral 15 (nearest sample.value))) =
        .ok (.fin (rounded 15 (nearest sample.value))) := by
  have hnonneg := nonneg_nearest h.nonneg
  have htext : formatGeneral 15 (nearest sample.value) = formatMagnitude 15 (nearest sample.value) := by
    rw [formatGeneral, if_neg (not_lt.2 hnonneg), List.nil_append, abs_of_nonneg hnonneg]
  rw [htext]
  exact ⟨isNumberChar_formatMagnitude 15 _, parseFloat_formatMagnitude (by decide) hnonneg⟩

/-- The value is read back exactly when its fifteen digits lead back to it. -/
theorem parseDouble_value (h : IsSample sample) :
    parseDouble (String.ofList (formatGeneral 15 (nearest sample.value))) = .ok (.fin sample.value) ↔
      toDouble (rounded 15 sample.value) = .fin sample.value := by
  have hread : parseDouble (String.ofList (formatGeneral 15 (nearest sample.value))) =
      .ok (toDouble (rounded 15 (nearest sample.value))) := by
    rw [parseDouble, (value_text h).2]
    rfl
  have hself : ∀ q, toDouble q = .fin sample.value → nearest sample.value = sample.value :=
    fun q hq => nearest_of_eq_fin (toDouble_of_eq_fin hq)
  rw [hread, Except.ok.injEq]
  constructor
  · intro hvalue
    have heq := hself _ hvalue
    rwa [heq] at hvalue
  · intro hvalue
    rwa [hself _ hvalue]

/-- What follows the labels ends neither the line nor the labels. -/
theorem plain_value (h : IsSample sample) : ∀ c ∈ ' ' :: formatGeneral 15 (nearest sample.value),
    isLineBoundary c = false ∧ c ≠ '{' ∧ c ≠ '}' := by
  have hnumber : ∀ c, IsNumberChar c → isLineBoundary c = false ∧ c ≠ '{' ∧ c ≠ '}' := by
    rintro c (hc | hc)
    · exact forall_digit (P := fun c => isLineBoundary c = false ∧ c ≠ '{' ∧ c ≠ '}') (by decide) hc
    · simp only [List.mem_cons, List.not_mem_nil, or_false] at hc
      rcases hc with rfl | rfl | rfl | rfl <;> decide
  exact List.forall_mem_cons.2 ⟨by decide, fun c hc => hnumber c ((value_text h).1 c hc)⟩

theorem newline_notMem_sampleText (h : IsSample sample) : '\n' ∉ sampleText sample := by
  obtain ⟨l, ls, hlabels⟩ := h.labels_ne_nil
  have hnames := h.isName_labels
  have hvalue : '\n' ∉ ' ' :: formatGeneral 15 (nearest sample.value) := fun hmem =>
    absurd (plain_value h _ hmem).1 (by decide)
  rw [hlabels] at hnames
  rw [sampleText, hlabels, line_eq, List.mem_append, List.mem_cons]
  rintro (hmem | hmem | hmem)
  · exact h.isName_metric.1.notMem (by decide) hmem
  · cases hmem
  · exact newline_notMem_closing hnames hvalue hmem

theorem getLast_sampleText (h : IsSample sample) : (sampleText sample).getLast? ≠ some '\r' := by
  intro hlast
  rw [sampleText, List.getLast?_append_of_ne_nil _ (List.cons_ne_nil _ _)] at hlast
  exact absurd (plain_value h _ (List.mem_of_getLast? hlast)).1 (by decide)

theorem sampleRows_of_toldApart (h : IsSample sample) (hapart : ToldApart sample) :
    sampleRows named cellId timestamp sample = .ok
      [if (readBack sample.labels).lookup "cell_id" = some cellId then
        some (rowOf timestamp sample.metric (readBack sample.labels)
          (formatGeneral 15 (nearest sample.value))) else none] := by
  obtain ⟨hname, hne⟩ := h.isName_metric
  obtain ⟨l, ls, hlabels⟩ := h.labels_ne_nil
  obtain ⟨hchars, hfloat⟩ := value_text h
  have hnames := h.isName_labels
  have hline := hapart.2
  have hplain := plain_value h
  rw [hlabels] at hnames hline
  have hsingle : (sampleText sample).splitOnP isLineBoundary = [sampleText sample] := by
    refine List.splitOnP_eq_singleton ?_
    rw [sampleText, hlabels, line_eq]
    exact isLineBoundary_brace hname (not_isLineBoundary_closing hnames
      (fun c hc => (hplain c hc).1) hline)
  rw [sampleRows, hsingle, Py.traverse, sampleText, parseLine_render hname hne
    (by rw [hlabels]; exact List.cons_ne_nil _ _) h.isName_labels h.nodup_keys hapart.1
    (fun c hc => isSpace_of_isNumberChar (hchars c hc)) hfloat]
  rfl

/-- The pieces of a line are skipped as the labels are. -/
theorem skipped_sampleText_iff (h : IsSample sample) :
    (∀ p ∈ (sampleText sample).splitOnP isLineBoundary, Skipped p) ↔ Hidden sample.labels := by
  obtain ⟨l, ls, hlabels⟩ := h.labels_ne_nil
  have hplain := plain_value h
  rw [sampleText, hlabels]
  exact skipped_line_iff h.isName_metric.1 (fun c hc => (hplain c hc).1)
    fun hmem => (hplain _ hmem).2.2 rfl

/-- A line whose labels are not told apart gives no row. -/
theorem hidden_of_sampleRows (h : IsSample sample) (hapart : ¬ ToldApart sample)
    (hrows : sampleRows named cellId timestamp sample = .ok rows) : Hidden sample.labels := by
  rw [← skipped_sampleText_iff h]
  obtain ⟨l, ls, hlabels⟩ := h.labels_ne_nil
  have hnames := h.isName_labels
  have hok := Py.traverse_isOk.1 ⟨rows, hrows⟩
  have hsplits : ∀ c ∈ ' ' :: formatGeneral 15 (nearest sample.value), ¬ Splits c := by
    rintro c hc (heq | hboundary)
    · exact (plain_value h c hc).2.1 heq
    · rw [(plain_value h c hc).1] at hboundary
      cases hboundary
  rw [ToldApart, hlabels] at hapart
  rw [sampleText, hlabels] at hok ⊢
  rw [hlabels] at hnames
  exact skipped_of_parseLine h.isName_metric.1 hnames hsplits hapart hok

theorem sampleRows_of_hidden (h : IsSample sample) (hhidden : Hidden sample.labels) :
    ∃ rows, sampleRows named cellId timestamp sample = .ok rows ∧ rows.filterMap id = [] := by
  rw [← skipped_sampleText_iff h] at hhidden
  have hnone : ∀ p ∈ (sampleText sample).splitOnP isLineBoundary,
      parseLine named cellId timestamp p = .ok none := fun p hp =>
    parseLine_of_skipped (hhidden p hp)
  obtain ⟨rows, hrows⟩ := Py.traverse_isOk.2 fun p hp => ⟨none, hnone p hp⟩
  refine ⟨rows, hrows, List.filterMap_eq_nil_iff.2 fun row hrow => ?_⟩
  obtain ⟨p, hp, hread⟩ := forall₂_mem_right (traverse_eq_ok.1 hrows) hrow
  rw [hnone p hp] at hread
  cases hread
  rfl

/-- The row of a sample. -/
def ownRow (timestamp : String) (sample : Sample) : Row :=
  rowOf timestamp sample.metric sample.labels (formatGeneral 15 (nearest sample.value))

theorem tells_ownRow (h : IsSample sample)
    (hvalue : toDouble (rounded 15 sample.value) = .fin sample.value) :
    Tells timestamp sample (ownRow timestamp sample) :=
  ⟨rfl, rfl, rfl, (parseDouble_value h).2 hvalue⟩

theorem sampleRows_of_recoverable (h : IsSample sample) (hown : IsOwn cellId sample)
    (hrecoverable : Recoverable sample) :
    sampleRows named cellId timestamp sample = .ok [some (ownRow timestamp sample)] := by
  obtain ⟨hapart, hascii, -⟩ := hrecoverable
  rw [sampleRows_of_toldApart h hapart, readBack_eq_iff.2 hascii,
    if_pos (show sample.labels.lookup "cell_id" = some cellId from hown)]
  rfl

/-- A sample of the cell gives its own row. -/
theorem own_iff (h : IsSample sample) (hown : IsOwn cellId sample) :
    (∃ rows, sampleRows named cellId timestamp sample = .ok rows ∧
      ∃ row, rows.filterMap id = [row] ∧ Tells timestamp sample row) ↔ Recoverable sample := by
  constructor
  · rintro ⟨rows, hrows, row, hrow, htells⟩
    have hapart : ToldApart sample := by
      by_contra hapart
      obtain ⟨rows', hrows', hnil⟩ := @sampleRows_of_hidden named cellId timestamp sample h
        (hidden_of_sampleRows h hapart hrows)
      rw [hrows, Except.ok.injEq] at hrows'
      rw [hrows', hnil] at hrow
      cases hrow
    rw [sampleRows_of_toldApart h hapart] at hrows
    cases hrows
    split_ifs at hrow with hcell
    · obtain rfl : rowOf timestamp sample.metric (readBack sample.labels)
          (formatGeneral 15 (nearest sample.value)) = row := by simpa using hrow
      have hlabels := labelsJson_readBack htells.labels_eq
      exact ⟨hapart, readBack_eq_iff.1 hlabels, (parseDouble_value h).1 htells.value_eq⟩
    · cases hrow
  · intro hrecoverable
    exact ⟨_, sampleRows_of_recoverable h hown hrecoverable, ownRow timestamp sample, rfl,
      tells_ownRow h hrecoverable.2.2⟩

/-- A sample of another cell gives nothing. -/
theorem other_iff (h : IsSample sample) :
    (∃ rows, sampleRows named cellId timestamp sample = .ok rows ∧ rows.filterMap id = []) ↔
      Passed cellId sample := by
  constructor
  · rintro ⟨rows, hrows, hnil⟩
    by_cases hapart : ToldApart sample
    · rw [sampleRows_of_toldApart h hapart] at hrows
      cases hrows
      split_ifs at hnil with hcell
      · cases hnil
      · exact .inl ⟨hapart, hcell⟩
    · exact .inr (hidden_of_sampleRows h hapart hrows)
  · rintro (⟨hapart, hcell⟩ | hhidden)
    · refine ⟨_, sampleRows_of_toldApart h hapart, ?_⟩
      rw [if_neg hcell]
      rfl
    · exact sampleRows_of_hidden h hhidden

end Sample

/-! ### The text -/

/-- The end of `parse_metrics`: a required metric without a row is an error. -/
def checkRequired (rows : List Row) : Except Exc (List Row) :=
  let missing := requiredMetrics.filter fun name => !(rows.map Row.metric).contains name
  if missing = [] then .ok rows
  else cellRunError ("collector is missing required metric(s): " ++ ", ".intercalate missing)

/-- What is read from parts of the text, one after the other. -/
theorem traverse_flatMap_filterMap {α β γ ε : Type*} {f : β → Except ε (Option γ)}
    {g : α → List β} {k : α → List γ} {xs : List α}
    (h : ∀ x ∈ xs, ∃ rows, Py.traverse f (g x) = .ok rows ∧ rows.filterMap id = k x) :
    ∃ rows, Py.traverse f (xs.flatMap g) = .ok rows ∧ rows.filterMap id = xs.flatMap k := by
  induction xs with
  | nil => exact ⟨[], rfl, rfl⟩
  | cons x xs ih =>
    rw [List.forall_mem_cons] at h
    obtain ⟨⟨first, hfirst, hk⟩, hrest⟩ := h
    obtain ⟨rest, hrest, hks⟩ := ih hrest
    refine ⟨first ++ rest, ?_, ?_⟩
    · rw [List.flatMap_cons, traverse_append, hfirst, hrest]
      rfl
    · rw [List.filterMap_append, hk, hks, List.flatMap_cons]

section Text

variable {named : List Char → Option Char} {cellId timestamp : String} {samples : List Sample}
  {text : List Char}

theorem mem_exposed (h : ∀ sample ∈ samples, IsSample sample) {sample : Sample} :
    sample ∈ exposed samples ↔ sample ∈ samples := by
  have hmem : ∀ name, sample ∈ familySamples samples name ↔
      sample ∈ samples ∧ sample.metric = name := fun name => by
    rw [familySamples, (List.perm_insertionSort _ _).mem_iff, List.mem_filter, decide_eq_true_eq]
  simp only [exposed, List.mem_flatMap, hmem]
  constructor
  · rintro ⟨family, -, hsample, -⟩
    exact hsample
  · intro hsample
    obtain ⟨family, hfamily, heq⟩ := List.mem_map.1 (h sample hsample).family
    exact ⟨family, hfamily, hsample, heq.symm⟩

/-- No line boundary is in the text. -/
def Plain (s : String) : Prop := ∀ c ∈ s.toList, isLineBoundary c = false

theorem plain_ofList {cs : List Char} (h : (cs.all fun c => !isLineBoundary c) = true) :
    Plain (String.ofList cs) := by
  rw [Plain, String.toList_ofList]
  exact fun c hc => by simpa using List.all_eq_true.1 h c hc

theorem Plain.append {s t : String} (hs : Plain s) (ht : Plain t) : Plain (s ++ t) := by
  rw [Plain, String.toList_append, List.forall_mem_append]
  exact ⟨hs, ht⟩

/-- The comments of the ten families. -/
theorem comment_plain {family : String × String × String} (hfamily : family ∈ metricFamilies)
    {line : List Char} (hline : line ∈ familyComments family) :
    line.head? = some '#' ∧ ∀ c ∈ line, isLineBoundary c = false := by
  have hall : ∀ family ∈ metricFamilies, Plain family.1 ∧ Plain family.2.1 ∧ Plain family.2.2 := by
    simp only [metricFamilies, List.forall_mem_cons]
    refine ⟨?_, ?_, ?_, ?_, ?_, ?_, ?_, ?_, ?_, ?_, by simp⟩
    all_goals exact ⟨plain_ofList (by decide), plain_ofList (by decide), plain_ofList (by decide)⟩
  obtain ⟨hname, hhelp, hkind⟩ := hall family hfamily
  have hspace : Plain " " := plain_ofList (by decide)
  have hhead : ∀ t : String, ("# HELP " ++ t).toList.head? = some '#' ∧
      ("# TYPE " ++ t).toList.head? = some '#' := fun t => by
    rw [String.toList_append, String.toList_append]
    exact ⟨rfl, rfl⟩
  simp only [familyComments, List.mem_cons, List.not_mem_nil, or_false, String.append_assoc] at hline
  rcases hline with rfl | rfl
  · exact ⟨(hhead _).1, (show Plain "# HELP " from plain_ofList (by decide)).append
      (hname.append (hspace.append hhelp))⟩
  · exact ⟨(hhead _).2, (show Plain "# TYPE " from plain_ofList (by decide)).append
      (hname.append (hspace.append hkind))⟩

/-- The comments are skipped. -/
theorem traverse_familyComments {family : String × String × String}
    (hfamily : family ∈ metricFamilies) :
    Py.traverse (parseLine named cellId timestamp)
      ((familyComments family).flatMap fun l => l.splitOnP isLineBoundary) = .ok [none, none] := by
  have hskipped : ∀ l ∈ familyComments family,
      parseLine named cellId timestamp l = .ok none := fun l hl =>
    parseLine_of_skipped (.inr (.inl (comment_plain hfamily hl).1))
  have hpieces : ((familyComments family).flatMap fun l => l.splitOnP isLineBoundary) =
      familyComments family :=
    (List.flatMap_congr fun l hl =>
      List.splitOnP_eq_singleton (comment_plain hfamily hl).2).trans (List.flatMap_singleton' _)
  rw [hpieces]
  rw [familyComments, List.forall_mem_cons, List.forall_mem_cons] at hskipped
  rw [familyComments, Py.traverse, hskipped.1, Py.traverse, hskipped.2.1]
  rfl

theorem lines_of_renderSamples (h : ∀ sample ∈ samples, IsSample sample)
    (htext : renderSamples samples = .ok text) :
    breakLines (collapseCrLf text) [] =
      (textLines samples).flatMap fun l => l.splitOnP isLineBoundary := by
  have hboundary : isLineBoundary '\r' = true := rfl
  have hlines : ∀ l ∈ textLines samples, '\n' ∉ l ∧ l.getLast? ≠ some '\r' := by
    intro l hl
    obtain ⟨family, hfamily, hl⟩ := List.mem_flatMap.1 hl
    rcases List.mem_append.1 hl with hl | hl
    · have hplain := (comment_plain hfamily hl).2
      refine ⟨fun hmem => ?_, fun hlast => ?_⟩
      · exact absurd (hplain _ hmem) (by decide)
      · exact absurd (hplain _ (List.mem_of_getLast? hlast)) (by decide)
    · obtain ⟨sample, hsample, rfl⟩ := List.mem_map.1 hl
      have hsample := h sample ((mem_exposed h).1 (List.mem_flatMap.2 ⟨family, hfamily, hsample⟩))
      exact ⟨newline_notMem_sampleText hsample, getLast_sampleText hsample⟩
  rw [renderSamples_eq_ok htext, collapseCrLf_lines (fun l hl => (hlines l hl).1)
    fun l hl => (hlines l hl).2, breakLines_lines]

/-- The rows of the samples, in their order. -/
theorem parseMetrics_eq (h : ∀ sample ∈ samples, IsSample sample)
    (htext : renderSamples samples = .ok text) {k : Sample → List Row}
    (hrows : ∀ sample ∈ samples, ∃ rows, sampleRows named cellId timestamp sample = .ok rows ∧
      rows.filterMap id = k sample) :
    parseMetrics named text cellId timestamp = checkRequired ((exposed samples).flatMap k) := by
  have hall : ∃ rows, Py.traverse (parseLine named cellId timestamp)
      (breakLines (collapseCrLf text) []) = .ok rows ∧
        rows.filterMap id = (exposed samples).flatMap k := by
    rw [lines_of_renderSamples h htext, textLines, exposed, List.flatMap_assoc, List.flatMap_assoc]
    refine traverse_flatMap_filterMap fun family hfamily => ?_
    have hsamples : ∀ sample ∈ familySamples samples family.1, ∃ rows,
        Py.traverse (parseLine named cellId timestamp)
          ((sampleText sample).splitOnP isLineBoundary) = .ok rows ∧
            rows.filterMap id = k sample := fun sample hsample =>
      hrows sample ((mem_exposed h).1 (List.mem_flatMap.2 ⟨family, hfamily, hsample⟩))
    obtain ⟨rows, hok, hk⟩ := traverse_flatMap_filterMap hsamples
    refine ⟨none :: none :: rows, ?_, by simpa using hk⟩
    rw [List.flatMap_append, traverse_append, traverse_familyComments hfamily, List.flatMap_map, hok]
    rfl
  obtain ⟨rows, hok, hk⟩ := hall
  rw [parseMetrics, hok, Except.bind]
  dsimp only
  rw [hk]
  rfl

end Text

/-- The rows tell the labels and values of the samples of the cell: each sample of the cell gives one
row that tells of it, and each other sample none. -/
def Recovers (named : List Char → Option Char) (cellId timestamp : String) (samples : List Sample)
    (text : List Char) : Prop :=
  (∃ rows, List.Forall₂ (Tells timestamp)
      ((exposed samples).filter fun sample => IsOwn cellId sample) rows ∧
    parseMetrics named text cellId timestamp = checkRequired rows) ∧
  ∀ sample ∈ samples, ∃ rows, sampleRows named cellId timestamp sample = .ok rows ∧
    (IsOwn cellId sample → ∃ row, rows.filterMap id = [row] ∧ Tells timestamp sample row) ∧
    (¬ IsOwn cellId sample → rows.filterMap id = [])

/-- **What a scrape recovers.**  The labels and values of a cell are recovered if and only if every
sample of the cell has labels that are told apart and are ASCII, and a value that its fifteen digits
lead back to, and every sample of another cell is passed over. -/
theorem scrape_recovers_iff {named : List Char → Option Char} {cellId timestamp : String}
    {c : Collector} {t : Tree} {samples : List Sample} {text : List Char}
    (hsamples : c.samples t = .ok samples) (htext : renderSamples samples = .ok text) :
    Recovers named cellId timestamp samples text ↔
      ∀ sample ∈ samples, (IsOwn cellId sample → Recoverable sample) ∧
        (¬ IsOwn cellId sample → Passed cellId sample) := by
  have hall := isSample_of_samples hsamples
  constructor
  · rintro ⟨-, hrows⟩ sample hsample
    obtain ⟨rows, hok, hown, hother⟩ := hrows sample hsample
    exact ⟨fun h => (own_iff (hall sample hsample) h).1 ⟨rows, hok, hown h⟩,
      fun h => (other_iff (hall sample hsample)).1 ⟨rows, hok, hother h⟩⟩
  · intro hconditions
    have hrows : ∀ sample ∈ samples, ∃ rows, sampleRows named cellId timestamp sample = .ok rows ∧
        rows.filterMap id = if IsOwn cellId sample then [ownRow timestamp sample] else [] := by
      intro sample hsample
      by_cases hown : IsOwn cellId sample
      · rw [if_pos hown]
        exact ⟨_, sampleRows_of_recoverable (hall sample hsample) hown
          ((hconditions sample hsample).1 hown), rfl⟩
      · rw [if_neg hown]
        exact (other_iff (hall sample hsample)).2 ((hconditions sample hsample).2 hown)
    refine ⟨⟨((exposed samples).filter fun sample => IsOwn cellId sample).map (ownRow timestamp),
      ?_, ?_⟩, fun sample hsample => ?_⟩
    · rw [List.forall₂_map_right_iff, List.forall₂_same]
      intro sample hsample
      obtain ⟨hmem, hown⟩ := List.mem_filter.1 hsample
      have hmem := (mem_exposed hall).1 hmem
      exact tells_ownRow (hall sample hmem)
        ((hconditions sample hmem).1 (of_decide_eq_true hown)).2.2
    · rw [parseMetrics_eq hall htext hrows]
      rw [Py.flatMap_ite_singleton]
    · obtain ⟨rows, hok, hk⟩ := hrows sample hsample
      refine ⟨rows, hok, fun hown => ?_, fun hown => by rw [hk, if_neg hown]⟩
      rw [hk, if_pos hown]
      exact ⟨_, rfl, tells_ownRow (hall sample hsample) ((hconditions sample hsample).1 hown).2.2⟩

/-! ### A scrape of two cells -/

/-- A cgroup with the files of the required metrics. -/
def scrapedTree : Tree where
  entries := [(["root"], .dir), (["root", "c"], .dir),
    (["root", "c", "cpu.stat"],
      .file "usage_usec 1500000\nnr_periods 10\nnr_throttled 1\nthrottled_usec 250000\n"),
    (["root", "c", "memory.current"], .file "4096\n"),
    (["root", "c", "cpu.pressure"], .file "some avg10=0.00 avg60=0.00 avg300=0.00 total=7\n")]
  nodup := by decide
  names := by decide
  parent_dir := by decide

/-- A collector with a container of the cell `cell` and one of the cell `other`. -/
def scrapedCollector (container : String) : Collector :=
  .new scrapedTree ["root"] (.fixture (.ofTargets ([("cell", container), ("other", "app")].map
    fun (cellId, container) =>
      { uid := "u", podNamespace := "default", pod := "p", container := container,
        qos := "burstable", level := "container", cellId := cellId, cgroupPath := "c" }))) "n"

/-- Both cells are read back. -/
theorem scrape_recovers_app : ∃ samples text, (scrapedCollector "app").samples scrapedTree = .ok samples ∧
    renderSamples samples = .ok text ∧ Recovers (fun _ => none) "cell" "now" samples text := by
  have heval : okAnd ((scrapedCollector "app").samples scrapedTree) (fun samples =>
      okAnd (renderSamples samples) fun _ => decide (∀ sample ∈ samples,
        (IsOwn "cell" sample → Recoverable sample) ∧
          (¬ IsOwn "cell" sample → Passed "cell" sample))) = true := by
    decide +kernel
  obtain ⟨samples, hsamples, heval⟩ := okAnd_eq_true.1 heval
  obtain ⟨text, htext, heval⟩ := okAnd_eq_true.1 heval
  exact ⟨samples, text, hsamples, htext,
    (scrape_recovers_iff hsamples htext).2 (of_decide_eq_true heval)⟩

/-- A container named with a comma: the scrape ends with an error. -/
theorem comma_ends_scrape : ∃ samples text,
    (scrapedCollector "a,b").samples scrapedTree = .ok samples ∧ renderSamples samples = .ok text ∧
      parseMetrics (fun _ => none) text "cell" "now" =
        cellRunError "invalid Prometheus label in container_cpu_usage_seconds_total" ∧
      ¬ Recovers (fun _ => none) "cell" "now" samples text := by
  have heval : okAnd ((scrapedCollector "a,b").samples scrapedTree) (fun samples =>
      okAnd (renderSamples samples) fun text =>
        decide (parseMetrics (fun _ => none) text "cell" "now" =
            cellRunError "invalid Prometheus label in container_cpu_usage_seconds_total" ∧
          ¬ ∀ sample ∈ samples, IsOwn "cell" sample → ToldApart sample)) = true := by
    decide +kernel
  obtain ⟨samples, hsamples, heval⟩ := okAnd_eq_true.1 heval
  obtain ⟨text, htext, heval⟩ := okAnd_eq_true.1 heval
  obtain ⟨hparse, hbroken⟩ := of_decide_eq_true heval
  refine ⟨samples, text, hsamples, htext, hparse, fun hrecovers => hbroken fun sample hsample hown => ?_⟩
  obtain ⟨rows, hrows, hrow, -⟩ := hrecovers.2 sample hsample
  exact ((own_iff (isSample_of_samples hsamples sample hsample) hown).1 ⟨rows, hrows, hrow hown⟩).1

end Observers
