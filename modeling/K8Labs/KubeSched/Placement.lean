import K8Labs.KubeSched.SubmitBurst
import K8Labs.Python.Csv
import K8Labs.Python.DictReader
import K8Labs.Python.General

/-!
# From the burst to the metrics of its block

`submit_burst.py` prints a row for each Pod under the header of `run-placement.sh`, and
`placement_analysis.py` reads the rows and computes the metrics of each block and profile.  The
latency is printed in seconds into a column that is read as milliseconds.

* `submitToScheduled_iff` : the reported 99th percentile is that of the scheduling delays, in
  milliseconds and to the printed decimals, exactly when that percentile is at most half a
  microsecond.
-/

namespace KubeSched

open Py

/-! ### What is printed -/

/-- The fields of a row, as `emit` formats them. -/
def rowFields (block : ℤ) (profile : String) (row : PodRow) : List String :=
  [toString block, profile, row.pod, formatFixed 3 row.latency,
    if row.unschedulable then "1" else "0", if row.correct then "1" else "0"]

/-- The header that `run-placement.sh` writes. -/
def podsHeader : List String :=
  ["block_id", "profile", "pod", "latency_ms", "unschedulable", "correct"]

/-- `emit`: the records behind the header of `pods.csv`. -/
def emit (block : ℤ) (profile : String) (rows : List PodRow) : List Char :=
  (rows.map (rowFields block profile)).flatMap Csv.printRow

/-- `pods.csv`, with the rows of one burst. -/
def podsCsv (block : ℤ) (profile : String) (rows : List PodRow) : List Char :=
  Csv.printRow podsHeader ++ emit block profile rows

namespace Placement

/-! ### What is read -/

/-- A row as the analysis reads it. -/
structure PodRow where
  blockId : String
  profile : String
  pod : String
  latencyMs : Py.Float
  unschedulable : Bool
  correct : Bool

/-- `BlockMetric`. -/
structure BlockMetric where
  blockId : String
  profile : String
  metric : String
  value : Py.Float
  deriving DecidableEq

/-- `csv.DictReader` of a text. -/
def readTable (text : List Char) : Table :=
  match Csv.records {} (Csv.lines text) with
  | [] => ⟨[], []⟩
  | header :: records => ⟨header, records⟩

/-- `text.lower() in {"1", "true", "yes"}`. -/
def flag (text : String) : Bool :=
  ["1", "true", "yes"].contains (String.ofList (text.toList.map Char.toLower))

/-- `float(row[name])`. -/
def floatField (row : Row) (name : String) : Except Exc Py.Float :=
  match row.field name with
  | some text => parseFloat text
  | none => typeError "float() argument must be a string or a real number, not 'NoneType'"

/-- A row of the file. -/
def readRow (row : Row) : Except Exc PodRow :=
  (row.stripped "block_id").bind fun blockId =>
  (row.stripped "profile").bind fun profile =>
  (row.stripped "pod").bind fun pod =>
  (floatField row "latency_ms").bind fun latencyMs =>
  (row.stripped "unschedulable").bind fun unschedulable =>
  (row.stripped "correct").map fun correct =>
    ⟨blockId, profile, pod, latencyMs, flag unschedulable, flag correct⟩

/-- The required columns. -/
def required : List String :=
  ["block_id", "profile", "pod", "latency_ms", "unschedulable", "correct"]

/-- `read_pods`. -/
def readPods (path : String) (text : List Char) : Except Exc (List PodRow) :=
  let table := readTable text
  let missing := required.filter fun name => !table.header.contains name
  if missing ≠ [] then
    valueError (path ++ ": missing required column(s): " ++
      listText (missing.insertionSort (· ≤ ·)))
  else Py.traverse readRow table.rows

/-! ### Metrics -/

/-- Linear interpolation between the two nearest ranks. -/
def percentile (values : List Py.Float) (pct : ℚ) : Except Exc Py.Float :=
  let ordered := values.insertionSort fun x y => y.lt x = false
  match ordered with
  | [] => valueError "percentile of empty sequence"
  | [x] => .ok x
  | _ =>
    let rank := pct / 100 * (ordered.length - 1)
    let low := ⌊rank⌋.toNat
    let high := ⌈rank⌉.toNat
    match ordered[low]?, ordered[high]? with
    | some x, some y =>
      if low = high then .ok x
      else .ok ((x.scale (1 - (rank - low))).add (y.scale (rank - low)))
    | _, _ => .error ⟨.indexError, "list index out of range"⟩

/-- The name of the latency metric. -/
def submitToScheduled : String := "submit_to_scheduled_p99_ms"

/-- The metrics of the Pods of one block and profile. -/
def groupMetrics (group : (String × String) × List PodRow) : Except Exc (List BlockMetric) :=
  let pods := group.2
  let scheduled := (pods.filter fun p => !p.unschedulable).map PodRow.latencyMs
  let rate : BlockMetric := ⟨group.1.1, group.1.2, "correct_placement_rate",
    .fin ((pods.filter PodRow.correct).length / pods.length)⟩
  if scheduled = [] then .ok [rate]
  else (percentile scheduled 99).map fun value =>
    [⟨group.1.1, group.1.2, submitToScheduled, value⟩, rate]

/-- The order of block and profile. -/
def keyLe (a b : (String × String) × List PodRow) : Prop :=
  a.1.1 < b.1.1 ∨ a.1.1 = b.1.1 ∧ a.1.2 ≤ b.1.2

instance : DecidableRel keyLe := fun _ _ => inferInstanceAs (Decidable (_ ∨ _))

/-- `block_metrics`. -/
def blockMetrics (rows : List PodRow) : Except Exc (List BlockMetric) :=
  let grouped := rows.foldl (fun d row =>
    Dict.update (row.blockId, row.profile) (fun pods => pods.getD [] ++ [row]) d) []
  gather groupMetrics (grouped.insertionSort keyLe)

end Placement

/-! ### The scheduling delays of a burst -/

/-- The time at which a condition says that the Pod was scheduled. -/
def conditionTime (condition : Value) : Option ℚ :=
  if (condition.field "type").eq (.str "PodScheduled") then
    match condition.field "lastTransitionTime" with
    | .scalar (.str text) => (Datetime.timestamp text).toOption
    | _ => none
  else none

/-- The whole second, as the API gives it, at which a Pod was scheduled. -/
def scheduledAt (pod : Value) : Option ℚ :=
  ((pod.field "status").field "conditions").elements.reverse.findSome? conditionTime

/-- The Pod has a node. -/
def isBound (pod : Value) : Bool := ((pod.field "spec").field "nodeName").truthy

/-- The delay from the creation of a Pod to its scheduling, a millisecond when the API's second is
not after the creation. -/
def delay (created scheduled : ℚ) : ℚ :=
  if max (scheduled - created) 0 = 0 then 1 / 1000 else max (scheduled - created) 0

/-- The delays of the Pods that bound, in the order of their creation. -/
def delays (cluster : Cluster) (observed : Observed) (names : List String) : List ℚ :=
  names.zipIdx.filterMap fun p => (observed.find p.1).bind fun pod =>
    if isBound pod then (scheduledAt pod).map (delay (cluster.createdAt p.2)) else none

/-- Every Pod that bound has a time at which it was scheduled. -/
def Timed (observed : Observed) (names : List String) : Prop :=
  ∀ name ∈ names, ∀ pod, observed.find name = some pod → isBound pod = true →
    (scheduledAt pod).isSome

section Delays

variable {cluster : Cluster} {observed : Observed} {names : List String} {fit : Option ℕ}

theorem nodeOf_eq {pod node : Value} (h : nodeOf pod = .ok node) : node.truthy = isBound pod := by
  obtain ⟨d, hd, hrest⟩ := bind_eq_ok.1 h
  obtain ⟨spec, hspec, rfl⟩ := map_eq_ok.1 hrest
  obtain rfl := Value.items_eq_ok.1 hd
  rw [isBound, Value.field_dict, Items.getOr_dict (Value.items_eq_ok.1 hspec)]

theorem boundLatency_eq {created l : ℚ} {condition : Items}
    (htype : (condition.get "type").eq (.str "PodScheduled") = true)
    (h : boundLatency created condition = .ok l) :
    ∃ s, conditionTime (.dict condition) = some s ∧ l = delay created s := by
  obtain ⟨time, htime, hrest⟩ := bind_eq_ok.1 h
  have hfield := Value.field_of_index htime
  rw [conditionTime, Value.field_dict, if_pos htype, hfield]
  cases time with
  | scalar s =>
    cases s with
    | str text =>
      obtain ⟨s, hs, rfl⟩ := map_eq_ok.1 hrest
      have htext : (Datetime.timestamp text).toOption = some s := by
        rw [hs]
        rfl
      exact ⟨s, htext, rfl⟩
    | _ => cases hrest
  | _ => cases hrest

/-- The last condition that says when the Pod was scheduled counts. -/
theorem latencyOf_eq {created l : ℚ} {conditions : List Value}
    (h : latencyOf created true conditions = .ok l) :
    l = ((conditions.reverse.findSome? conditionTime).map (delay created)).getD 0 := by
  induction conditions using List.reverseRecOn generalizing l with
  | nil =>
    cases h
    rfl
  | append_singleton conditions condition ih =>
    rw [latencyOf, fold_append] at h
    obtain ⟨before, hbefore, hlast⟩ := bind_eq_ok.1 h
    obtain ⟨l', hl', hend⟩ := bind_eq_ok.1 hlast
    cases hend
    obtain ⟨d, hd, hcondition⟩ := bind_eq_ok.1 hl'
    obtain rfl := Value.items_eq_ok.1 hd
    rw [List.reverse_append, List.reverse_singleton, List.singleton_append, List.findSome?_cons]
    rw [Bool.and_true] at hcondition
    split_ifs at hcondition with htype
    · obtain ⟨s, hs, rfl⟩ := boundLatency_eq htype hcondition
      rw [hs]
      rfl
    · cases hcondition
      have hnone : conditionTime (.dict d) = none := by
        rw [conditionTime, Value.field_dict, if_neg htype]
      rw [hnone]
      exact ih hbefore

theorem delay_pos (created scheduled : ℚ) : 0 < delay created scheduled := by
  unfold delay
  split_ifs with h
  · norm_num
  · exact lt_of_le_of_ne (le_max_right _ _) (Ne.symm h)

theorem conditions_dict {created l : ℚ} {bound : Bool} {conditions : List Value}
    (h : latencyOf created bound conditions = .ok l) : ∀ c ∈ conditions, ∃ d, c = .dict d := by
  induction conditions using List.reverseRecOn generalizing l with
  | nil => exact fun c hc => absurd hc List.not_mem_nil
  | append_singleton conditions condition ih =>
    rw [latencyOf, fold_append] at h
    obtain ⟨before, hbefore, hlast⟩ := bind_eq_ok.1 h
    obtain ⟨l', hl', -⟩ := bind_eq_ok.1 hlast
    obtain ⟨d, hd, -⟩ := bind_eq_ok.1 hl'
    intro c hc
    rcases List.mem_append.1 hc with hc | hc
    · exact ih hbefore c hc
    · rw [List.mem_singleton.1 hc]
      exact ⟨d, Value.items_eq_ok.1 hd⟩

theorem latencyOf_unbound {created l : ℚ} {conditions : List Value}
    (h : latencyOf created false conditions = .ok l) : l = 0 := by
  refine fold_invariant (P := (· = 0)) (fun b x b' hb hstep => ?_) rfl h
  obtain ⟨d, -, hcondition⟩ := bind_eq_ok.1 hstep
  rw [Bool.and_false, if_neg (by decide)] at hcondition
  cases hcondition
  exact hb

/-- What the row of a Pod says. -/
structure RowOf (created : ℚ) (pod : Value) (name : String) (row : PodRow) : Prop where
  pod_eq : row.pod = name
  unschedulable : row.unschedulable = !isBound pod
  latency : row.latency =
    if isBound pod then ((scheduledAt pod).map (delay created)).getD 0 else 0

theorem podRow_eq {created : ℚ} {index : ℕ} {name : String} {row : PodRow}
    (h : podRow fit created observed index name = .ok row) :
    ∃ pod, observed.find name = some pod ∧ RowOf created pod name row := by
  unfold podRow at h
  cases hpod : observed.find name with
  | none =>
    rw [hpod] at h
    cases h
  | some pod =>
    rw [hpod] at h
    obtain ⟨node, hnode, hitems⟩ := bind_eq_ok.1 h
    obtain ⟨items, hd, hstatus⟩ := bind_eq_ok.1 hitems
    obtain ⟨status, hget, hlist⟩ := bind_eq_ok.1 hstatus
    obtain ⟨conditions, hiterate, hlatency⟩ := bind_eq_ok.1 hlist
    obtain ⟨latency, hl, rfl⟩ := map_eq_ok.1 hlatency
    have hconditions : conditions = ((pod.field "status").field "conditions").elements := by
      rw [Value.items_eq_ok.1 hd, Value.field_dict, Items.getOr_dict (Value.items_eq_ok.1 hget),
        Value.iterate_eq_elements hiterate (conditions_dict hl), Items.elements_getOr]
    refine ⟨pod, rfl, rfl, by rw [nodeOf_eq hnode], ?_⟩
    rw [nodeOf_eq hnode] at hl
    cases hbound : isBound pod with
    | false =>
      rw [hbound] at hl
      exact latencyOf_unbound hl
    | true =>
      rw [hbound] at hl
      have := latencyOf_eq hl
      rwa [hconditions] at this

/-- The latencies that are printed for the Pods that bound are their delays. -/
theorem bound_latencies {rs : List PodRow} (htimed : Timed observed names)
    (h : rows cluster fit observed names = .ok rs) :
    (rs.filter fun r => !r.unschedulable).map PodRow.latency = delays cluster observed names := by
  have hall := traverse_eq_ok.1 h
  have hsub : ∀ p ∈ names.zipIdx, p.1 ∈ names := fun p hp =>
    (List.mem_zipIdx' hp).2 ▸ List.getElem_mem _
  unfold delays
  generalize names.zipIdx = indexed at hall hsub
  clear h
  induction hall with
  | nil => rfl
  | @cons p r ps rs hr _ ih =>
    rw [List.forall_mem_cons] at hsub
    obtain ⟨pod, hpod, hrow⟩ := podRow_eq hr
    rw [List.filter_cons, List.filterMap_cons, hpod, Option.bind_some, hrow.unschedulable,
      Bool.not_not]
    cases hbound : isBound pod with
    | false =>
      rw [if_neg (by decide), if_neg (by decide)]
      exact ih hsub.2
    | true =>
      obtain ⟨s, hs⟩ := Option.isSome_iff_exists.1 (htimed _ hsub.1 pod hpod hbound)
      have hlatency := hrow.latency
      rw [hbound, hs] at hlatency
      rw [if_pos rfl, if_pos rfl, hs, List.map_cons, ih hsub.2, hlatency]
      rfl

theorem latency_nonneg {rs : List PodRow} (h : rows cluster fit observed names = .ok rs) :
    ∀ r ∈ rs, 0 ≤ r.latency := by
  intro r hr
  obtain ⟨p, -, hp⟩ := (mem_traverse h).1 hr
  obtain ⟨pod, -, hrow⟩ := podRow_eq hp
  rw [hrow.latency]
  split_ifs
  · cases scheduledAt pod with
    | none => exact le_rfl
    | some s => exact (delay_pos _ s).le
  · exact le_rfl

end Delays

/-! ### The percentile of finite values -/

namespace Placement

section Percentile

variable {xs : List ℚ} {pct : ℚ}

/-- The rank of a percentile among so many values. -/
def rank (pct : ℚ) (n : ℕ) : ℚ := pct / 100 * (n - 1)

/-- The value between the two nearest ranks of sorted values. -/
def interpolate (ordered : List ℚ) (r : ℚ) : ℚ :=
  ordered.getD ⌊r⌋.toNat 0 * (1 - (r - ⌊r⌋.toNat)) + ordered.getD ⌈r⌉.toNat 0 * (r - ⌊r⌋.toNat)

theorem insertionSort_fin (xs : List ℚ) :
    (xs.map Float.fin).insertionSort (fun x y => y.lt x = false) =
      (xs.insertionSort (· ≤ ·)).map Float.fin := by
  refine (List.map_insertionSort _ _ Float.fin xs fun a _ b _ => ?_).symm
  show a ≤ b ↔ decide (b < a) = false
  rw [decide_eq_false_iff_not, not_lt]

theorem rank_bounds {n : ℕ} (hn : 0 < n) (h0 : 0 ≤ pct) (h100 : pct ≤ 100) :
    0 ≤ rank pct n ∧ rank pct n ≤ (n - 1 : ℕ) := by
  have hcast : ((n - 1 : ℕ) : ℚ) = n - 1 := by
    rw [Nat.cast_sub hn, Nat.cast_one]
  have hnonneg : (0 : ℚ) ≤ n - 1 := by
    rw [← hcast]
    positivity
  rw [rank, hcast]
  constructor
  · positivity
  · nlinarith

/-- The percentile of finite values is finite. -/
theorem percentile_fin (hne : xs ≠ []) (h0 : 0 ≤ pct) (h100 : pct ≤ 100) :
    percentile (xs.map Float.fin) pct =
      .ok (.fin (interpolate (xs.insertionSort (· ≤ ·)) (rank pct xs.length))) := by
  have hlen : (xs.insertionSort (· ≤ ·)).length = xs.length := List.length_insertionSort _ _
  have hpos : 0 < xs.length := List.length_pos_of_ne_nil hne
  unfold percentile
  rw [insertionSort_fin]
  generalize xs.insertionSort (· ≤ ·) = ordered at hlen
  -- the branches of the source: nothing, one value, or an interpolation
  match ordered, hlen with
  | [], hlen => exact absurd hlen.symm hpos.ne'
  | [x], hlen =>
    have hrank : rank pct xs.length = 0 := by
      rw [← hlen, rank, List.length_singleton, Nat.cast_one, sub_self, mul_zero]
    rw [hrank]
    simp [interpolate]
  | x :: y :: rest, hlen =>
    obtain ⟨hr0, hr⟩ := rank_bounds hpos h0 h100
    have hget : ∀ i : ℕ, i ≤ xs.length - 1 →
        ((x :: y :: rest).map Float.fin)[i]? = some (.fin ((x :: y :: rest).getD i 0)) := by
      intro i hi
      have hlt : i < (x :: y :: rest).length := by omega
      rw [List.getElem?_map, List.getD_eq_getElem?_getD, List.getElem?_eq_getElem hlt]
      rfl
    have hlow : ⌊rank pct xs.length⌋.toNat ≤ xs.length - 1 := by
      rw [Int.toNat_le]
      exact Int.floor_le_iff.2 (lt_of_le_of_lt hr (lt_add_one _))
    have hhigh : ⌈rank pct xs.length⌉.toNat ≤ xs.length - 1 := by
      rw [Int.toNat_le]
      exact Int.ceil_le.2 hr
    have hdef : pct / 100 * (((((x :: y :: rest).map Float.fin).length : ℕ) : ℚ) - 1) =
        rank pct xs.length := by
      rw [List.length_map, hlen, rank]
    show (match ((x :: y :: rest).map Float.fin)[⌊pct / 100 * _⌋.toNat]?,
      ((x :: y :: rest).map Float.fin)[⌈pct / 100 * _⌉.toNat]? with
      | some x, some y => _
      | _, _ => _) = _
    rw [hdef, hget _ hlow, hget _ hhigh]
    dsimp only
    split_ifs with heq
    · rw [interpolate, ← heq]
      congr 2
      ring
    · rfl

/-! ### Delays of at most half a microsecond -/

/-- A delay as it is printed, in seconds. -/
def printed (q : ℚ) : ℚ := (roundHalfEven (q * 10 ^ 3) : ℚ) / 10 ^ 3

theorem printed_mono {p q : ℚ} (h : p ≤ q) : printed p ≤ printed q := by
  have hround := roundHalfEven_mono (show p * 10 ^ 3 ≤ q * 10 ^ 3 by linarith)
  have hcast : (roundHalfEven (p * 10 ^ 3) : ℚ) ≤ roundHalfEven (q * 10 ^ 3) := by
    exact_mod_cast hround
  unfold printed
  gcongr

theorem abs_printed_sub_le (q : ℚ) : |printed q - q| ≤ 1 / 2000 := by
  have h := abs_le.1 (abs_roundHalfEven_sub_le (q * 10 ^ 3))
  unfold printed
  rw [abs_le]
  constructor <;> linarith [h.1, h.2]

theorem printed_eq_zero {q : ℚ} (h0 : 0 ≤ q) (h : q ≤ 1 / 2000) : printed q = 0 := by
  have hzero : roundHalfEven (q * 10 ^ 3) = 0 := by
    have hfloor : ⌊q * 10 ^ 3⌋ = 0 := by
      rw [Int.floor_eq_iff]
      constructor <;> push_cast <;> linarith
    unfold roundHalfEven
    rw [hfloor]
    dsimp only
    rw [Int.cast_zero, sub_zero]
    split_ifs with h₁ h₂ h₃
    · rfl
    · linarith
    · rfl
    · exact absurd rfl h₃
  rw [printed, hzero, Int.cast_zero, zero_div]

theorem insertionSort_printed (xs : List ℚ) :
    (xs.map printed).insertionSort (· ≤ ·) = (xs.insertionSort (· ≤ ·)).map printed := by
  have hperm : ((xs.map printed).insertionSort (· ≤ ·)).Perm
      ((xs.insertionSort (· ≤ ·)).map printed) :=
    (List.perm_insertionSort _ _).trans ((List.perm_insertionSort _ xs).symm.map printed)
  refine hperm.eq_of_pairwise' (List.pairwise_insertionSort _ _) ?_
  rw [List.pairwise_map]
  exact (List.pairwise_insertionSort (· ≤ ·) xs).imp printed_mono

/-- The weight of the higher rank is nothing, or at least a hundredth away from nothing and from
everything. -/
theorem weight_cases {n : ℕ} (hn : 0 < n) {f : ℚ} (hf : f = rank 99 n - ⌊rank 99 n⌋.toNat) :
    (⌈rank 99 n⌉.toNat = ⌊rank 99 n⌋.toNat ∧ f = 0) ∨ (1 / 100 ≤ f ∧ f ≤ 99 / 100) := by
  have hr0 : 0 ≤ rank 99 n := (rank_bounds hn (by norm_num) (by norm_num)).1
  have hfloor : ((⌊rank 99 n⌋.toNat : ℕ) : ℚ) = (⌊rank 99 n⌋ : ℤ) := by
    exact_mod_cast Int.toNat_of_nonneg (Int.floor_nonneg.2 hr0)
  -- in hundredths, the weight is an integer
  obtain ⟨k, hk⟩ : ∃ k : ℤ, 100 * f = k := by
    refine ⟨99 * (n - 1) - 100 * ⌊rank 99 n⌋, ?_⟩
    rw [hf, hfloor, rank]
    push_cast
    ring
  have hlow : 0 ≤ f := by
    rw [hf, hfloor]
    linarith [Int.floor_le (rank 99 n)]
  have hhigh : f < 1 := by
    rw [hf, hfloor]
    linarith [Int.lt_floor_add_one (rank 99 n)]
  have hk0 : 0 ≤ k := by
    have : (0 : ℚ) ≤ k := by linarith
    exact_mod_cast this
  have hk100 : k ≤ 99 := by
    have : (k : ℚ) < 100 := by linarith
    have hlt : k < 100 := by exact_mod_cast this
    omega
  rcases hk0.eq_or_lt with rfl | hpos
  · have hzero : f = 0 := by
      rw [Int.cast_zero] at hk
      linarith
    refine .inl ⟨?_, hzero⟩
    have hint : rank 99 n = (⌊rank 99 n⌋ : ℤ) := by
      rw [← hfloor]
      linarith
    rw [hint, Int.ceil_intCast, Int.floor_intCast]
  · have h1 : (1 : ℚ) ≤ k := by exact_mod_cast hpos
    have h99 : (k : ℚ) ≤ 99 := by exact_mod_cast hk100
    exact .inr ⟨by linarith, by linarith⟩

/-- Printed in seconds and read in milliseconds. -/
theorem reported_iff {x y f : ℚ} (hx : 0 ≤ x) (hy : 0 ≤ y)
    (hf : y = x ∧ f = 0 ∨ 1 / 100 ≤ f ∧ f ≤ 99 / 100) :
    |(printed x * (1 - f) + printed y * f) - 1000 * (x * (1 - f) + y * f)| ≤ 1 / 2000 ↔
      x * (1 - f) + y * f ≤ 1 / 2000000 := by
  have hf0 : 0 ≤ f ∧ f ≤ 1 := by
    rcases hf with ⟨-, rfl⟩ | ⟨h₁, h₂⟩
    · norm_num
    · constructor <;> linarith
  have hx' := mul_nonneg hx (sub_nonneg.2 hf0.2)
  have hy' := mul_nonneg hy hf0.1
  -- what is that small is printed as nothing
  have hsmall : x * (1 - f) + y * f ≤ 1 / 200000 →
      printed x * (1 - f) + printed y * f = 0 := by
    intro h
    rcases hf with ⟨rfl, rfl⟩ | ⟨h₁, h₂⟩
    · rw [printed_eq_zero hx (by linarith)]
      ring
    · have hx100 : x * (1 / 100) ≤ x * (1 - f) := by gcongr; linarith
      have hy100 : y * (1 / 100) ≤ y * f := by gcongr
      rw [printed_eq_zero hx (by linarith), printed_eq_zero hy (by linarith)]
      ring
  constructor
  · intro h
    by_contra hlarge
    rw [not_le] at hlarge
    rcases le_total (x * (1 - f) + y * f) (1 / 200000) with hle | hge
    · rw [hsmall hle] at h
      linarith [(abs_le.1 h).1]
    · have hpx := (abs_le.1 (abs_printed_sub_le x)).2
      have hpy := (abs_le.1 (abs_printed_sub_le y)).2
      have hupper : printed x * (1 - f) + printed y * f ≤
          (x + 1 / 2000) * (1 - f) + (y + 1 / 2000) * f := by
        have h1f : 0 ≤ 1 - f := sub_nonneg.2 hf0.2
        have hf' := hf0.1
        gcongr <;> linarith
      linarith [(abs_le.1 h).1]
  · intro h
    rw [hsmall (by linarith), abs_le]
    constructor <;> linarith

theorem getD_map_printed (xs : List ℚ) (i : ℕ) :
    (xs.map printed).getD i 0 = printed (xs.getD i 0) := by
  have hzero : printed 0 = 0 := printed_eq_zero le_rfl (by norm_num)
  rw [List.getD_eq_getElem?_getD, List.getD_eq_getElem?_getD, List.getElem?_map]
  cases xs[i]? with
  | none => exact hzero.symm
  | some x => rfl

/-- The 99th percentile of the printed values, read as milliseconds, is that of the values in
milliseconds only where there is nothing to report. -/
theorem interpolate_iff {n : ℕ} {ordered : List ℚ} (hn : 0 < n) (h0 : ∀ x ∈ ordered, 0 ≤ x) :
    |interpolate (ordered.map printed) (rank 99 n) - 1000 * interpolate ordered (rank 99 n)| ≤
        1 / 2000 ↔
      interpolate ordered (rank 99 n) ≤ 1 / 2000000 := by
  have hget : ∀ i, 0 ≤ ordered.getD i 0 := by
    intro i
    rw [List.getD_eq_getElem?_getD]
    cases hi : ordered[i]? with
    | none => exact le_rfl
    | some x => exact h0 x (List.mem_of_getElem? hi)
  unfold interpolate
  rw [getD_map_printed, getD_map_printed]
  refine reported_iff (hget _) (hget _) ?_
  rcases weight_cases hn rfl with ⟨hrank, hzero⟩ | hweight
  · exact .inl ⟨by rw [hrank], hzero⟩
  · exact .inr hweight

end Percentile

/-! ### Fields without quotes -/

section Plain

open Csv

theorem not_isSpecial_of_isDigit {c : Char} (h : c.isDigit = true) : isSpecial c = false :=
  forall_digit (P := fun c => isSpecial c = false) (by decide) h

theorem plain_natDigits (n : ℕ) : ∀ c ∈ natDigits n, isSpecial c = false :=
  fun _ hc => not_isSpecial_of_isDigit (isDigit_of_mem_natDigits hc)

theorem length_natDigits_le {n k : ℕ} (hk : 0 < k) (h : n < 10 ^ k) : (natDigits n).length ≤ k :=
  (Nat.length_toDigits_le_iff (by omega) hk).2 h

theorem plain_of_any {cs : List Char} (h : cs.any isSpecial = false) :
    ∀ c ∈ cs, isSpecial c = false := fun c hc => by
  simpa using List.any_eq_false.1 h c hc

theorem toString_int (n : ℤ) :
    ∃ sign : List Char, (toString n).toList = sign ++ natDigits n.natAbs ∧
      sign.length ≤ 1 ∧ ∀ c ∈ sign, isSpecial c = false := by
  cases n with
  | ofNat n => exact ⟨[], toList_toString n, by decide, plain_of_any rfl⟩
  | negSucc n =>
    refine ⟨['-'], ?_, by decide, plain_of_any rfl⟩
    show ("-" ++ toString (n + 1)).toList = _
    rw [String.toList_append, toList_toString]
    rfl

theorem isPlain_of_toList {field : String} {cs : List Char} (h : field.toList = cs) (hne : cs ≠ [])
    (hplain : ∀ c ∈ cs, isSpecial c = false) (hlen : cs.length ≤ fieldLimit) : IsPlain field where
  ne_empty := by
    rintro rfl
    exact hne h.symm
  plain := h ▸ hplain
  within := by rwa [← String.length_toList, h]

/-- A short text. -/
theorem isPlain_short {field : String} (hne : field ≠ "")
    (hplain : field.toList.any isSpecial = false) (hlen : field.toList.length ≤ 100) :
    IsPlain field where
  ne_empty := hne
  plain := plain_of_any hplain
  within := by
    rw [fieldLimit, ← String.length_toList]
    omega

theorem isPlain_toString {block : ℤ} (h : block.natAbs < 10 ^ maxIntDigits) :
    IsPlain (toString block) := by
  obtain ⟨sign, htext, hsign, hplain⟩ := toString_int block
  refine isPlain_of_toList htext (by simp [natDigits_ne_nil]) ?_ ?_
  · exact List.forall_mem_append.2 ⟨hplain, plain_natDigits _⟩
  · have hdigits := length_natDigits_le (by decide) h
    rw [List.length_append, fieldLimit]
    rw [maxIntDigits] at hdigits
    omega

theorem isPlain_podName {block : ℤ} {index : ℕ} (hblock : block.natAbs < 10 ^ maxIntDigits)
    (hindex : index < 10 ^ maxIntDigits) : IsPlain (podName block index) := by
  obtain ⟨sign, htext, hsign, hplain⟩ := toString_int block
  have hname : (podName block index).toList =
      "sched-probe-b".toList ++ (sign ++ natDigits block.natAbs) ++ ['-'] ++ natDigits index := by
    rw [podName, String.toList_append, String.toList_append, String.toList_append, htext,
      toList_toString]
    rfl
  refine isPlain_of_toList hname (by simp) ?_ ?_
  · simp only [List.forall_mem_append]
    exact ⟨⟨⟨plain_of_any (by decide), hplain, plain_natDigits _⟩, plain_of_any rfl⟩,
      plain_natDigits _⟩
  · have hdigits := length_natDigits_le (by decide) hblock
    have hdigits' := length_natDigits_le (by decide) hindex
    have hprefix : "sched-probe-b".toList.length = 13 := by decide
    simp only [List.length_append, List.length_singleton, fieldLimit, hprefix]
    rw [maxIntDigits] at hdigits hdigits'
    omega

theorem isPlain_formatFixed {q : ℚ} (h0 : 0 ≤ q) (h : q < 10 ^ 13) : IsPlain (formatFixed 3 q) := by
  obtain ⟨n, ds, hlen, hds, htext, hvalue⟩ := formatFixed_toList (show 3 ≠ 0 by decide) q
  rw [if_neg (not_lt.2 h0), List.nil_append] at htext
  have hn : n < 10 ^ 14 := by
    have hround : roundHalfEven (|q| * 10 ^ 3) ≤ 10 ^ 16 := by
      refine roundHalfEven_le ?_
      rw [abs_of_nonneg h0]
      push_cast
      linarith
    rw [digitsValue_append, digitsValue_natDigits, hlen] at hvalue
    have hle : (n : ℤ) * 10 ^ 3 ≤ 10 ^ 16 := by
      rw [← hvalue] at hround
      push_cast at hround
      linarith [Int.natCast_nonneg (digitsValue ds)]
    omega
  refine isPlain_of_toList htext (by simp) ?_ ?_
  · refine List.forall_mem_append.2 ⟨plain_natDigits n, List.forall_mem_cons.2 ⟨by decide, ?_⟩⟩
    exact fun c hc => not_isSpecial_of_isDigit (hds c hc)
  · have hdigits := length_natDigits_le (by decide) hn
    rw [List.length_append, List.length_cons, hlen, fieldLimit]
    omega

theorem isPlain_digit (b : Bool) : IsPlain (if b then "1" else "0") := by
  cases b <;> exact isPlain_short (by decide) (by decide) (by decide)

theorem isPlain_podsHeader : ∀ f ∈ podsHeader, IsPlain f := by
  simp only [podsHeader, List.forall_mem_cons]
  refine ⟨?_, ?_, ?_, ?_, ?_, ?_, fun _ h => absurd h List.not_mem_nil⟩ <;>
    exact isPlain_short (by decide) (by decide) (by decide)

theorem isPlain_rowFields {block : ℤ} {profile : String} {row : KubeSched.PodRow}
    (hblock : IsPlain (toString block)) (hprofile : IsPlain profile) (hpod : IsPlain row.pod)
    (h0 : 0 ≤ row.latency) (h : row.latency < 10 ^ 13) :
    ∀ f ∈ rowFields block profile row, IsPlain f := by
  simp only [rowFields, List.forall_mem_cons]
  exact ⟨hblock, hprofile, hpod, isPlain_formatFixed h0 h, isPlain_digit _, isPlain_digit _,
    fun _ h => absurd h List.not_mem_nil⟩

end Plain

/-! ### What is read back -/

section Reading

/-- A row that was printed, as it is read: the latency with three decimals. -/
def readBack (block : ℤ) (profile : String) (row : KubeSched.PodRow) : PodRow where
  blockId := strip (toString block)
  profile := strip profile
  pod := strip row.pod
  latencyMs := .fin (printed row.latency)
  unschedulable := row.unschedulable
  correct := row.correct

theorem dictRow_podsHeader (a b c d e f : String) :
    dictRow podsHeader [a, b, c, d, e, f] =
      [("block_id", some a), ("profile", some b), ("pod", some c), ("latency_ms", some d),
        ("unschedulable", some e), ("correct", some f)] := by
  show Dict.index Prod.fst Prod.snd [("block_id", some a), ("profile", some b), ("pod", some c),
    ("latency_ms", some d), ("unschedulable", some e), ("correct", some f)] = _
  refine (Dict.index_eq_map ?_).trans (List.map_id _)
  show ["block_id", "profile", "pod", "latency_ms", "unschedulable", "correct"].Nodup
  decide

theorem flag_digit (b : Bool) : flag (strip (if b then "1" else "0")) = b := by
  cases b <;> decide

theorem readRow_rowFields {block : ℤ} {profile : String} {row : KubeSched.PodRow}
    (h : 0 ≤ row.latency) :
    readRow (dictRow podsHeader (rowFields block profile row)) =
      .ok (readBack block profile row) := by
  rw [rowFields, dictRow_podsHeader]
  have hlatency : parseFloat (formatFixed 3 row.latency) = .ok (.fin (printed row.latency)) :=
    parseFloat_formatFixed (by decide) h
  simp only [readRow, Row.stripped, floatField, Row.field, List.lookup_cons, String.reduceBEq,
    Option.join_some, Except.bind, Except.map, hlatency, flag_digit, readBack]

theorem readTable_podsCsv {block : ℤ} {profile : String} {rows : List KubeSched.PodRow}
    (h : ∀ row ∈ rows, ∀ f ∈ rowFields block profile row, Csv.IsPlain f) :
    readTable (podsCsv block profile rows) =
      ⟨podsHeader, rows.map (rowFields block profile)⟩ := by
  have hrecords : Csv.records {} (Csv.lines (podsCsv block profile rows)) =
      podsHeader :: rows.map (rowFields block profile) := by
    rw [podsCsv, emit, ← List.flatMap_cons]
    refine Csv.records_printRows ?_
    rw [List.forall_mem_cons, List.forall_mem_map]
    exact ⟨⟨by simp [podsHeader], isPlain_podsHeader⟩,
      fun row hrow => ⟨by simp [rowFields], h row hrow⟩⟩
  rw [readTable, hrecords]

/-- **The rows of a burst are read back**, with three decimals. -/
theorem readPods_podsCsv {path : String} {block : ℤ} {profile : String}
    {rows : List KubeSched.PodRow}
    (h : ∀ row ∈ rows, ∀ f ∈ rowFields block profile row, Csv.IsPlain f)
    (h0 : ∀ row ∈ rows, 0 ≤ row.latency) :
    readPods path (podsCsv block profile rows) = .ok (rows.map (readBack block profile)) := by
  have hmissing : (required.filter fun name => !podsHeader.contains name) = [] := by decide
  have hrows : (⟨podsHeader, rows.map (rowFields block profile)⟩ : Table).rows =
      rows.map fun row => dictRow podsHeader (rowFields block profile row) := by
    rw [Table.rows, List.filter_eq_self.2, List.map_map]
    · rfl
    · intro record hrecord
      obtain ⟨row, -, rfl⟩ := List.mem_map.1 hrecord
      rfl
  rw [readPods, readTable_podsCsv h]
  dsimp only
  rw [hmissing, if_neg (by simp), hrows, traverse_eq_ok, List.forall₂_map_left_iff,
    List.forall₂_map_right_iff, List.forall₂_same]
  exact fun row hrow => readRow_rowFields (h0 row hrow)

end Reading

/-! ### The metrics of one burst -/

section Metrics

/-- Rows of one block and profile make one group. -/
theorem group_eq {key : String × String} {rows : List PodRow} (hne : rows ≠ [])
    (h : ∀ row ∈ rows, (row.blockId, row.profile) = key) :
    rows.foldl (fun d row =>
      Dict.update (row.blockId, row.profile) (fun pods => pods.getD [] ++ [row]) d) [] =
      [(key, rows)] := by
  induction rows using List.reverseRecOn with
  | nil => exact absurd rfl hne
  | append_singleton rows row ih =>
    have hrow := h row (by simp)
    rw [List.foldl_append, List.foldl_cons, List.foldl_nil, hrow]
    cases rows with
    | nil => rfl
    | cons first rest =>
      rw [ih (List.cons_ne_nil _ _) fun r hr => h r (List.mem_append_left _ hr), Dict.update,
        if_pos rfl]
      rfl

theorem blockMetrics_eq {key : String × String} {rows : List PodRow} (hne : rows ≠ [])
    (h : ∀ row ∈ rows, (row.blockId, row.profile) = key) :
    blockMetrics rows = groupMetrics (key, rows) := by
  rw [blockMetrics, group_eq hne h]
  show gather groupMetrics [(key, rows)] = _
  rw [gather, Py.traverse, Py.traverse]
  cases groupMetrics (key, rows) with
  | error e => rfl
  | ok metrics => exact congrArg Except.ok (by simp)

/-- The metric reports the 99th percentile of the delays, in milliseconds and to half of the last
printed decimal. -/
def Reports (metrics : List BlockMetric) (delays : List ℚ) : Prop :=
  ∀ p, percentile (delays.map Float.fin) 99 = .ok (.fin p) →
    ∃ m ∈ metrics, m.metric = submitToScheduled ∧
      ∃ q, m.value = .fin q ∧ |q - 1000 * p| ≤ 1 / 2000

/-- The percentile of the delays is at most half a microsecond. -/
def Negligible (delays : List ℚ) : Prop :=
  ∀ p, percentile (delays.map Float.fin) 99 = .ok (.fin p) → p ≤ 1 / 2000000

theorem percentile_nil {p : Py.Float} : percentile (([] : List ℚ).map Float.fin) 99 ≠ .ok p :=
  fun h => by cases h

theorem latencies_readBack (block : ℤ) (profile : String) (rows : List KubeSched.PodRow) :
    ((rows.map (readBack block profile)).filter fun p => !p.unschedulable).map PodRow.latencyMs =
      (((rows.filter fun r => !r.unschedulable).map KubeSched.PodRow.latency).map
        printed).map Float.fin := by
  rw [List.filter_map, List.map_map, List.map_map, List.map_map]
  rfl

theorem groupMetrics_iff {key : String × String} {block : ℤ} {profile : String}
    {rows : List KubeSched.PodRow} (h0 : ∀ row ∈ rows, 0 ≤ row.latency) {ds : List ℚ}
    (hds : (rows.filter fun r => !r.unschedulable).map KubeSched.PodRow.latency = ds) :
    ∃ metrics, groupMetrics (key, rows.map (readBack block profile)) = .ok metrics ∧
      (Reports metrics ds ↔ Negligible ds) := by
  unfold groupMetrics
  dsimp only
  rw [latencies_readBack, hds]
  by_cases hnil : ds = []
  · subst hnil
    exact ⟨_, if_pos rfl, fun _ p hp => absurd hp percentile_nil,
      fun _ p hp => absurd hp percentile_nil⟩
  · have hpos : 0 < ds.length := List.length_pos_of_ne_nil hnil
    have hne : ds.map printed ≠ [] := by simpa using hnil
    have hsorted : ∀ x ∈ ds.insertionSort (· ≤ ·), 0 ≤ x := by
      intro x hx
      rw [List.mem_insertionSort, ← hds] at hx
      obtain ⟨row, hrow, rfl⟩ := List.mem_map.1 hx
      exact h0 row (List.mem_of_mem_filter hrow)
    have htrue := percentile_fin hnil (show (0 : ℚ) ≤ 99 by norm_num) (by norm_num)
    have hread := percentile_fin hne (show (0 : ℚ) ≤ 99 by norm_num) (by norm_num)
    rw [insertionSort_printed, List.length_map] at hread
    have hiff := interpolate_iff hpos hsorted
    rw [if_neg (by simpa using hnil), hread]
    refine ⟨_, rfl, fun h p hp => ?_, fun h p hp => ?_⟩
    · cases htrue.symm.trans hp
      obtain ⟨m, hm, hname, q, hq, habs⟩ := h _ htrue
      rcases List.mem_pair.1 hm with rfl | rfl
      · cases hq
        exact hiff.1 habs
      · exact absurd (show "correct_placement_rate" = submitToScheduled from hname) (by decide)
    · cases htrue.symm.trans hp
      exact ⟨_, List.mem_cons_self, rfl, _, rfl, hiff.2 (h _ htrue)⟩

end Metrics

end Placement

/-! ### Whole bursts -/

section Burst

variable {cluster : Cluster} {observed : Observed} {fit : Option ℕ} {block : ℤ} {total : ℕ}
  {rs : List PodRow}

theorem scheduledAt_lt {pod : Value} {s : ℚ} (h : scheduledAt pod = some s) : s < 10 ^ 13 := by
  obtain ⟨condition, -, hcondition⟩ := List.exists_of_findSome?_eq_some h
  unfold conditionTime at hcondition
  split_ifs at hcondition
  split at hcondition
  · next text _ =>
    cases htime : Datetime.timestamp text with
    | error e =>
      rw [htime] at hcondition
      cases hcondition
    | ok q =>
      rw [htime] at hcondition
      cases hcondition
      exact Datetime.timestamp_lt htime
  · cases hcondition

theorem delay_lt {created s : ℚ} (hcreated : 0 ≤ created) (h : s < 10 ^ 13) :
    delay created s < 10 ^ 13 := by
  unfold delay
  split_ifs
  · norm_num
  · exact max_lt (by linarith) (by norm_num)

open Placement in
/-- Every field of the rows is printed without quotes. -/
theorem isPlain_rows {profile : String} (hprofile : Csv.IsPlain profile)
    (hblock : block.natAbs < 10 ^ maxIntDigits) (htotal : total ≤ 10 ^ maxIntDigits)
    (hclock : ∀ index, 0 ≤ cluster.createdAt index)
    (hrows : rows cluster fit observed ((List.range total).map (podName block)) = .ok rs) :
    ∀ row ∈ rs, ∀ f ∈ rowFields block profile row, Csv.IsPlain f := by
  intro row hrow
  obtain ⟨p, hp, hpod⟩ := (mem_traverse hrows).1 hrow
  obtain ⟨pod, -, hrowOf⟩ := podRow_eq hpod
  have hname : p.1 ∈ (List.range total).map (podName block) :=
    (List.mem_zipIdx' hp).2 ▸ List.getElem_mem _
  obtain ⟨index, hindex, hpodName⟩ := List.mem_map.1 hname
  have hlatency : row.latency < 10 ^ 13 := by
    rw [hrowOf.latency]
    split_ifs
    · cases hs : scheduledAt pod with
      | none => norm_num
      | some s => exact delay_lt (hclock _) (scheduledAt_lt hs)
    · norm_num
  refine isPlain_rowFields (isPlain_toString hblock) hprofile ?_ (latency_nonneg hrows row hrow)
    hlatency
  rw [hrowOf.pod_eq, ← hpodName]
  exact isPlain_podName hblock (lt_of_lt_of_le (List.mem_range.1 hindex) htotal)

open Placement in
/-- The rows that a burst prints, read by the analysis: the reported percentile is that of the
delays from creation to scheduling only where there is nothing to report.  The clock gives times
after 1970, and numbers are printed with the digits that the interpreter allows. -/
theorem submitToScheduled_iff {path profile : String} (hprofile : Csv.IsPlain profile)
    (hblock : block.natAbs < 10 ^ maxIntDigits) (htotal : total ≤ 10 ^ maxIntDigits)
    (hclock : ∀ index, 0 ≤ cluster.createdAt index)
    (htimed : Timed observed ((List.range total).map (podName block)))
    (hrows : rows cluster fit observed ((List.range total).map (podName block)) = .ok rs) :
    ∃ metrics, (readPods path (podsCsv block profile rs)).bind blockMetrics = .ok metrics ∧
      (Reports metrics (delays cluster observed ((List.range total).map (podName block))) ↔
        Negligible (delays cluster observed ((List.range total).map (podName block)))) := by
  have h0 := latency_nonneg hrows
  have hdelays := bound_latencies htimed hrows
  rw [readPods_podsCsv (isPlain_rows hprofile hblock htotal hclock hrows) h0]
  show ∃ metrics, blockMetrics (rs.map (readBack block profile)) = .ok metrics ∧ _
  by_cases hnil : rs = []
  · subst hnil
    rw [← hdelays]
    exact ⟨[], rfl, fun _ p hp => absurd hp percentile_nil, fun _ p hp => absurd hp percentile_nil⟩
  · have hkey : ∀ row ∈ rs.map (readBack block profile),
        (row.blockId, row.profile) = (strip (toString block), strip profile) := by
      intro row hrow
      obtain ⟨r, -, rfl⟩ := List.mem_map.1 hrow
      rfl
    rw [blockMetrics_eq (by simpa using hnil) hkey]
    exact groupMetrics_iff h0 hdelays

end Burst

/-! ### A Pod that waits for two seconds -/

/-- A Pod that is bound, with the time of its condition. -/
def boundPod (name time : String) : Value :=
  .dict [(.str "metadata", .dict [(.str "name", .str name)]),
    (.str "spec", .dict [(.str "nodeName", .str "w")]),
    (.str "status", .dict [(.str "conditions", .list [.dict [(.str "type", .str "PodScheduled"),
      (.str "lastTransitionTime", .str time)]])])]

/-- A Pod that is scheduled at 102 s. -/
def slowPod : Value := boundPod "sched-probe-b1-0" "1970-01-01T00:01:42Z"

/-- The Pods are created at 100 s. -/
def slowCluster : Cluster := { smallCluster with createdAt := fun _ => 100 }

/-- The Pod, as it is seen. -/
def slowObserved : Observed := [(.str "sched-probe-b1-0", slowPod)]

/-- Its row. -/
def slowRows : List PodRow := [⟨"sched-probe-b1-0", 2, false, true⟩]

theorem rows_slowPod :
    rows slowCluster none slowObserved ((List.range 1).map (podName 1)) = .ok slowRows := by
  decide +kernel

theorem delays_slowPod :
    delays slowCluster slowObserved ((List.range 1).map (podName 1)) = [2] := by
  decide +kernel

open Placement in
/-- Two seconds are reported as two milliseconds. -/
theorem not_reports_slowPod :
    rows slowCluster none slowObserved ((List.range 1).map (podName 1)) = .ok slowRows ∧
      (readPods "pods.csv" (podsCsv 1 "topology-spread" slowRows)).bind blockMetrics =
        .ok [⟨"1", "topology-spread", submitToScheduled, .fin 2⟩,
          ⟨"1", "topology-spread", "correct_placement_rate", .fin 1⟩] ∧
      ¬ Reports [⟨"1", "topology-spread", submitToScheduled, .fin 2⟩,
          ⟨"1", "topology-spread", "correct_placement_rate", .fin 1⟩]
        (delays slowCluster slowObserved ((List.range 1).map (podName 1))) := by
  refine ⟨rows_slowPod, by decide +kernel, fun h => ?_⟩
  rw [delays_slowPod] at h
  obtain ⟨m, hm, hname, q, hq, habs⟩ := h 2 (by decide +kernel)
  rcases List.mem_pair.1 hm with rfl | rfl
  · cases hq
    norm_num [abs_le] at habs
  · exact absurd hname (by decide)

/-- Three Pods that wait for one, two and four seconds. -/
def threeObserved : Observed :=
  [(.str "sched-probe-b1-0", boundPod "sched-probe-b1-0" "1970-01-01T00:01:41Z"),
    (.str "sched-probe-b1-1", boundPod "sched-probe-b1-1" "1970-01-01T00:01:42Z"),
    (.str "sched-probe-b1-2", boundPod "sched-probe-b1-2" "1970-01-01T00:01:44Z")]

/-- Their rows. -/
def threeRows : List PodRow :=
  [⟨"sched-probe-b1-0", 1, false, true⟩, ⟨"sched-probe-b1-1", 2, false, true⟩,
    ⟨"sched-probe-b1-2", 4, false, true⟩]

theorem rows_threePods :
    rows slowCluster none threeObserved ((List.range 3).map (podName 1)) = .ok threeRows := by
  decide +kernel

theorem delays_threePods :
    delays slowCluster threeObserved ((List.range 3).map (podName 1)) = [1, 2, 4] := by
  decide +kernel

open Placement in
/-- The percentile lies between two of the three delays, at 3.96 s. -/
theorem submitToScheduled_iff_threePods :
    percentile ((delays slowCluster threeObserved ((List.range 3).map (podName 1))).map Float.fin) 99 =
        .ok (.fin (99 / 25)) ∧
    ∃ metrics, (readPods "pods.csv" (podsCsv 1 "topology-spread" threeRows)).bind blockMetrics =
        .ok metrics ∧
      (Reports metrics (delays slowCluster threeObserved ((List.range 3).map (podName 1))) ↔
        Negligible (delays slowCluster threeObserved ((List.range 3).map (podName 1)))) := by
  have hpercentile : percentile ([1, 2, 4].map Float.fin) 99 = .ok (.fin (99 / 25)) := by
    decide +kernel
  refine ⟨by rw [delays_threePods, hpercentile], ?_⟩
  have htotal : 3 ≤ 10 ^ maxIntDigits :=
    le_trans (show 3 ≤ maxIntDigits by decide) (Nat.lt_pow_self (by decide)).le
  refine submitToScheduled_iff (isPlain_short (by decide) (by decide) (by decide))
    (Nat.one_lt_pow (by decide) (by decide)) htotal
    (fun _ => show (0 : ℚ) ≤ 100 by norm_num) ?_ rows_threePods
  intro name _ pod hpod _
  obtain ⟨p, hp, rfl⟩ := Option.map_eq_some_iff.1 hpod
  have hscheduled : ∀ p ∈ threeObserved, (scheduledAt p.2).isSome = true := by
    rw [threeObserved, List.forall_mem_cons, List.forall_mem_cons, List.forall_mem_singleton]
    decide +kernel
  exact hscheduled p (List.mem_reverse.1 (List.mem_of_find?_eq_some hp))

end KubeSched
