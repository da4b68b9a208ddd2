import K8Labs.Observers.Inventory
import K8Labs.Python.Double
import Mathlib.Data.List.Lex
import Mathlib.Data.List.Sort
import Mathlib.Data.String.Basic

/-!
# The collector

A `Collector` answers two requests: the cgroups of a UID, and the metrics of all its targets.  Each
request meets a `Moment`: the time, the cgroup tree with its links as they are then, and what the
Kubernetes API answers, if it is asked.

* `Reachable.registered`: along every run, a target the collector holds was registered for its own
  UID, by the fixture or by a payload met on the way;
* `safeCgroupPath_eq_some`: a path that passes the check leads, followed by the kernel, to a place
  strictly inside the root;
* `exposed_registered_inside`: whatever a request exposes, in every state of every run.
-/

namespace Observers

open Py

/-- What a request meets. -/
structure Moment where
  /-- `time.monotonic()`. -/
  now : ℚ
  tree : Tree
  /-- The document the Kubernetes API returns. -/
  payload : Except Exc Value

/-- `RefreshingKubernetesInventory`. -/
structure RefreshingInventory where
  cgroupRoot : List String
  refreshSeconds : ℚ
  last : ℚ
  inventory : FixtureInventory

/-- The inventory of a collector. -/
inductive Source where
  | fixture (inventory : FixtureInventory)
  | refreshing (inventory : RefreshingInventory)

namespace Source

/-- The inventory that answers, after a refresh. -/
def inventory : Source → FixtureInventory
  | fixture inventory => inventory
  | refreshing r => r.inventory

/-- `_refresh`; a fixture stays as it is. -/
def refresh (m : Moment) : Source → Except Exc Source
  | fixture inventory => .ok (fixture inventory)
  | refreshing r =>
    if m.now - r.last < r.refreshSeconds then .ok (refreshing r)
    else
      (m.payload.bind (fromPayload m.tree r.cgroupRoot)).map fun inventory =>
        refreshing { r with inventory := inventory, last := m.now }

end Source

/-- `Collector`. -/
structure Collector where
  cgroupRoot : Path
  source : Source
  node : String

/-! ### Paths -/

section Paths

variable (t : Tree) (root : Path)

/-- The names of a registered path: below the root, unless it is absolute. -/
def candidate (relativePath : String) : List String :=
  if isAbsolute relativePath then pathParts relativePath else root ++ pathParts relativePath

/-- `path.resolve()`; a path with a null character cannot be looked up. -/
def resolvePath (relativePath : String) : Except Exc Path :=
  if Char.ofNat 0 ∈ relativePath.toList then valueError "embedded null byte"
  else .ok (t.realpath (candidate root relativePath))

/-- `resolved.relative_to(root)`, as a check. -/
def relativeTo (resolved : Path) : Except Exc Path :=
  if root.isPrefixOf resolved then .ok resolved
  else valueError (quoted resolved.text ++ " is not in the subpath of " ++ quoted root.text)

/-- `_safe_cgroup_path`. -/
def safeCgroupPath (relativePath : String) : Option Path :=
  match (resolvePath t root relativePath).bind (relativeTo root) with
  | .ok resolved => if resolved = root then none else some resolved
  | .error _ => none

/-- A place strictly below the root. -/
def Inside (place : Path) : Prop := root <+: place ∧ place ≠ root

/-- **A path that passes the check is resolved to a place strictly inside the root**; where the
kernel follows the path to its end, it is at that place. -/
theorem safeCgroupPath_eq_some {relativePath : String} {place : Path}
    (h : safeCgroupPath t root relativePath = some place) :
    place = t.realpath (candidate root relativePath) ∧ Inside root place ∧ t.Settled place ∧
      ∀ n q, t.walk n (candidate root relativePath) [] = some q → q = place := by
  unfold safeCgroupPath at h
  split at h
  · next resolved hresolved =>
    obtain ⟨p, hp, hrel⟩ := bind_eq_ok.1 hresolved
    rw [resolvePath, valueError, ite_error_eq_ok] at hp
    obtain ⟨-, hp⟩ := hp
    cases hp
    split_ifs at h with hroot
    cases h
    unfold relativeTo at hrel
    split_ifs at hrel with hprefix
    · cases hrel
      exact ⟨rfl, ⟨List.isPrefixOf_iff_prefix.1 hprefix, hroot⟩, t.settled_realpath _,
        fun n q hq => (Tree.realpath_eq_of_walk hq).symm⟩
    · cases hrel
  · cases h

end Paths

/-! ### The values of a cgroup -/

section Metrics

variable (t : Tree)

/-- `_nonnegative_int`. -/
def nonnegativeInt : Option String → Except Exc (Option ℕ)
  | none => .ok none
  | some value =>
    if isDecimal value then (intOfDigits value.toList).map some else .ok none

/-- `_read_stat_file`. -/
def readStatFile (p : Path) : List (String × String) :=
  match t.readText p with
  | .error _ => []
  | .ok text =>
    (splitLines text).foldl (fun values line =>
      match splitFirst line with
      | [key, value] => Dict.update key (fun _ => value) values
      | _ => values) []

/-- `_read_integer`. -/
def readInteger (p : Path) : Except Exc (Option ℕ) :=
  match t.readText p with
  | .error _ => .ok none
  | .ok text => nonnegativeInt (some (strip text))

/-- `_read_cpu_max`. -/
def readCpuMax (p : Path) : Except Exc (Option ℕ × Option ℕ) :=
  match t.readText p with
  | .error _ => .ok (none, none)
  | .ok text =>
    match splitWords text with
    | [quota, period] =>
      (if quota = "max" then .ok none else nonnegativeInt (some quota)).bind fun quota =>
        (nonnegativeInt (some period)).map fun period => (quota, period)
    | _ => .ok (none, none)

/-- The value of a field `total=…`. -/
def totalField (field : String) : Option String :=
  match partition '=' field.toList with
  | some (key, value) => if String.ofList key = "total" then some (String.ofList value) else none
  | none => none

/-- `_read_cpu_pressure`: the first total in a line of the category `some`. -/
def readCpuPressure (p : Path) : Except Exc (Option ℕ) :=
  match t.readText p with
  | .error _ => .ok none
  | .ok text =>
    nonnegativeInt ((splitLines text).findSome? fun line =>
      match splitWords line with
      | "some" :: fields => fields.findSome? totalField
      | _ => none)

/-- The true division of integers. -/
def trueDiv (n scale : ℕ) : Except Exc ℚ :=
  match toDouble (n / scale) with
  | .fin q => .ok q
  | _ => .error ⟨.overflowError, "integer division result too large for a float"⟩

/-- A metric with its value, when there is one. -/
def metricValue (name : String) (value : Option ℚ) : List (String × ℚ) :=
  (value.map fun q => (name, q)).toList

/-- A counter of `cpu.stat`, over the scale. -/
def scaledStat (stat : List (String × String)) (key : String) (scale : ℕ) :
    Except Exc (Option ℚ) :=
  (nonnegativeInt (stat.lookup key)).bind fun value =>
    match value with
    | none => .ok none
    | some n => (trueDiv n scale).map some

/-- `_read_target_metrics`. -/
def readTargetMetrics (p : Path) : Except Exc (List (String × ℚ)) := do
  let cpuStat := readStatFile t (p ++ ["cpu.stat"])
  let memoryStat := readStatFile t (p ++ ["memory.stat"])
  let usageSeconds ← scaledStat cpuStat "usage_usec" 1000000
  let periods ← scaledStat cpuStat "nr_periods" 1
  let throttled ← scaledStat cpuStat "nr_throttled" 1
  let throttledSeconds ← scaledStat cpuStat "throttled_usec" 1000000
  let weight ← readInteger t (p ++ ["cpu.weight"])
  let (quota, period) ← readCpuMax t (p ++ ["cpu.max"])
  let memoryCurrent ← readInteger t (p ++ ["memory.current"])
  let workingSet ← match memoryCurrent with
    | none => pure none
    | some current => do
      let inactive ← nonnegativeInt (memoryStat.lookup "inactive_file")
      pure (some (current - inactive.getD 0))
  let pressure ← readCpuPressure t (p ++ ["cpu.pressure"])
  let pressureSeconds ← match pressure with
    | none => pure none
    | some total => (trueDiv total 1000000).map some
  pure <|
    metricValue "container_cpu_usage_seconds_total" usageSeconds ++
    metricValue "k8labs_cgroup_cpu_usage_seconds_total" usageSeconds ++
    metricValue "container_cpu_cfs_periods_total" periods ++
    metricValue "container_cpu_cfs_throttled_periods_total" throttled ++
    metricValue "container_cpu_cfs_throttled_seconds_total" throttledSeconds ++
    metricValue "k8labs_cgroup_cpu_weight" (weight.map Nat.cast) ++
    metricValue "k8labs_cgroup_cpu_max_quota" (quota.map Nat.cast) ++
    metricValue "k8labs_cgroup_cpu_max_period" (period.map Nat.cast) ++
    metricValue "container_memory_working_set_bytes" (workingSet.map Nat.cast) ++
    metricValue "container_pressure_cpu_waiting_seconds_total" pressureSeconds

end Metrics

/-! ### The text of the metrics -/

/-- A sample of a metric family. -/
structure Sample where
  metric : String
  labels : List (String × String)
  value : ℚ
  deriving DecidableEq

/-- `METRICS`: names, help texts and types. -/
def metricFamilies : List (String × String × String) :=
  [("container_cpu_usage_seconds_total",
      "Cumulative CPU time used by the target cgroup.", "counter"),
    ("container_cpu_cfs_periods_total",
      "Cumulative CPU quota periods for the target cgroup.", "counter"),
    ("container_cpu_cfs_throttled_periods_total",
      "Cumulative throttled CPU quota periods for the target cgroup.", "counter"),
    ("container_cpu_cfs_throttled_seconds_total",
      "Cumulative CPU throttled time for the target cgroup.", "counter"),
    ("container_memory_working_set_bytes",
      "Memory current minus inactive file cache for the target cgroup.", "gauge"),
    ("container_pressure_cpu_waiting_seconds_total",
      "Cumulative CPU pressure waiting time for the target cgroup.", "counter"),
    ("k8labs_cgroup_cpu_weight", "Exact cgroup v2 cpu.weight value.", "gauge"),
    ("k8labs_cgroup_cpu_max_quota",
      "Exact numeric cgroup v2 cpu.max quota in microseconds.", "gauge"),
    ("k8labs_cgroup_cpu_max_period",
      "Exact cgroup v2 cpu.max period in microseconds.", "gauge"),
    ("k8labs_cgroup_cpu_usage_seconds_total",
      "Exact cgroup v2 cpu.stat usage time in seconds.", "counter")]

/-- `_escape_label`, one character; the three replacements do not meet. -/
def escapeLabelChar (c : Char) : List Char :=
  if c = '\\' then ['\\', '\\']
  else if c = '\n' then ['\\', 'n']
  else if c = '"' then ['\\', '"']
  else [c]

/-- `_escape_label`. -/
def escapeLabel (value : String) : List Char := value.toList.flatMap escapeLabelChar

/-- One label. -/
def renderLabel (label : String × String) : List Char :=
  label.1.toList ++ '=' :: '"' :: (escapeLabel label.2 ++ ['"'])

/-- `_render_labels`; the labels stand in the order of their keys. -/
def renderLabels (labels : List (String × String)) : List Char :=
  '{' :: ([','].intercalate (labels.map renderLabel) ++ ['}'])

/-- `_render_value`; an integer is made a float first. -/
def renderValue (value : ℚ) : Except Exc (List Char) :=
  match toDouble value with
  | .fin q => .ok (formatGeneral 15 q)
  | _ => .error ⟨.overflowError, "int too large to convert to float"⟩

/-- The line of a sample. -/
def renderSample (sample : Sample) : Except Exc (List Char) :=
  (renderValue sample.value).map fun value =>
    sample.metric.toList ++ renderLabels sample.labels ++ ' ' :: value

/-- `_sample_sort_key`. -/
def sampleSortKey (sample : Sample) : List String := sample.labels.map Prod.snd

/-- The samples of a family, in the order in which they are written. -/
def familySamples (samples : List Sample) (name : String) : List Sample :=
  (samples.filter fun sample => sample.metric = name).insertionSort fun a b =>
    sampleSortKey a ≤ sampleSortKey b

/-- The lines of a family. -/
def renderFamily (samples : List Sample) (family : String × String × String) :
    Except Exc (List (List Char)) :=
  (Py.traverse renderSample (familySamples samples family.1)).map fun lines =>
    ("# HELP " ++ family.1 ++ " " ++ family.2.1).toList ::
      ("# TYPE " ++ family.1 ++ " " ++ family.2.2).toList :: lines

/-- The text of the samples. -/
def renderSamples (samples : List Sample) : Except Exc (List Char) :=
  (Py.traverse (renderFamily samples) metricFamilies).map fun families =>
    ['\n'].intercalate families.flatten ++ ['\n']

/-! ### Requests -/

/-- A cgroup in the answer for a UID. -/
structure CgroupItem where
  path : String
  level : String
  container : String
  podNamespace : String
  pod : String
  qos : String
  cellId : String
  deriving DecidableEq

/-- The item of a target at a place. -/
def CgroupTarget.item (target : CgroupTarget) (root place : Path) : CgroupItem where
  path := relativeText root place
  level := target.level
  container := target.container
  podNamespace := target.podNamespace
  pod := target.pod
  qos := target.qos
  cellId := target.cellId

namespace Collector

/-- `Collector(cgroup_root, inventory, node)`. -/
def new (t : Tree) (cgroupRoot : List String) (source : Source) (node : String) : Collector where
  cgroupRoot := t.realpath cgroupRoot
  source := source
  node := node

/-- An answer from the inventory after its refresh; when the refresh raises, the collector stays as
it is. -/
def respond {α : Type} (c : Collector) (m : Moment) (answer : Collector → Except Exc α) :
    Except Exc α × Collector :=
  match c.source.refresh m with
  | .ok source => (answer { c with source := source }, { c with source := source })
  | .error exc => (.error exc, c)

/-- `cgroups_for_uid`. -/
def cgroupsForUid (c : Collector) (m : Moment) (uid : String) :
    Except Exc (List CgroupItem) × Collector :=
  if isUid uid then
    c.respond m fun c =>
      .ok ((c.source.inventory.targetsForUid uid).filterMap fun target =>
        (safeCgroupPath m.tree c.cgroupRoot target.cgroupPath).map (target.item c.cgroupRoot))
  else (.ok [], c)

/-- The samples of a target. -/
def targetSamples (c : Collector) (t : Tree) (target : CgroupTarget) : Except Exc (List Sample) :=
  match safeCgroupPath t c.cgroupRoot target.cgroupPath with
  | none => .ok []
  | some place =>
    (readTargetMetrics t place).map fun metrics => metrics.map fun metric =>
      { metric := metric.1, labels := target.labels c.node, value := metric.2 }

/-- The samples of all targets. -/
def samples (c : Collector) (t : Tree) : Except Exc (List Sample) :=
  (Py.traverse (c.targetSamples t) c.source.inventory.targets).map List.flatten

/-- `render_metrics`. -/
def renderMetrics (c : Collector) (m : Moment) : Except Exc (List Char) × Collector :=
  c.respond m fun c => (c.samples m.tree).bind renderSamples

end Collector

/-! ### Runs -/

/-- The states of a collector that was started on a root, with a fixture or for the Kubernetes API,
after requests that met the given moments. -/
inductive Reachable (t : Tree) (cgroupRoot : List String) (node : String) :
    Option Items → List Moment → Collector → Prop
  | fixture {data : Items} {inventory : FixtureInventory} : fromData data = .ok inventory →
      Reachable t cgroupRoot node (some data) [] (.new t cgroupRoot (.fixture inventory) node)
  | kubernetes (refreshSeconds : ℚ) :
      Reachable t cgroupRoot node none []
        (.new t cgroupRoot (.refreshing ⟨cgroupRoot, refreshSeconds, 0, .ofTargets []⟩) node)
  | cgroups {data : Option Items} {moments : List Moment} {c : Collector} (m : Moment)
      (uid : String) : Reachable t cgroupRoot node data moments c →
      Reachable t cgroupRoot node data (moments ++ [m]) (c.cgroupsForUid m uid).2
  | metrics {data : Option Items} {moments : List Moment} {c : Collector} (m : Moment) :
      Reachable t cgroupRoot node data moments c →
      Reachable t cgroupRoot node data (moments ++ [m]) (c.renderMetrics m).2

/-- The target was registered for the UID: by the fixture, or by a payload met on the way. -/
def Registered (cgroupRoot : List String) (data : Option Items) (moments : List Moment)
    (uid : String) (target : CgroupTarget) : Prop :=
  (∃ items, data = some items ∧ RegisteredBy items uid target) ∨
    ∃ m ∈ moments, ∃ payload, m.payload = .ok payload ∧
      DiscoveredIn m.tree cgroupRoot payload uid target

/-- Where the targets of a source come from. -/
def Source.From (cgroupRoot : List String) (data : Option Items) (moments : List Moment) :
    Source → Prop
  | .fixture inventory => ∃ items, data = some items ∧ fromData items = .ok inventory
  | .refreshing r => r.cgroupRoot = cgroupRoot ∧ (r.inventory = .ofTargets [] ∨
      ∃ m ∈ moments, ∃ payload, m.payload = .ok payload ∧
        fromPayload m.tree cgroupRoot payload = .ok r.inventory)

/-- What holds of a collector along a run. -/
structure Collector.Sound (t : Tree) (cgroupRoot : List String) (node : String)
    (data : Option Items) (moments : List Moment) (c : Collector) : Prop where
  root : c.cgroupRoot = t.realpath cgroupRoot
  node_eq : c.node = node
  source : c.source.From cgroupRoot data moments

section Run

variable {t : Tree} {cgroupRoot : List String} {node : String} {data : Option Items}
  {moments : List Moment} {c : Collector} {source source' : Source}

theorem Source.From.mono (h : source.From cgroupRoot data moments) (m : Moment) :
    source.From cgroupRoot data (moments ++ [m]) := by
  cases source with
  | fixture inventory => exact h
  | refreshing r =>
    obtain ⟨hroot, h | ⟨m', hm', h⟩⟩ := h
    · exact ⟨hroot, .inl h⟩
    · exact ⟨hroot, .inr ⟨m', List.mem_append_left _ hm', h⟩⟩

/-- A refresh leaves the targets, or takes those of the payload it meets. -/
theorem Source.From.refresh {m : Moment} (h : source.From cgroupRoot data moments)
    (hrefresh : source.refresh m = .ok source') :
    source'.From cgroupRoot data (moments ++ [m]) := by
  cases source with
  | fixture inventory =>
    cases hrefresh
    exact h.mono m
  | refreshing r =>
    rw [Source.refresh] at hrefresh
    split_ifs at hrefresh with hage
    · cases hrefresh
      exact h.mono m
    · obtain ⟨inventory, hinventory, rfl⟩ := Py.map_eq_ok.1 hrefresh
      obtain ⟨payload, hpayload, hload⟩ := bind_eq_ok.1 hinventory
      refine ⟨h.1, .inr ⟨m, by simp, payload, hpayload, ?_⟩⟩
      rwa [h.1] at hload

/-- The collector after an answer. -/
theorem Collector.Sound.respond {α : Type} {m : Moment} {answer : Collector → Except Exc α}
    (h : c.Sound t cgroupRoot node data moments) :
    (c.respond m answer).2.Sound t cgroupRoot node data (moments ++ [m]) := by
  unfold Collector.respond
  split
  · next source hsource => exact ⟨h.root, h.node_eq, h.source.refresh hsource⟩
  · exact ⟨h.root, h.node_eq, h.source.mono m⟩

theorem Collector.Sound.cgroupsForUid {m : Moment} {uid : String}
    (h : c.Sound t cgroupRoot node data moments) :
    (c.cgroupsForUid m uid).2.Sound t cgroupRoot node data (moments ++ [m]) := by
  unfold Collector.cgroupsForUid
  split_ifs
  · exact h.respond
  · exact ⟨h.root, h.node_eq, h.source.mono m⟩

/-- Along every run the collector is sound. -/
theorem Reachable.sound (h : Reachable t cgroupRoot node data moments c) :
    c.Sound t cgroupRoot node data moments := by
  induction h with
  | fixture hdata => exact ⟨rfl, rfl, _, rfl, hdata⟩
  | kubernetes refreshSeconds => exact ⟨rfl, rfl, rfl, .inl rfl⟩
  | cgroups m uid _ ih => exact ih.cgroupsForUid
  | metrics m _ ih => exact ih.respond

/-- A target of a sound collector was registered for its own UID. -/
theorem Collector.Sound.registered (h : c.Sound t cgroupRoot node data moments)
    {target : CgroupTarget} (htarget : target ∈ c.source.inventory.targets) :
    Registered cgroupRoot data moments target.uid target := by
  obtain ⟨-, -, hfrom⟩ := h
  cases hsource : c.source with
  | fixture inventory =>
    rw [hsource] at hfrom htarget
    obtain ⟨items, hdata, hok⟩ := hfrom
    exact .inl ⟨items, hdata, mem_fromData hok htarget⟩
  | refreshing r =>
    rw [hsource] at hfrom htarget
    obtain ⟨-, hempty | ⟨m, hm, payload, hpayload, hok⟩⟩ := hfrom
    · rw [Source.inventory, hempty] at htarget
      cases htarget
    · exact .inr ⟨m, hm, payload, hpayload, mem_fromPayload hok htarget⟩

/-- An answer is given by a sound collector, from the inventory it has then. -/
theorem Collector.Sound.answer {α : Type} {m : Moment} {answer : Collector → Except Exc α} {a : α}
    (h : c.Sound t cgroupRoot node data moments) (ha : (c.respond m answer).1 = .ok a) :
    ∃ c' : Collector, c'.Sound t cgroupRoot node data (moments ++ [m]) ∧ answer c' = .ok a := by
  have hsound : (c.respond m answer).2.Sound t cgroupRoot node data (moments ++ [m]) := h.respond
  unfold Collector.respond at ha hsound
  cases hrefresh : c.source.refresh m with
  | ok source =>
    rw [hrefresh] at ha hsound
    exact ⟨_, hsound, ha⟩
  | error exc =>
    rw [hrefresh] at ha
    cases ha

end Run

/-- The place of a target in the tree: its path, resolved, strictly inside the root.  Followed by
the kernel to its end, the path leads there, and so does the resolved path. -/
structure LiesAt (t : Tree) (root : Path) (target : CgroupTarget) (place : Path) : Prop where
  eq_realpath : place = t.realpath (candidate root target.cgroupPath)
  inside : Inside root place
  of_walk : ∀ n q, t.walk n (candidate root target.cgroupPath) [] = some q → q = place
  of_walk_place : ∀ n q, t.walk n place [] = some q → q = place

theorem liesAt_of_safe {t : Tree} {root place : Path} {target : CgroupTarget}
    (h : safeCgroupPath t root target.cgroupPath = some place) : LiesAt t root target place := by
  obtain ⟨heq, hinside, hsettled, hwalk⟩ := safeCgroupPath_eq_some t root h
  exact ⟨heq, hinside, hwalk, fun n q hq => hsettled.eq_of_walk hq⟩

section Exposed

variable {t : Tree} {cgroupRoot : List String} {node : String} {data : Option Items}
  {moments : List Moment} {c : Collector}

/-- What the answer for a UID exposes. -/
theorem Collector.Sound.exposed_cgroups (h : c.Sound t cgroupRoot node data moments) {m : Moment}
    {uid : String} {items : List CgroupItem} (hitems : (c.cgroupsForUid m uid).1 = .ok items) :
    ∀ item ∈ items, ∃ target place, Registered cgroupRoot data (moments ++ [m]) uid target ∧
      target.uid = uid ∧ LiesAt m.tree (t.realpath cgroupRoot) target place ∧
        item = target.item (t.realpath cgroupRoot) place := by
  unfold Collector.cgroupsForUid at hitems
  split_ifs at hitems
  · obtain ⟨c', hc', hanswer⟩ := h.answer hitems
    cases hanswer
    intro item hitem
    obtain ⟨target, htarget, hmap⟩ := List.mem_filterMap.1 hitem
    obtain ⟨hmem, huid⟩ := FixtureInventory.mem_targetsForUid.1 htarget
    obtain ⟨place, hplace, rfl⟩ := Option.map_eq_some_iff.1 hmap
    rw [hc'.root] at hplace ⊢
    exact ⟨target, place, huid ▸ hc'.registered hmem, huid, liesAt_of_safe hplace, rfl⟩
  · cases hitems
    simp

/-- Where a sample of a target comes from. -/
theorem Collector.mem_targetSamples {tree : Tree} {target : CgroupTarget} {samples : List Sample}
    (h : c.targetSamples tree target = .ok samples) : ∀ sample ∈ samples, ∃ place metrics,
      safeCgroupPath tree c.cgroupRoot target.cgroupPath = some place ∧
        readTargetMetrics tree place = .ok metrics ∧ sample.labels = target.labels c.node ∧
          (sample.metric, sample.value) ∈ metrics := by
  unfold Collector.targetSamples at h
  split at h
  · cases h
    simp
  · next place hplace =>
    obtain ⟨metrics, hmetrics, rfl⟩ := Py.map_eq_ok.1 h
    intro sample hsample
    obtain ⟨metric, hmetric, rfl⟩ := List.mem_map.1 hsample
    exact ⟨place, metrics, hplace, hmetrics, rfl, hmetric⟩

/-- What the metrics expose. -/
theorem Collector.Sound.exposed_metrics (h : c.Sound t cgroupRoot node data moments) {m : Moment}
    {text : List Char} (htext : (c.renderMetrics m).1 = .ok text) :
    ∃ samples, renderSamples samples = .ok text ∧ ∀ sample ∈ samples, ∃ target place metrics,
      Registered cgroupRoot data (moments ++ [m]) target.uid target ∧
        LiesAt m.tree (t.realpath cgroupRoot) target place ∧
        sample.labels = target.labels node ∧ readTargetMetrics m.tree place = .ok metrics ∧
          (sample.metric, sample.value) ∈ metrics := by
  obtain ⟨c', hc', hanswer⟩ := h.answer htext
  obtain ⟨samples, hsamples, hrender⟩ := bind_eq_ok.1 hanswer
  refine ⟨samples, hrender, fun sample hsample => ?_⟩
  obtain ⟨lists, hlists, rfl⟩ := Py.map_eq_ok.1 hsamples
  obtain ⟨list, hlist, hmem⟩ := List.mem_flatten.1 hsample
  obtain ⟨target, htarget, hok⟩ := forall₂_mem_right (traverse_eq_ok.1 hlists) hlist
  obtain ⟨place, metrics, hplace, hread, hlabels, hvalue⟩ :=
    Collector.mem_targetSamples hok sample hmem
  rw [hc'.root] at hplace
  rw [hc'.node_eq] at hlabels
  exact ⟨target, place, metrics, hc'.registered htarget, liesAt_of_safe hplace, hlabels, hread,
    hvalue⟩

/-- **What the collector exposes**, in every state of every run and whatever the moment of the
request: the cgroups of a UID come from targets registered for that UID, the samples of the metrics
carry the labels of targets registered for their own UID, and each of these targets has its resolved
path strictly inside the root. -/
theorem exposed_registered_inside (h : Reachable t cgroupRoot node data moments c) (m : Moment)
    (uid : String) :
    (∀ items, (c.cgroupsForUid m uid).1 = .ok items → ∀ item ∈ items, ∃ target place,
      Registered cgroupRoot data (moments ++ [m]) uid target ∧ target.uid = uid ∧
        LiesAt m.tree (t.realpath cgroupRoot) target place ∧
          item = target.item (t.realpath cgroupRoot) place) ∧
    ∀ text, (c.renderMetrics m).1 = .ok text →
      ∃ samples, renderSamples samples = .ok text ∧ ∀ sample ∈ samples,
        ∃ target place metrics, Registered cgroupRoot data (moments ++ [m]) target.uid target ∧
          LiesAt m.tree (t.realpath cgroupRoot) target place ∧
          sample.labels = target.labels node ∧ readTargetMetrics m.tree place = .ok metrics ∧
            (sample.metric, sample.value) ∈ metrics :=
  ⟨fun _ hitems => h.sound.exposed_cgroups hitems, fun _ htext => h.sound.exposed_metrics htext⟩

end Exposed

/-! ### A tree with links -/

/-- A root with a cgroup, a link out of the root and a link to itself. -/
def linkedTree : Tree where
  entries := [(["root"], .dir), (["host"], .dir), (["root", "c"], .dir),
    (["root", "c", "cpu.weight"], .file "100\n"), (["root", "out"], .link "/host"),
    (["root", "loop"], .link "loop")]
  nodup := by decide
  names := by decide
  parent_dir := by decide

/-- Five spellings of paths, of which one stays inside. -/
def linkedFixture : Items :=
  [(.str "pods", .list [.dict [(.str "uid", .str "u"), (.str "name", .str "p"),
    (.str "containers", .list [.dict [(.str "name", .str "app"), (.str "cgroups",
      .dict [(.str "pod_slice", .str "out/../c"), (.str "a", .str "root/../c"), (.str "b", .str "out"),
        (.str "d", .str "../host"), (.str "e", .str "loop/../out")])]])]])]

/-- A moment at which nothing has changed. -/
def linkedMoment : Moment where
  now := 1
  tree := linkedTree
  payload := typeError "no API"

/-- The targets of the fixture. -/
def linkedInventory : FixtureInventory :=
  .ofTargets <| [("pod_slice", "out/../c"), ("a", "root/../c"), ("b", "out"), ("d", "../host"),
    ("e", "loop/../out")].map fun (level, path) =>
      { uid := "u", podNamespace := "", pod := "p", container := "app", qos := "", level := level,
        cellId := "", cgroupPath := path }

theorem fromData_linkedFixture : fromData linkedFixture = .ok linkedInventory :=
  eq_of_okAnd (by decide +kernel)

/-- Of the five paths only the one that stays inside is exposed, with its target. -/
theorem exposed_registered_inside_linked :
    ((Collector.new linkedTree ["root"] (.fixture linkedInventory) "n").cgroupsForUid linkedMoment
      "u").1 = .ok [⟨"c", "a", "app", "", "p", "", ""⟩] ∧
    ∃ target place, Registered ["root"] (some linkedFixture) [linkedMoment] "u" target ∧
      target.uid = "u" ∧ LiesAt linkedTree (linkedTree.realpath ["root"]) target place ∧
        ⟨"c", "a", "app", "", "p", "", ""⟩ = target.item (linkedTree.realpath ["root"]) place := by
  have hitems : ((Collector.new linkedTree ["root"] (.fixture linkedInventory) "n").cgroupsForUid
      linkedMoment "u").1 = .ok [⟨"c", "a", "app", "", "p", "", ""⟩] :=
    eq_of_okAnd (by decide +kernel)
  have hreach : Reachable linkedTree ["root"] "n" (some linkedFixture) []
      (.new linkedTree ["root"] (.fixture linkedInventory) "n") := .fixture fromData_linkedFixture
  exact ⟨hitems, (exposed_registered_inside hreach linkedMoment "u").1 _ hitems _
    List.mem_cons_self⟩

end Observers
