import K8Labs.Observers.Inventory
import Mathlib.Data.Set.Basic
import Mathlib.Data.List.Sort

/-!
# The two observers of a cell

`capture` is the probe's record of a Pod: its QoS slice, its own slice, and the scopes and leaves
below.  The collector discovers targets for the same Pod in the same tree.  Both name a level
`qos_slice`, but not the same one.

* `capture_levels`: the shape of the record;
* `qos_slice_discovered`: the slice the collector takes for the QoS slice is the first of the
  Kubernetes slices above the Pod;
* `hierarchies_differ`: for no Pod that the probe can record are the levels and paths the same.
-/

namespace Observers

open Py

/-! ### The probe -/

/-- `QOS_CLASSES`. -/
def qosClasses : List String := ["guaranteed", "burstable", "besteffort"]

/-- `CPU_STAT_KEYS`. -/
def cpuStatKeys : List String := ["usage_usec", "nr_periods", "nr_throttled", "throttled_usec"]

/-- `REQUIRED_FILES`. -/
def requiredFiles : List String :=
  ["cpu.weight", "cpu.max", "cpu.stat", "cpu.pressure", "memory.current", "memory.peak",
    "cgroup.type", "cgroup.controllers"]

/-- A hexadecimal digit. -/
def isHex (c : Char) : Bool :=
  c.isDigit || (decide ('a' ≤ c) && decide (c ≤ 'f')) || (decide ('A' ≤ c) && decide (c ≤ 'F'))

/-- `normalize_pod_uid`. -/
def normalizePodUid (podUid : String) : Except Exc String :=
  let groups := podUid.toList.splitOn '-'
  if groups.map List.length = [8, 4, 4, 4, 12] ∧ groups.all fun group => group.all isHex then
    .ok (replaceChar podUid '-' "_")
  else valueError ("invalid pod UID: " ++ quoted podUid)

/-- A level of the record. -/
structure ProbeLevel where
  kind : String
  /-- `str(path)`, as the components of the path. -/
  path : Path
  cpuWeight : ℤ
  cpuMaxQuotaUs : Option ℤ
  cpuMaxPeriodUs : ℤ
  cpuStat : List (String × ℤ)
  /-- `some_total_usec` and `full_total_usec`. -/
  cpuPressure : ℤ × ℤ
  /-- `current_bytes` and `peak_bytes`. -/
  memory : ℤ × ℤ
  cgroupType : String
  cgroupControllers : String
  raw : List (String × String)
  scopeType : Option String

/-- `_parse_integer`. -/
def parseInteger (value source : String) : Except Exc ℤ :=
  match parseInt value with
  | .ok n => .ok n
  | .error _ => valueError ("invalid integer in " ++ source ++ ": " ++ quoted value)

/-- `_parse_cpu_max`. -/
def parseCpuMax (value : String) : Except Exc (Option ℤ × ℤ) :=
  match splitWords value with
  | [quota, period] => do
    let quota ← if quota = "max" then pure none else (parseInteger quota "cpu.max").map some
    let period ← parseInteger period "cpu.max"
    if quota.any (· < 0) then
      valueError ("cpu.max quota must not be negative: " ++ quoted value)
    else if period ≤ 0 then valueError ("cpu.max period must be positive: " ++ quoted value)
    else pure (quota, period)
  | _ => valueError ("invalid cpu.max value: " ++ quoted value)

/-- `_parse_key_values`. -/
def parseKeyValues (value source : String) : Except Exc (List (String × ℤ)) :=
  fold (fun parsed line =>
    match splitWords line with
    | [key, number] =>
      if (parsed.lookup key).isSome then valueError ("duplicate " ++ source ++ " key: " ++ key)
      else (parseInteger number source).map fun n => parsed ++ [(key, n)]
    | _ => valueError ("invalid " ++ source ++ " line: " ++ quoted line)) [] (splitLines value)

/-- `_parse_cpu_stat`. -/
def parseCpuStat (value : String) : Except Exc (List (String × ℤ)) :=
  (parseKeyValues value "cpu.stat").bind fun parsed =>
    let missing := cpuStatKeys.filter fun key => (parsed.lookup key).isNone
    if missing = [] then
      .ok (cpuStatKeys.filterMap fun key => (parsed.lookup key).map fun n => (key, n))
    else valueError ("cpu.stat is missing required counters: " ++ ", ".intercalate missing)

/-- The pairs `key=value` of the fields; of one key the last counts. -/
def fieldPairs (fields : List String) : List (String × String) :=
  fields.foldl (fun pairs field =>
    match partition '=' field.toList with
    | some (key, value) => Dict.update (String.ofList key) (fun _ => String.ofList value) pairs
    | none => pairs) []

/-- `_parse_cpu_pressure`. -/
def parseCpuPressure (value : String) : Except Exc (ℤ × ℤ) :=
  (fold (fun totals line =>
    match splitWords line with
    | [] => .ok totals
    | category :: fields =>
      match (fieldPairs fields).lookup "total" with
      | none => valueError ("cpu.pressure line has no total: " ++ quoted line)
      | some total =>
        if (totals.lookup category).isSome then
          valueError ("duplicate cpu.pressure category: " ++ category)
        else (parseInteger total "cpu.pressure").map fun n => totals ++ [(category, n)])
    [] (splitLines value)).bind fun totals =>
      match totals.lookup "some", totals.lookup "full" with
      | some someTotal, some fullTotal => .ok (someTotal, fullTotal)
      | _, _ => valueError ("cpu.pressure is missing categories: " ++
          ", ".intercalate (["some", "full"].filter fun key => (totals.lookup key).isNone))

section Capture

variable (t : Tree)

/-- `_cgroup_root`. -/
def probeRoot (cgroupRoot : List String) : Except Exc Path :=
  match t.locate cgroupRoot with
  | none => .error (FileSystem.osError "No such file or directory" cgroupRoot)
  | some root =>
    if t.isDir root then .ok root
    else .error ⟨.osError, "cgroup root is not a directory: " ++ root.text⟩

/-- The Pod slice below the slice of a QoS class. -/
def podSlice (root : Path) (qos escapedUid : String) : Path :=
  root ++ ["kubepods.slice", "kubepods-" ++ qos ++ ".slice",
    "kubepods-" ++ qos ++ "-pod" ++ escapedUid ++ ".slice"]

/-- `resolve_pod_slice`. -/
def resolvePodSlice (cgroupRoot : List String) (podUid : String) : Except Exc Path :=
  (probeRoot t cgroupRoot).bind fun root =>
    (normalizePodUid podUid).bind fun escapedUid =>
      match (qosClasses.map fun qos => podSlice root qos escapedUid).filter t.isDir with
      | [] => .error ⟨.osError, "Pod slice not found for UID " ++ podUid⟩
      | [slice] => .ok slice
      | slices => .error ⟨.runtimeError, "Pod UID " ++ podUid ++ " has multiple slices: " ++
          ", ".intercalate (slices.map Path.text)⟩

/-- `_read_required`: the text without the newlines at its end. -/
def readRequired (p : Path) : Except Exc String :=
  if t.isFile p then
    (t.readText p).map fun text =>
      String.ofList ((text.toList.reverse.dropWhile (· == '\n')).reverse)
  else .error ⟨.osError, "missing required cgroup file: " ++ p.text⟩

/-- `_level`. -/
def probeLevel (p : Path) (kind : String) (scopeType : Option String) : Except Exc ProbeLevel := do
  let raw ← Py.traverse (fun name => (readRequired t (p ++ [name])).map fun text => (name, text))
    requiredFiles
  let value := fun name => (raw.lookup name).getD ""
  let (quota, period) ← parseCpuMax (value "cpu.max")
  let weight ← parseInteger (value "cpu.weight") "cpu.weight"
  let cpuStat ← parseCpuStat (value "cpu.stat")
  let cpuPressure ← parseCpuPressure (value "cpu.pressure")
  let current ← parseInteger (value "memory.current") "memory.current"
  let peak ← parseInteger (value "memory.peak") "memory.peak"
  pure
    { kind := kind
      path := p
      cpuWeight := weight
      cpuMaxQuotaUs := quota
      cpuMaxPeriodUs := period
      cpuStat := cpuStat
      cpuPressure := cpuPressure
      memory := (current, peak)
      cgroupType := value "cgroup.type"
      cgroupControllers := value "cgroup.controllers"
      raw := raw
      scopeType := scopeType }

/-- `_scope_paths`. -/
def scopePaths (slice : Path) : Except Exc (List Path) :=
  (t.iterdir slice).map fun children =>
    (children.insertionSort fun a b => nameOf a ≤ nameOf b).filter fun child =>
      t.isDir child && endsWith (nameOf child) ".scope"

/-- The levels of a scope. -/
def scopeLevels (scope : Path) : Except Exc (List ProbeLevel) :=
  let scopeType := if startsWith (nameOf scope) "crio-" then "crio" else "systemd"
  (probeLevel t scope "container_scope" (some scopeType)).bind fun level =>
    if t.isDir (scope ++ ["container"]) then
      (probeLevel t (scope ++ ["container"]) "container_leaf" none).map fun leaf => [level, leaf]
    else .ok [level]

/-- `capture`: the levels of the record. -/
def capture (cgroupRoot : List String) (podUid : String) : Except Exc (List ProbeLevel) := do
  let slice ← resolvePodSlice t cgroupRoot podUid
  let qosLevel ← probeLevel t slice.dropLast "qos_slice" none
  let podLevel ← probeLevel t slice "pod_slice" none
  let scopes ← scopePaths t slice
  let below ← Py.traverse (scopeLevels t) scopes
  pure (qosLevel :: podLevel :: below.flatten)

end Capture

/-! ### Levels and paths -/

/-- Level and path of a level of the record. -/
def ProbeLevel.pair (level : ProbeLevel) : String × Path := (level.kind, level.path)

/-- Level and path of a target below the root. -/
def CgroupTarget.pair (root : Path) (target : CgroupTarget) : String × Path :=
  (target.level, root.join target.cgroupPath)

section Levels

variable {t : Tree}

theorem probeLevel_eq_ok {p : Path} {kind : String} {scopeType : Option String} {level : ProbeLevel}
    (h : probeLevel t p kind scopeType = .ok level) : level.pair = (kind, p) := by
  unfold probeLevel at h
  simp only [bind, pure, Except.pure] at h
  obtain ⟨raw, -, h⟩ := bind_eq_ok.1 h
  obtain ⟨⟨quota, period⟩, -, h⟩ := bind_eq_ok.1 h
  obtain ⟨weight, -, h⟩ := bind_eq_ok.1 h
  obtain ⟨cpuStat, -, h⟩ := bind_eq_ok.1 h
  obtain ⟨cpuPressure, -, h⟩ := bind_eq_ok.1 h
  obtain ⟨current, -, h⟩ := bind_eq_ok.1 h
  obtain ⟨peak, -, h⟩ := bind_eq_ok.1 h
  cases h
  rfl

theorem resolvePodSlice_eq_ok {cgroupRoot : List String} {podUid : String} {slice : Path}
    (h : resolvePodSlice t cgroupRoot podUid = .ok slice) : ∃ root qos escapedUid,
      t.locate cgroupRoot = some root ∧ qos ∈ qosClasses ∧ slice = podSlice root qos escapedUid := by
  obtain ⟨root, hroot, h⟩ := bind_eq_ok.1 h
  obtain ⟨escapedUid, -, h⟩ := bind_eq_ok.1 h
  have hlocate : t.locate cgroupRoot = some root := by
    unfold probeRoot at hroot
    split at hroot
    · cases hroot
    · next hsome =>
      split_ifs at hroot
      cases hroot
      exact hsome
  split at h
  · cases h
  · next s hslices =>
    cases h
    have hmem : slice ∈ (qosClasses.map fun qos => podSlice root qos escapedUid).filter t.isDir := by
      simp [hslices]
    obtain ⟨qos, hqos, rfl⟩ := List.mem_map.1 (List.mem_filter.1 hmem).1
    exact ⟨root, qos, escapedUid, hlocate, hqos, rfl⟩
  · cases h

/-- **The shape of the record**: it begins with the slice of a QoS class, which stands in
`kubepods.slice`. -/
theorem capture_levels {cgroupRoot : List String} {podUid : String} {levels : List ProbeLevel}
    (h : capture t cgroupRoot podUid = .ok levels) : ∃ root qos, t.locate cgroupRoot = some root ∧
      qos ∈ qosClasses ∧ ("qos_slice", root ++ ["kubepods.slice", "kubepods-" ++ qos ++ ".slice"]) ∈
        levels.map ProbeLevel.pair := by
  unfold capture at h
  simp only [bind, pure, Except.pure] at h
  obtain ⟨slice, hslice, h⟩ := bind_eq_ok.1 h
  obtain ⟨qosLevel, hqosLevel, h⟩ := bind_eq_ok.1 h
  obtain ⟨podLevel, -, h⟩ := bind_eq_ok.1 h
  obtain ⟨scopes, -, h⟩ := bind_eq_ok.1 h
  obtain ⟨below, -, h⟩ := bind_eq_ok.1 h
  cases h
  obtain ⟨root, qos, escapedUid, hroot, hqos, rfl⟩ := resolvePodSlice_eq_ok hslice
  refine ⟨root, qos, hroot, hqos, ?_⟩
  rw [List.map_cons, probeLevel_eq_ok hqosLevel, podSlice, List.dropLast_append_of_ne_nil (by simp)]
  exact List.mem_cons_self

theorem mem_uidMatches {root p : Path} {uid : String} (h : p ∈ uidMatches t root uid) :
    root <+: p ∧ ∀ name ∈ p, IsName name := by
  obtain ⟨hp, hbelow⟩ := List.mem_filter.1 (List.mem_filter.1 h).1
  obtain ⟨entry, hentry, rfl⟩ := List.mem_map.1 hp
  exact ⟨List.isPrefixOf_iff_prefix.1 (Bool.and_eq_true_iff.1 hbelow).1, (t.names entry hentry).2⟩

/-- **The slice that the collector takes for the QoS slice** is the first of the Kubernetes slices
on the way from the root to a directory of the Pod. -/
theorem qos_slice_discovered {cgroupRoot : List String} {pod target : CgroupTarget}
    {containers : List String} (h : target ∈ discoverTargets t cgroupRoot pod containers)
    (hlevel : target.level = "qos_slice") : ∃ parts index, (∀ name ∈ parts, IsName name) ∧
      qosIndex parts = some index ∧ target.cgroupPath = "/".intercalate (parts.take (index + 1)) := by
  obtain ⟨podPath, hmatch, hmem⟩ := mem_discoverTargets h
  obtain ⟨-, hnames⟩ := mem_uidMatches hmatch
  unfold pathTargets at hmem
  rcases List.mem_append.1 hmem with hmem | hmem
  · rcases List.mem_append.1 hmem with hmem | hmem
    · split at hmem
      · next index hindex =>
        refine ⟨podPath.drop (t.realpath cgroupRoot).length, index,
          fun name hname => hnames name (List.mem_of_mem_drop hname), hindex, ?_⟩
        rw [List.mem_singleton.1 hmem]
        simp [relativeText]
      · cases hmem
    · rw [List.mem_singleton.1 hmem] at hlevel
      simp at hlevel
  · obtain ⟨child, -, rfl⟩ := List.mem_map.1 hmem
    simp only [childLevel] at hlevel
    split_ifs at hlevel <;> simp at hlevel

/-- The slice of a QoS class is not the first Kubernetes slice above a directory. -/
theorem take_ne_qosSlice {parts : List String} {index : ℕ} (h : qosIndex parts = some index)
    (slice : String) : parts.take (index + 1) ≠ ["kubepods.slice", slice] := by
  intro htake
  match parts with
  | [] => simp at htake
  | part :: parts =>
    rw [List.take_succ_cons] at htake
    obtain ⟨rfl, -⟩ := List.cons.inj htake
    -- the name of the outer slice already begins and ends as a Kubernetes slice does
    have hzero : qosIndex ("kubepods.slice" :: parts) = some 0 := by
      rw [qosIndex, List.findIdx?_cons, if_pos (by decide)]
    rw [hzero] at h
    cases h
    simp at htake

/-- **The two observers never describe the same hierarchy.**  For every tree, every root, every Pod
the probe can record there, whatever the collector knows of it, and whichever of its targets are
selected: the levels and paths differ. -/
theorem hierarchies_differ {cgroupRoot : List String} {podUid : String} {levels : List ProbeLevel}
    (h : capture t cgroupRoot podUid = .ok levels) (pod : CgroupTarget) (containers : List String)
    (selected : CgroupTarget → Bool) :
    {pair | pair ∈ levels.map ProbeLevel.pair} ≠
      {pair | pair ∈ ((discoverTargets t cgroupRoot pod containers).filter selected).map
        (CgroupTarget.pair (t.realpath cgroupRoot))} := by
  obtain ⟨root, qos, hroot, -, hmem⟩ := capture_levels h
  intro heq
  have hroot' : t.realpath cgroupRoot = root := Tree.realpath_eq_of_walk hroot
  have hdiscovered : ("qos_slice", root ++ ["kubepods.slice", "kubepods-" ++ qos ++ ".slice"]) ∈
      ((discoverTargets t cgroupRoot pod containers).filter selected).map
        (CgroupTarget.pair (t.realpath cgroupRoot)) := by
    have := (Set.ext_iff.1 heq _).1 hmem
    exact this
  obtain ⟨target, htarget, hpair⟩ := List.mem_map.1 hdiscovered
  obtain ⟨hlevel, hpath⟩ := Prod.mk.inj hpair
  obtain ⟨parts, index, hnames, hindex, hcgroup⟩ :=
    qos_slice_discovered (List.mem_filter.1 htarget).1 hlevel
  rw [hroot', hcgroup, Path.join, pathParts_intercalate fun name hname =>
    hnames name (List.mem_of_mem_take hname)] at hpath
  exact take_ne_qosSlice hindex _ (List.append_cancel_left hpath)

end Levels

/-- The files of a cgroup. -/
def cgroupFiles (p : Path) : List (Path × Entry) :=
  [("cpu.weight", "79\n"), ("cpu.max", "50000 100000\n"),
    ("cpu.stat", "usage_usec 7\nnr_periods 2\nnr_throttled 1\nthrottled_usec 5\n"),
    ("cpu.pressure", "some avg10=0.00 total=3\nfull avg10=0.00 total=1\n"),
    ("memory.current", "4096\n"), ("memory.peak", "8192\n"), ("cgroup.type", "domain\n"),
    ("cgroup.controllers", "cpu memory\n")].map fun (name, text) => (p ++ [name], .file text)

/-- The UID of a Pod. -/
def burstableUid : String := "0a1b2c3d-0000-4000-8000-00000000beef"

/-- The slice of the Pod in the layout of systemd. -/
def burstableSlice : Path :=
  ["cg", "kubepods.slice", "kubepods-burstable.slice",
    "kubepods-burstable-pod0a1b2c3d_0000_4000_8000_00000000beef.slice"]

/-- The tree of a burstable Pod with one container. -/
def burstableTree : Tree where
  entries :=
    [(["cg"], .dir), (["cg", "kubepods.slice"], .dir), (burstableSlice.dropLast, .dir),
      (burstableSlice, .dir), (burstableSlice ++ ["crio-app.scope"], .dir)] ++
    cgroupFiles burstableSlice.dropLast ++ cgroupFiles burstableSlice ++
    cgroupFiles (burstableSlice ++ ["crio-app.scope"])
  nodup := by decide +kernel
  names := by decide +kernel
  parent_dir := by decide +kernel

/-- What the collector knows of the Pod. -/
def burstablePod : CgroupTarget where
  uid := burstableUid
  podNamespace := "lab"
  pod := "p"
  container := ""
  qos := "Burstable"
  level := ""
  cellId := "c"
  cgroupPath := ""

/-- The levels the probe records for the Pod. -/
theorem capture_burstable : ∃ levels, capture burstableTree ["cg"] burstableUid = .ok levels ∧
    levels.map ProbeLevel.pair = [("qos_slice", burstableSlice.dropLast),
      ("pod_slice", burstableSlice), ("container_scope", burstableSlice ++ ["crio-app.scope"])] := by
  obtain ⟨levels, hlevels, hpairs⟩ := okAnd_eq_true.1
    (show okAnd (capture burstableTree ["cg"] burstableUid) (fun levels =>
      decide (levels.map ProbeLevel.pair = [("qos_slice", burstableSlice.dropLast),
        ("pod_slice", burstableSlice),
        ("container_scope", burstableSlice ++ ["crio-app.scope"])])) = true by decide +kernel)
  exact ⟨levels, hlevels, of_decide_eq_true hpairs⟩

/-- The Pod is recorded, and its targets are others. -/
theorem hierarchies_differ_burstable :
    ∃ levels, capture burstableTree ["cg"] burstableUid = .ok levels ∧
      {pair | pair ∈ levels.map ProbeLevel.pair} ≠
        {pair | pair ∈ ((discoverTargets burstableTree ["cg"] burstablePod ["app"]).filter
          fun _ => true).map (CgroupTarget.pair (burstableTree.realpath ["cg"]))} := by
  obtain ⟨levels, hlevels, -⟩ := capture_burstable
  exact ⟨levels, hlevels, hierarchies_differ hlevels burstablePod ["app"] fun _ => true⟩

/-- **The outer slice for the inner one**: the collector's QoS slice of the burstable Pod is
`kubepods.slice`. -/
theorem burstable_qosSlice_outer :
    ¬ ∀ levels, capture burstableTree ["cg"] burstableUid = .ok levels →
      {pair | pair ∈ levels.map ProbeLevel.pair} =
        {pair | pair ∈ (discoverTargets burstableTree ["cg"] burstablePod ["app"]).map
          (CgroupTarget.pair (burstableTree.realpath ["cg"]))} := by
  intro h
  obtain ⟨levels, hlevels, hpairs⟩ := capture_burstable
  have hmem := (Set.ext_iff.1 (h levels hlevels) ("qos_slice", burstableSlice.dropLast)).1
    (show _ ∈ levels.map ProbeLevel.pair by rw [hpairs]; exact List.mem_cons_self)
  exact absurd hmem (by decide +kernel)

end Observers
