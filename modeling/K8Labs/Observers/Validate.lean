import K8Labs.Python.Document

/-!
# The gate before the observer is applied

`validate` looks at the manifests of the observer: every `DaemonSet` among them must ask for what
the observer needs and for nothing that gives it the host.  `Harmless` says what a Pod may not do,
whatever document its template stands in.

* `harmless_iff` : of the lists that the gate accepts, those are harmless whose other documents are,
  and whose volumes do not hide behind a later one of the same name.
-/

namespace Observers

namespace Validate

open Py

/-- `ALLOWED_HOST_PATHS`, sorted. -/
def allowedHostPaths : List String :=
  ["/boot", "/lib/modules", "/sys/fs/cgroup", "/sys/kernel/btf", "/sys/kernel/tracing",
    "/usr/src/kernels", "/var/lib/linux-sched/bin", "/var/lib/linux-sched/fixtures",
    "/var/tmp/linux-sched"]

/-- `WRITABLE_HOST_PATHS`. -/
def writableHostPaths : List String := ["/var/tmp/linux-sched"]

/-- `REQUIRED_CAPABILITIES`, sorted. -/
def requiredCapabilities : List String := ["BPF", "PERFMON"]

/-- `CONTAINER_KEYS`. -/
def containerKeys : List String := ["containers", "initContainers", "ephemeralContainers"]

/-- A scalar is one of the strings of a set. -/
def isOneOf (names : List String) : Scalar → Bool
  | .str s => names.contains s
  | _ => false

/-- `repr` of a list of strings. -/
def listText (names : List String) : String := "[" ++ ", ".intercalate (names.map quoted) ++ "]"

/-! ### The checks -/

/-- The checks on the fields of the Pod. -/
def fieldErrors (allowHostNetwork : Bool) (origin : String) (spec : Items) :
    Except Exc (List String) :=
  (spec.getOr "nodeSelector" (.dict [])).items.bind fun selector =>
  (spec.getOr "securityContext" (.dict [])).items.map fun security =>
    messageIf (!(spec.get "hostPID").isTrue)
      (origin ++ ": observer needs hostPID to see host tasks") ++
    messageIf ((spec.get "hostNetwork").truthy && !allowHostNetwork)
      (origin ++ ": observer must not use host network/IPC") ++
    messageIf (spec.get "hostIPC").truthy (origin ++ ": observer must not use host network/IPC") ++
    messageIf (!(spec.get "automountServiceAccountToken").isFalse)
      (origin ++ ": pod must disable automatic token mounting") ++
    messageIf (!(selector.get "linux-sched/research").eq (.str "observer"))
      (origin ++ ": must be node-selected to research workers") ++
    messageIf (security.get "privileged").truthy (origin ++ ": pod must not be privileged")

/-- The check on the path of a host volume. -/
def pathErrors (origin : String) (path : Value) : Except Exc (List String) :=
  if path.eq (.str "/") then .ok [origin ++ ": volume uses hostPath /"]
  else path.hashed.map fun s =>
    messageIf (!isOneOf allowedHostPaths s)
      (origin ++ ": unexpected hostPath " ++ path.repr ++ " (allowed: " ++
        listText allowedHostPaths ++ ")")

/-- The check on a volume. -/
def volumeErrors (origin : String) (volume : Value) : Except Exc (List String) :=
  volume.items.bind fun volume =>
    if (volume.get "hostPath").truthy then
      (volume.get "hostPath").items.bind fun hostPath => pathErrors origin (hostPath.get "path")
    else .ok []

/-- The item of `host_volume_paths` that a volume makes. -/
def hostVolumePath (volume : Value) : Except Exc (List (Scalar × Value)) :=
  volume.items.bind fun volume =>
    if (volume.get "hostPath").truthy then
      (Value.index "name" (.dict volume)).bind fun name =>
      (Value.index "path" (volume.get "hostPath")).bind fun path =>
      name.hashed.map fun name => [(name, path)]
    else .ok []

/-- `host_volume_paths.get(name)`: of the volumes with one name the last counts. -/
def hostPathOf (paths : List (Scalar × Value)) (name : Scalar) : Option Value :=
  (paths.reverse.find? fun item => item.1.eq name).map Prod.snd

/-- The mount must be read-only. -/
def readOnlyErrors (origin key : String) (mount : Items) (hostPath : Option Value) :
    Except Exc (List String) :=
  match hostPath with
  | none | some .none => .ok []
  | some path => path.hashed.map fun s =>
    messageIf (!isOneOf writableHostPaths s && !(mount.get "readOnly").isTrue)
      (origin ++ ": host mount " ++ path.repr ++ " in " ++ key ++ " must be readOnly")

/-- The checks on a mount. -/
def mountErrors (origin key : String) (paths : List (Scalar × Value)) (mount : Value) :
    Except Exc (List String) :=
  mount.items.bind fun mount =>
  (mount.get "name").hashed.bind fun name =>
  (readOnlyErrors origin key mount (hostPathOf paths name)).map fun errors =>
    messageIf ((mount.get "mountPath").eq (.str "/")) (origin ++ ": " ++ key ++ " mounts host root") ++
      errors

/-- The capabilities that a container of the observer must add. -/
def capabilityErrors (origin key : String) (caps : List Scalar) : List String :=
  let has := fun name => caps.any fun cap => cap.eq (.str name)
  let missing := requiredCapabilities.filter fun name => !has name
  if key = "containers" then
    messageIf (!missing.isEmpty) (origin ++ ": observer missing capabilities " ++ listText missing) ++
      messageIf (!has "SYS_ADMIN") (origin ++ ": observer missing SYS_ADMIN")
  else []

/-- The checks on a container. -/
def containerErrors (origin key : String) (paths : List (Scalar × Value)) (container : Value) :
    Except Exc (List String) :=
  container.items.bind fun container =>
  (container.getOr "securityContext" (.dict [])).items.bind fun context =>
  (context.getOr "capabilities" (.dict [])).items.bind fun capabilities =>
  ((capabilities.getOr "add" (.list [])).orElse (.list [])).iterate.bind fun added =>
  (Py.traverse Value.hashed added).bind fun caps =>
  (container.getOr "volumeMounts" (.list [])).iterate.bind fun mounts =>
  (gather (mountErrors origin key paths) mounts).map fun errors =>
    messageIf (context.get "privileged").truthy
      (origin ++ ": container in " ++ key ++ " is privileged") ++
    capabilityErrors origin key caps ++ errors

/-- The containers under one key. -/
def containersErrors (origin : String) (spec : Items) (paths : List (Scalar × Value)) (key : String) :
    Except Exc (List String) :=
  ((spec.getOr key (.list [])).orElse (.list [])).iterate.bind fun containers =>
    gather (containerErrors origin key paths) containers

/-- The checks on the Pod of a `DaemonSet`. -/
def podErrors (allowHostNetwork : Bool) (origin : String) (spec : Items) :
    Except Exc (List String) :=
  (fieldErrors allowHostNetwork origin spec).bind fun fields =>
  (spec.getOr "volumes" (.list [])).iterate.bind fun volumes =>
  (gather (volumeErrors origin) volumes).bind fun paths =>
  (gather hostVolumePath volumes).bind fun hostVolumePaths =>
  (gather (containersErrors origin spec hostVolumePaths) containerKeys).map fun containers =>
    fields ++ paths ++ containers

/-- `ds.get("spec", {}).get("template", {}).get("spec", {})`. -/
def daemonSetPod (ds : Items) : Except Exc Items :=
  (ds.getOr "spec" (.dict [])).items.bind fun spec =>
  (spec.getOr "template" (.dict [])).items.bind fun template =>
  (template.getOr "spec" (.dict [])).items

section Validate

variable (setText : List Scalar → String)

/-- The namespace of a `DaemonSet` is one of those of the list; `setText` is the text of a set, whose
order the language leaves open. -/
def namespaceErrors (names : List Scalar) (origin : String) (ns : Value) :
    Except Exc (List String) :=
  ns.hashed.map fun s =>
    messageIf (!names.any s.eq)
      (origin ++ ": namespace " ++ ns.repr ++ " is not one of " ++ setText names)

/-- The checks on a `DaemonSet`. -/
def daemonSetErrors (allowHostNetwork : Bool) (names : List Scalar) (ds : Items) :
    Except Exc (List String) :=
  (ds.getOr "metadata" (.dict [])).items.bind fun metadata =>
    let origin := (metadata.getOr "name" (.str "?")).text
    (namespaceErrors setText names origin (metadata.get "namespace")).bind fun errors =>
    (daemonSetPod ds).bind fun spec =>
    (podErrors allowHostNetwork origin spec).map fun pod => errors ++ pod

/-- `d.get("metadata", {}).get("name")`. -/
def namespaceName (doc : Items) : Except Exc Scalar :=
  (doc.getOr "metadata" (.dict [])).items.bind fun metadata => (metadata.get "name").hashed

/-- `d.get("kind") == kind`. -/
def isKind (kind : String) (doc : Items) : Bool := (doc.get "kind").eq (.str kind)

/-- `validate`. -/
def validate (docs : List Items) (allowHostNetwork : Bool) : Except Exc (List String) :=
  let namespaces := docs.filter (isKind "Namespace")
  let daemonsets := docs.filter (isKind "DaemonSet")
  let errors := messageIf namespaces.isEmpty "no Namespace manifest found"
  if daemonsets.isEmpty then .ok (errors ++ ["no DaemonSet manifest found"])
  else
    (Py.traverse namespaceName namespaces).bind fun names =>
    (gather (daemonSetErrors setText allowHostNetwork names) daemonsets).map fun found =>
      errors ++ found

end Validate

/-! ### What a Pod may not do -/

/-- Where the template of a Pod stands, by the kind of its document. -/
def podPath (kind : Value) : List String :=
  if kind.eq (.str "Pod") then ["spec"]
  else if kind.eq (.str "PodTemplate") then ["template", "spec"]
  else if kind.eq (.str "CronJob") then ["spec", "jobTemplate", "spec", "template", "spec"]
  else ["spec", "template", "spec"]

/-- The Pod of a document. -/
def podOf (doc : Items) : Value := (Value.dict doc).descend (podPath (doc.get "kind"))

/-- The containers of a Pod, of all three kinds. -/
def containers (pod : Value) : List Value :=
  containerKeys.flatMap fun key => (pod.field key).elements

/-- The mounts of a container. -/
def mounts (container : Value) : List Value := (container.field "volumeMounts").elements

/-- The volumes of a Pod that are paths of the host. -/
def hostVolumes (pod : Value) : List Value :=
  (pod.field "volumes").elements.filter fun volume => (volume.field "hostPath").truthy

/-- The path of a host volume. -/
def hostPath (volume : Value) : Value := (volume.field "hostPath").field "path"

/-- A value is one of the strings of a set. -/
def isIn (names : List String) : Value → Bool
  | .scalar s => isOneOf names s
  | _ => false

/-- The host volumes that a mount names. -/
def mounted (pod mount : Value) : List Value :=
  (hostVolumes pod).filter fun volume => (volume.field "name").eq (mount.field "name")

/-- The security context asks for privileges. -/
def privileged (v : Value) : Bool := ((v.field "securityContext").field "privileged").truthy

/-- A Pod without privileges over the host. -/
structure Harmless (allowHostNetwork : Bool) (pod : Value) : Prop where
  pod_privileged : privileged pod = false
  host_ipc : (pod.field "hostIPC").truthy = false
  host_network : (pod.field "hostNetwork").truthy = true → allowHostNetwork = true
  host_paths : ∀ volume ∈ hostVolumes pod, isIn allowedHostPaths (hostPath volume) = true
  not_privileged : ∀ container ∈ containers pod, privileged container = false
  read_only : ∀ container ∈ containers pod, ∀ mount ∈ mounts container,
    (mount.field "readOnly").isTrue = false → ∀ volume ∈ mounted pod mount,
      isIn writableHostPaths (hostPath volume) = true

/-- No mount that may write names a volume hidden behind a later one: when the last volume of the
name is writable, all of them are. -/
def Unhidden (pod : Value) : Prop :=
  ∀ container ∈ containers pod, ∀ mount ∈ mounts container,
    (mount.field "readOnly").isTrue = false → ∀ last, (mounted pod mount).getLast? = some last →
      isIn writableHostPaths (hostPath last) = true → ∀ volume ∈ mounted pod mount,
        isIn writableHostPaths (hostPath volume) = true

/-! ### What the checks say of the Pod of a `DaemonSet` -/

section Accepted

variable {allowHostNetwork : Bool} {origin key : String} {spec ds : Items}
  {paths : List (Scalar × Value)} {pod volume container mount : Value}

/-- The gate looks at the Pod of the document. -/
theorem field_podOf (hkind : isKind "DaemonSet" ds = true) (h : daemonSetPod ds = .ok spec)
    (key : String) : (podOf ds).field key = spec.get key := by
  obtain ⟨outer, houter, h⟩ := bind_eq_ok.1 h
  obtain ⟨template, htemplate, h⟩ := bind_eq_ok.1 h
  have hpath : podPath (ds.get "kind") = ["spec", "template", "spec"] := by
    rw [Value.eq_str_iff.1 hkind]
    rfl
  rw [podOf, hpath]
  show ((((Value.dict ds).field "spec").field "template").field "spec").field key = _
  rw [Value.field_dict, Items.getOr_dict (Value.items_eq_ok.1 houter),
    Items.getOr_dict (Value.items_eq_ok.1 htemplate), Items.getOr_dict (Value.items_eq_ok.1 h)]

theorem fieldErrors_eq_nil (h : fieldErrors allowHostNetwork origin spec = .ok []) :
    ((spec.get "securityContext").field "privileged").truthy = false ∧
      (spec.get "hostIPC").truthy = false ∧
        ((spec.get "hostNetwork").truthy = true → allowHostNetwork = true) := by
  obtain ⟨selector, -, h⟩ := bind_eq_ok.1 h
  obtain ⟨security, hsecurity, h⟩ := map_eq_ok.1 h
  rw [Items.getOr_dict (Value.items_eq_ok.1 hsecurity)]
  simp only [List.append_eq_nil_iff, messageIf_eq_nil] at h
  obtain ⟨⟨⟨⟨⟨-, hnetwork⟩, hipc⟩, -⟩, -⟩, hprivileged⟩ := h
  refine ⟨hprivileged, hipc, fun htrue => ?_⟩
  simpa [htrue] using hnetwork

theorem volumeErrors_eq_nil (h : volumeErrors origin volume = .ok [])
    (hvolume : (volume.field "hostPath").truthy = true) :
    isIn allowedHostPaths (hostPath volume) = true := by
  obtain ⟨items, hitems, hpath⟩ := bind_eq_ok.1 h
  obtain rfl := Value.items_eq_ok.1 hitems
  rw [Value.field_dict] at hvolume
  rw [if_pos hvolume] at hpath
  obtain ⟨source, hsource, herrors⟩ := bind_eq_ok.1 hpath
  rw [hostPath, Value.field_dict, Value.items_eq_ok.1 hsource, Value.field_dict]
  unfold pathErrors at herrors
  split_ifs at herrors
  · cases herrors
  · obtain ⟨s, hs, hnil⟩ := map_eq_ok.1 herrors
    rw [Value.hashed_eq_ok.1 hs]
    have hone : isOneOf allowedHostPaths s = true := by simpa using hnil
    exact hone

/-- The volumes are a list of dictionaries. -/
theorem volumes_eq {volumes : List Value} (hvolumes : (spec.getOr "volumes" (.list [])).iterate = .ok volumes)
    (h : gather (volumeErrors origin) volumes = .ok []) : volumes = (spec.get "volumes").elements := by
  rw [← Items.elements_getOr]
  refine Value.iterate_eq_elements hvolumes fun volume hvolume => ?_
  obtain ⟨items, hitems, -⟩ := bind_eq_ok.1 (gather_eq_nil.1 h volume hvolume)
  exact ⟨items, Value.items_eq_ok.1 hitems⟩

/-- The item of a volume. -/
def pathItem (volume : Value) : List (Value × Value) :=
  if (volume.field "hostPath").truthy then [(volume.field "name", hostPath volume)] else []

theorem hostVolumePath_eq {items : List (Scalar × Value)} (h : hostVolumePath volume = .ok items) :
    items.map (Prod.map Value.scalar id) = pathItem volume := by
  obtain ⟨fields, hfields, hitem⟩ := bind_eq_ok.1 h
  obtain rfl := Value.items_eq_ok.1 hfields
  rw [pathItem, hostPath, Value.field_dict, Value.field_dict]
  split_ifs at hitem ⊢ with htruthy
  · obtain ⟨name, hname, hrest⟩ := bind_eq_ok.1 hitem
    obtain ⟨path, hpath, hkey⟩ := bind_eq_ok.1 hrest
    obtain ⟨s, hs, rfl⟩ := map_eq_ok.1 hkey
    have hfield := Value.field_of_index hname
    rw [Value.field_dict] at hfield
    rw [Value.field_of_index hpath, hfield, Value.hashed_eq_ok.1 hs]
    rfl
  · cases hitem
    rfl

theorem map_hostVolumePaths {volumes : List Value} (h : gather hostVolumePath volumes = .ok paths) :
    paths.map (Prod.map Value.scalar id) =
      (volumes.filter fun volume => (volume.field "hostPath").truthy).map fun volume =>
        (volume.field "name", hostPath volume) := by
  obtain ⟨items, hitems, rfl⟩ := map_eq_ok.1 h
  have hall := traverse_eq_ok.1 hitems
  clear h hitems
  induction hall with
  | nil => rfl
  | @cons volume item volumes items hitem _ ih =>
    rw [List.flatten_cons, List.map_append, ih, hostVolumePath_eq hitem, pathItem, List.filter_cons]
    split_ifs <;> rfl

/-- Of the volumes of a mount the gate sees the last one. -/
theorem hostPathOf_eq {name : Scalar} (hmount : mount.field "name" = .scalar name)
    (h : gather hostVolumePath (pod.field "volumes").elements = .ok paths) :
    hostPathOf paths name = (mounted pod mount).getLast?.map hostPath := by
  have hfind : hostPathOf paths name =
      ((paths.filter fun item => item.1.eq name).getLast?).map Prod.snd := by
    rw [hostPathOf, List.getLast?_filter]
  have hfilter : (paths.filter fun item => item.1.eq name).map (Prod.map Value.scalar id) =
      (mounted pod mount).map fun volume => (volume.field "name", hostPath volume) := by
    have hmap := congrArg (List.filter fun item => item.1.eq (.scalar name)) (map_hostVolumePaths h)
    rw [List.filter_map, List.filter_map] at hmap
    rw [mounted, hmount]
    exact hmap
  have hlast := congrArg (fun items => (List.getLast? items).map Prod.snd) hfilter
  rw [List.getLast?_map, List.getLast?_map, Option.map_map, Option.map_map] at hlast
  exact hfind.trans hlast

/-- A mount without errors has a name that can be looked up. -/
theorem mount_name (h : mountErrors origin key paths mount = .ok []) :
    ∃ name, mount.field "name" = .scalar name := by
  obtain ⟨items, hitems, hrest⟩ := bind_eq_ok.1 h
  obtain ⟨name, hname, -⟩ := bind_eq_ok.1 hrest
  rw [Value.items_eq_ok.1 hitems, Value.field_dict]
  exact ⟨name, Value.hashed_eq_ok.1 hname⟩

theorem mountErrors_eq_nil {name : Scalar} (hmount : mount.field "name" = .scalar name)
    (h : mountErrors origin key paths mount = .ok [])
    (hwrite : (mount.field "readOnly").isTrue = false) {path : Value}
    (hpath : hostPathOf paths name = some path) (hallowed : isIn allowedHostPaths path = true) :
    isIn writableHostPaths path = true := by
  obtain ⟨items, hitems, hrest⟩ := bind_eq_ok.1 h
  obtain rfl := Value.items_eq_ok.1 hitems
  obtain ⟨name', hname, herrors⟩ := bind_eq_ok.1 hrest
  rw [Value.field_dict] at hmount hwrite
  rw [hmount] at hname
  obtain rfl : name = name' := by simpa [Value.hashed] using hname
  obtain ⟨errors, hread, hnil⟩ := map_eq_ok.1 herrors
  rw [(List.append_eq_nil_iff.1 hnil).2, hpath] at hread
  -- an allowed path is a string
  cases path with
  | scalar s =>
    cases s with
    | str s =>
      have hone : isOneOf writableHostPaths (.str s) = true := by
        simpa [readOnlyErrors, Value.hashed, Except.map, hwrite] using hread
      exact hone
    | _ => cases hallowed
  | list xs => cases hallowed
  | dict d => cases hallowed

theorem containerErrors_eq_nil (h : containerErrors origin key paths container = .ok []) :
    privileged container = false ∧
      ∀ mount ∈ mounts container, mountErrors origin key paths mount = .ok [] := by
  obtain ⟨items, hitems, hrest⟩ := bind_eq_ok.1 h
  obtain rfl := Value.items_eq_ok.1 hitems
  obtain ⟨context, hcontext, hrest₁⟩ := bind_eq_ok.1 hrest
  obtain ⟨capabilities, -, hrest₂⟩ := bind_eq_ok.1 hrest₁
  obtain ⟨added, -, hrest₃⟩ := bind_eq_ok.1 hrest₂
  obtain ⟨caps, -, hrest₄⟩ := bind_eq_ok.1 hrest₃
  obtain ⟨all, hall, hrest₅⟩ := bind_eq_ok.1 hrest₄
  obtain ⟨errors, herrors, hnil⟩ := map_eq_ok.1 hrest₅
  simp only [List.append_eq_nil_iff, messageIf_eq_nil] at hnil
  refine ⟨?_, fun mount hmount => ?_⟩
  · rw [privileged, Value.field_dict, Items.getOr_dict (Value.items_eq_ok.1 hcontext)]
    exact hnil.1.1
  · rw [hnil.2] at herrors
    refine gather_eq_nil.1 herrors mount (Value.mem_iterate hall ?_)
    rw [Items.elements_getOr]
    exact hmount

/-- What an accepted Pod has passed. -/
theorem podErrors_eq_nil (h : podErrors allowHostNetwork origin spec = .ok []) :
    fieldErrors allowHostNetwork origin spec = .ok [] ∧
      (∀ volume ∈ (spec.get "volumes").elements, volumeErrors origin volume = .ok []) ∧
        ∃ paths, gather hostVolumePath (spec.get "volumes").elements = .ok paths ∧
          ∀ key ∈ containerKeys, ∀ container ∈ (spec.get key).elements,
            containerErrors origin key paths container = .ok [] := by
  obtain ⟨fields, hfields, hrest⟩ := bind_eq_ok.1 h
  obtain ⟨volumes, hvolumes, hrest₁⟩ := bind_eq_ok.1 hrest
  obtain ⟨errors, herrors, hrest₂⟩ := bind_eq_ok.1 hrest₁
  obtain ⟨paths, hpaths, hrest₃⟩ := bind_eq_ok.1 hrest₂
  obtain ⟨found, hfound, hnil⟩ := map_eq_ok.1 hrest₃
  simp only [List.append_eq_nil_iff] at hnil
  obtain ⟨⟨rfl, rfl⟩, rfl⟩ := hnil
  obtain rfl := volumes_eq hvolumes herrors
  refine ⟨hfields, gather_eq_nil.1 herrors, paths, hpaths, fun key hkey container hcontainer => ?_⟩
  obtain ⟨list, hlist, hall⟩ := bind_eq_ok.1 (gather_eq_nil.1 hfound key hkey)
  refine gather_eq_nil.1 hall container (Value.mem_iterate hlist ?_)
  rw [Value.elements_orElse, Items.elements_getOr]
  exact hcontainer

end Accepted

/-- A `DaemonSet` without errors has a Pod without errors. -/
theorem daemonSetErrors_eq_nil {setText : List Scalar → String} {allowHostNetwork : Bool}
    {names : List Scalar} {ds : Items}
    (h : daemonSetErrors setText allowHostNetwork names ds = .ok []) :
    ∃ origin spec, daemonSetPod ds = .ok spec ∧ podErrors allowHostNetwork origin spec = .ok [] := by
  obtain ⟨metadata, -, hrest⟩ := bind_eq_ok.1 h
  obtain ⟨errors, -, hrest₁⟩ := bind_eq_ok.1 hrest
  obtain ⟨spec, hspec, hrest₂⟩ := bind_eq_ok.1 hrest₁
  obtain ⟨pod, hpod, hnil⟩ := map_eq_ok.1 hrest₂
  rw [(List.append_eq_nil_iff.1 hnil).2] at hpod
  exact ⟨_, spec, hspec, hpod⟩

/-- **What the gate says of a `DaemonSet` it accepts.** -/
theorem harmless_iff_unhidden {setText : List Scalar → String} {allowHostNetwork : Bool}
    {names : List Scalar} {ds : Items} (hkind : isKind "DaemonSet" ds = true)
    (h : daemonSetErrors setText allowHostNetwork names ds = .ok []) :
    Harmless allowHostNetwork (podOf ds) ↔ Unhidden (podOf ds) := by
  obtain ⟨origin, spec, hspec, hpod⟩ := daemonSetErrors_eq_nil h
  obtain ⟨hfields, hvolumes, paths, hpaths, hcontainers⟩ := podErrors_eq_nil hpod
  have hfield := field_podOf hkind hspec
  obtain ⟨hprivileged, hipc, hnetwork⟩ := fieldErrors_eq_nil hfields
  -- every volume has an allowed path
  have hallowed : ∀ volume ∈ hostVolumes (podOf ds), isIn allowedHostPaths (hostPath volume) = true := by
    intro volume hvolume
    rw [hostVolumes, hfield, List.mem_filter] at hvolume
    exact volumeErrors_eq_nil (hvolumes volume hvolume.1) hvolume.2
  -- every container passes the checks under its key
  have hcontainer : ∀ container ∈ containers (podOf ds), ∃ key,
      containerErrors origin key paths container = .ok [] := by
    intro container hmem
    obtain ⟨key, hkey, hmem⟩ := List.mem_flatMap.1 hmem
    rw [hfield] at hmem
    exact ⟨key, hcontainers key hkey container hmem⟩
  rw [← hfield] at hpaths
  constructor
  · intro hharmless container hmem mount hmount hwrite last _ _
    exact hharmless.read_only container hmem mount hmount hwrite
  · intro hunhidden
    refine ⟨?_, ?_, ?_, hallowed, fun container hmem => ?_, ?_⟩
    · rw [privileged, hfield]
      exact hprivileged
    · rw [hfield]
      exact hipc
    · rw [hfield]
      exact hnetwork
    · obtain ⟨key, hkey⟩ := hcontainer container hmem
      exact (containerErrors_eq_nil hkey).1
    · intro container hmem mount hmount hwrite volume hvolume
      obtain ⟨key, hkey⟩ := hcontainer container hmem
      have herrors := (containerErrors_eq_nil hkey).2 mount hmount
      obtain ⟨name, hname⟩ := mount_name herrors
      obtain ⟨last, hlast⟩ := Option.isSome_iff_exists.1
        (List.getLast?_isSome.2 (List.ne_nil_of_mem hvolume))
      refine hunhidden container hmem mount hmount hwrite last hlast ?_ volume hvolume
      refine mountErrors_eq_nil hname herrors hwrite ?_ ?_
      · rw [hostPathOf_eq hname hpaths, hlast]
        rfl
      · exact hallowed last (List.mem_filter.1 (List.mem_of_getLast? hlast)).1

/-- **When an accepted list is harmless.**  The gate speaks for the `DaemonSet`s, and there only for
the last of several volumes with one name; what other documents ask for, it does not see. -/
theorem harmless_iff {setText : List Scalar → String} {docs : List Items} {allowHostNetwork : Bool}
    (h : validate setText docs allowHostNetwork = .ok []) :
    (∀ doc ∈ docs, Harmless allowHostNetwork (podOf doc)) ↔
      (∀ doc ∈ docs, isKind "DaemonSet" doc = false → Harmless allowHostNetwork (podOf doc)) ∧
        ∀ doc ∈ docs, isKind "DaemonSet" doc = true → Unhidden (podOf doc) := by
  have hds : ∀ doc ∈ docs, isKind "DaemonSet" doc = true →
      (Harmless allowHostNetwork (podOf doc) ↔ Unhidden (podOf doc)) := by
    intro doc hdoc hkind
    simp only [validate] at h
    split_ifs at h
    · simp at h
    · obtain ⟨names, -, hrest⟩ := bind_eq_ok.1 h
      obtain ⟨found, hfound, hnil⟩ := map_eq_ok.1 hrest
      rw [(List.append_eq_nil_iff.1 hnil).2] at hfound
      exact harmless_iff_unhidden hkind
        (gather_eq_nil.1 hfound doc (List.mem_filter.2 ⟨hdoc, hkind⟩))
  constructor
  · intro hall
    exact ⟨fun doc hdoc _ => hall doc hdoc, fun doc hdoc hkind => (hds doc hdoc hkind).1 (hall doc hdoc)⟩
  · rintro ⟨hothers, hunhidden⟩ doc hdoc
    cases hkind : isKind "DaemonSet" doc with
    | false => exact hothers doc hdoc hkind
    | true => exact (hds doc hdoc hkind).2 (hunhidden doc hdoc hkind)

/-! ### The observer, with and without a stranger -/

/-- The Namespace and the `DaemonSet` of the observer, with the fields that the gate asks for. -/
def observerManifests : List Items :=
  [[(.str "kind", .str "Namespace"), (.str "metadata", .dict [(.str "name", .str "linux-sched")])],
    [(.str "kind", .str "DaemonSet"),
      (.str "metadata",
        .dict [(.str "name", .str "linux-sched-observer"), (.str "namespace", .str "linux-sched")]),
      (.str "spec", .dict [(.str "template", .dict [(.str "spec", .dict
        [(.str "hostPID", .bool true), (.str "automountServiceAccountToken", .bool false),
          (.str "nodeSelector", .dict [(.str "linux-sched/research", .str "observer")]),
          (.str "containers", .list [.dict
            [(.str "name", .str "observer"),
              (.str "securityContext", .dict [(.str "capabilities",
                .dict [(.str "add", .list [.str "BPF", .str "PERFMON", .str "SYS_ADMIN"])])]),
              (.str "volumeMounts", .list [.dict [(.str "name", .str "boot"),
                (.str "mountPath", .str "/boot"), (.str "readOnly", .bool true)]])]]),
          (.str "volumes", .list [.dict [(.str "name", .str "boot"),
            (.str "hostPath", .dict [(.str "path", .str "/boot")])]])])])])]]

/-- A privileged container. -/
def privilegedContainer : Value :=
  .dict [(.str "name", .str "root"),
    (.str "securityContext", .dict [(.str "privileged", .bool true)])]

/-- A Deployment whose only container is privileged. -/
def privilegedDeployment : Items :=
  [(.str "kind", .str "Deployment"),
    (.str "spec", .dict [(.str "template", .dict [(.str "spec",
      .dict [(.str "containers", .list [privilegedContainer])])])])]

theorem harmless_iff_observerManifests :
    (∀ doc ∈ observerManifests, Harmless false (podOf doc)) ↔
      (∀ doc ∈ observerManifests, isKind "DaemonSet" doc = false → Harmless false (podOf doc)) ∧
        ∀ doc ∈ observerManifests, isKind "DaemonSet" doc = true → Unhidden (podOf doc) := by
  have haccepted : validate (fun _ => "") observerManifests false = .ok [] := by decide +kernel
  exact harmless_iff haccepted

/-- The gate accepts the observer together with a privileged Deployment. -/
theorem not_harmless_privilegedDeployment :
    ¬ ∀ setText docs allowHostNetwork, validate setText docs allowHostNetwork = .ok [] →
      ∀ doc ∈ docs, Harmless allowHostNetwork (podOf doc) := by
  intro h
  have haccepted : validate (fun _ => "") (observerManifests ++ [privilegedDeployment]) false =
      .ok [] := by decide +kernel
  have hharmless := h _ _ _ haccepted privilegedDeployment (by simp)
  have hmem : privilegedContainer ∈ containers (podOf privilegedDeployment) :=
    List.mem_flatMap.2 ⟨"containers", by decide, List.mem_singleton.2 rfl⟩
  have hnot := hharmless.not_privileged privilegedContainer hmem
  revert hnot
  decide +kernel

end Validate

end Observers
