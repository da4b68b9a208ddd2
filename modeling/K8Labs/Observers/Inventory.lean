import K8Labs.Python.Dict
import K8Labs.Python.Links
import K8Labs.Python.Text

/-!
# The inventory of the collector

What a collector may expose: the cgroups listed by a fixture, or found in the cgroup tree for the
Pods that the Kubernetes API returns.  A `FixtureInventory` carries that its index by UID agrees
with its targets.

* `mem_fromData`, `mem_fromPayload`: a target of an inventory was registered for its own UID.
-/

namespace Observers

open Py

/-- `CgroupTarget`. -/
structure CgroupTarget where
  uid : String
  podNamespace : String
  pod : String
  container : String
  qos : String
  level : String
  cellId : String
  cgroupPath : String
  deriving DecidableEq

/-- `CgroupTarget.labels`, in the order of the keys. -/
def CgroupTarget.labels (target : CgroupTarget) (node : String) : List (String × String) :=
  [("cell_id", target.cellId), ("container", target.container), ("level", target.level),
    ("namespace", target.podNamespace), ("node", node), ("pod", target.pod),
    ("pod_uid", target.uid), ("qos", target.qos)]

/-- One more target under its UID. -/
def register (byUid : List (String × List CgroupTarget)) (target : CgroupTarget) :
    List (String × List CgroupTarget) :=
  Dict.update target.uid (fun old => old.getD [] ++ [target]) byUid

theorem lookup_register (byUid : List (String × List CgroupTarget)) (target : CgroupTarget)
    (uid : String) : ((register byUid target).lookup uid).getD [] =
      (byUid.lookup uid).getD [] ++ [target].filter fun t => t.uid = uid := by
  rw [register, Dict.lookup_update]
  by_cases h : uid = target.uid
  · simp [h]
  · simp [h, Ne.symm h]

theorem lookup_foldl_register (targets : List CgroupTarget)
    (byUid : List (String × List CgroupTarget)) (uid : String) :
    ((targets.foldl register byUid).lookup uid).getD [] =
      (byUid.lookup uid).getD [] ++ targets.filter fun t => t.uid = uid := by
  induction targets generalizing byUid with
  | nil => simp
  | cons target targets ih =>
    rw [List.foldl_cons, ih, lookup_register, List.append_assoc, ← List.filter_append]
    rfl

/-- `FixtureInventory`: targets, and the same targets by UID. -/
structure FixtureInventory where
  targets : List CgroupTarget
  byUid : List (String × List CgroupTarget)
  /-- Under a UID stand its targets, in order. -/
  indexed : ∀ uid, (byUid.lookup uid).getD [] = targets.filter fun t => t.uid = uid
  deriving DecidableEq

namespace FixtureInventory

/-- `FixtureInventory(targets)`. -/
def ofTargets (targets : List CgroupTarget) : FixtureInventory where
  targets := targets
  byUid := targets.foldl register []
  indexed uid := lookup_foldl_register targets [] uid

/-- `targets_for_uid`. -/
def targetsForUid (inventory : FixtureInventory) (uid : String) : List CgroupTarget :=
  (inventory.byUid.lookup uid).getD []

theorem mem_targetsForUid {inventory : FixtureInventory} {uid : String} {target : CgroupTarget} :
    target ∈ inventory.targetsForUid uid ↔ target ∈ inventory.targets ∧ target.uid = uid := by
  rw [targetsForUid, inventory.indexed, List.mem_filter, decide_eq_true_iff]

end FixtureInventory

/-! ### The fixture -/

/-- `raise InventoryFormatError(message)`. -/
def formatError {α : Type*} (message : String) : Except Exc α := typeError message

/-- `_required_text`. -/
def requiredText (values : Items) (key : String) : Except Exc String :=
  match values.get key with
  | .scalar (.str s) =>
    if s = "" then valueError ("inventory entry needs non-empty " ++ key) else .ok s
  | _ => valueError ("inventory entry needs non-empty " ++ key)

/-- `_optional_text`: the first of the keys that has a string. -/
def optionalText (values : Items) (keys : List String) : String :=
  (keys.findSome? fun key => (values.get key).asStr).getD ""

/-- `_list_cgroup_items`, one entry. -/
def listCgroupItem (uid : String) (entry : Value) : Except Exc (String × String) :=
  match entry.asDict with
  | none => formatError ("inventory pod " ++ uid ++ ": cgroup must be a JSON object")
  | some entry =>
    match entry.get "level", entry.get "path" with
    | .scalar (.str level), .scalar (.str path) => .ok (level, path)
    | _, _ => formatError ("inventory pod " ++ uid ++ ": cgroup needs level and path")

/-- One item of a `cgroups` object. -/
def cgroupItem (uid : String) (item : Scalar × Value) : Except Exc (String × String) :=
  match item with
  | (.str level, .scalar (.str path)) => .ok (level, path)
  | _ => formatError ("inventory pod " ++ uid ++ ": invalid cgroup entry")

/-- The cgroups of a container. -/
def cgroupItems (uid : String) (cgroups : Value) : Except Exc (List (String × String)) :=
  match cgroups with
  | .dict items => Py.traverse (cgroupItem uid) items
  | .list entries => Py.traverse (listCgroupItem uid) entries
  | _ => formatError ("inventory pod " ++ uid ++ ": cgroups must be an object or list")

/-- The targets of one container of a fixture; `pod` has the fields they share. -/
def containerTargets (pod : CgroupTarget) (container : Value) : Except Exc (List CgroupTarget) :=
  match container.asDict with
  | none => formatError ("inventory pod " ++ pod.uid ++ ": container must be a JSON object")
  | some container =>
    (cgroupItems pod.uid (container.get "cgroups")).map fun items => items.map fun item =>
      { pod with
        container := optionalText container ["name", "container"]
        level := item.1
        cgroupPath := item.2 }

/-- The targets of one Pod of a fixture. -/
def podTargets (pod : Value) : Except Exc (List CgroupTarget) :=
  match pod.asDict with
  | none => formatError "inventory pod entries must be JSON objects"
  | some pod =>
    (requiredText pod "uid").bind fun uid =>
      match (pod.get "containers").asList with
      | none => formatError ("inventory pod " ++ uid ++ ": containers must be a JSON list")
      | some containers =>
        (Py.traverse (containerTargets
          { uid := uid
            podNamespace := optionalText pod ["namespace"]
            pod := optionalText pod ["pod", "name"]
            container := ""
            qos := optionalText pod ["qos", "qos_class"]
            level := ""
            cellId := optionalText pod ["cell_id"]
            cgroupPath := "" }) containers).map List.flatten

/-- The Pods of a fixture. -/
def fixturePods (data : Items) : Value :=
  (data.lookup "pods").getD ((data.lookup "items").getD .none)

/-- `FixtureInventory.from_data`. -/
def fromData (data : Items) : Except Exc FixtureInventory :=
  match (fixturePods data).asList with
  | none => formatError "inventory pods must be a JSON list"
  | some pods => (Py.traverse podTargets pods).map fun targets => .ofTargets targets.flatten

/-! ### The cgroups of a Pod -/

/-- A character of `UID_PATTERN` after the first. -/
def isUidChar (c : Char) : Bool := c.isAlphanum || c == '_' || c == '.' || c == '-'

/-- `UID_PATTERN.fullmatch(s)`. -/
def isUid (s : String) : Bool :=
  match s.toList with
  | [] => false
  | c :: cs => c.isAlphanum && cs.all isUidChar && decide (cs.length ≤ 255)

/-- The name of a path. -/
def nameOf (p : Path) : String := p.getLast?.getD ""

/-- `str(path.relative_to(root))`. -/
def relativeText (root p : Path) : String := "/".intercalate (p.drop root.length)

section Discover

variable (t : Tree)

/-- The directories below the root that have the UID in their name, as it is or with underscores. -/
def uidMatches (root : Path) (uid : String) : List Path :=
  (t.rglob root).filter fun candidate => t.isDir candidate &&
    [uid, replaceChar uid '-' "_"].any fun form => isIn form (nameOf candidate)

/-- The first part of the path that is a slice of the Kubernetes Pods. -/
def qosIndex (parts : List String) : Option ℕ :=
  parts.findIdx? fun part => startsWith part "kubepods" && endsWith part ".slice"

/-- `_safe_child_directories`. -/
def childDirectories (p : Path) : List Path :=
  match t.iterdir p with
  | .ok children => children.filter t.isDir
  | .error _ => []

/-- `_container_for_path`. -/
def containerForPath (p : Path) (containers : List String) : String :=
  (containers.find? fun container => container != "" && isIn container (nameOf p)).getD ""

/-- The level of a directory below a Pod. -/
def childLevel (child : Path) : String :=
  if endsWith (nameOf child) ".scope" then "container_scope" else "container_leaf"

/-- The targets of a directory of the Pod; `pod` has the fields they share. -/
def pathTargets (root : Path) (pod : CgroupTarget) (containers : List String) (podPath : Path) :
    List CgroupTarget :=
  let target := fun (p : Path) (container level : String) =>
    { pod with container := container, level := level, cgroupPath := relativeText root p }
  (match qosIndex (podPath.drop root.length) with
    | some index =>
      [target (root ++ (podPath.drop root.length).take (index + 1)) "" "qos_slice"]
    | none => []) ++
  [target podPath "" "pod_slice"] ++
  (childDirectories t podPath).map fun child =>
    target child (containerForPath child containers) (childLevel child)

/-- `_discover_targets`; of the targets of one level and path the last is kept. -/
def discoverTargets (cgroupRoot : List String) (pod : CgroupTarget) (containers : List String) :
    List CgroupTarget :=
  let root := t.realpath cgroupRoot
  let targets := (uidMatches t root pod.uid).flatMap (pathTargets t root pod containers)
  (targets.foldl (fun unique target =>
    Dict.update (target.level, target.cgroupPath) (fun _ => target) unique) []).map Prod.snd

/-- `_metadata_cell_id`. -/
def metadataCellId (labels annotations : Items) : String :=
  ([labels, annotations].findSome? fun values =>
    ["cpu-limits.k8labs.io/cell-id", "k8labs.io/cell-id", "cell_id"].findSome? fun key =>
      (values.get key).asStr).getD ""

/-- The UID of a Pod of the API, when it is a valid one. -/
def podUid (pod : Items) : Option String :=
  (pod.get "metadata").asDict.bind fun metadata =>
    (metadata.get "uid").asStr.filter isUid

/-- `_targets_from_kubernetes_pod`. -/
def targetsFromKubernetesPod (cgroupRoot : List String) (pod : Items) : List CgroupTarget :=
  match (pod.get "metadata").asDict, (pod.get "status").asDict, (pod.get "spec").asDict with
  | some metadata, some status, some spec =>
    match podUid pod with
    | none => []
    | some uid =>
      match (spec.get "containers").asList with
      | none => []
      | some containers =>
        discoverTargets t cgroupRoot
          { uid := uid
            podNamespace := optionalText metadata ["namespace"]
            pod := optionalText metadata ["name"]
            container := ""
            qos := optionalText status ["qosClass"]
            level := ""
            cellId := metadataCellId ((metadata.get "labels").asDict.getD [])
              ((metadata.get "annotations").asDict.getD [])
            cgroupPath := "" }
          (containers.filterMap fun container =>
            container.asDict.map fun container => optionalText container ["name"])
  | _, _, _ => []

/-- The Pods of a payload of the API. -/
def payloadPods (payload : Items) : List Items :=
  ((payload.get "items").asList.getD []).filterMap Value.asDict

/-- `KubernetesInventory.from_service_account`, from the payload on. -/
def fromPayload (cgroupRoot : List String) (payload : Value) : Except Exc FixtureInventory :=
  match payload.asDict with
  | none => formatError "Kubernetes API returned an invalid Pod inventory"
  | some payload =>
    match (payload.get "items").asList with
    | none => formatError "Kubernetes API Pod inventory has no items list"
    | some _ =>
      .ok (.ofTargets ((payloadPods payload).flatMap (targetsFromKubernetesPod t cgroupRoot)))

end Discover

/-! ### Registrations -/

/-- A Pod of the fixture registers the target for its UID. -/
def RegisteredBy (data : Items) (uid : String) (target : CgroupTarget) : Prop :=
  ∃ pods pod items targets, (fixturePods data).asList = some pods ∧ pod ∈ pods ∧
    pod.asDict = some items ∧ items.get "uid" = .str uid ∧ podTargets pod = .ok targets ∧
      target ∈ targets

/-- A Pod of the payload has the UID, and the target is discovered for it. -/
def DiscoveredIn (t : Tree) (cgroupRoot : List String) (payload : Value) (uid : String)
    (target : CgroupTarget) : Prop :=
  ∃ items pod, payload.asDict = some items ∧ pod ∈ payloadPods items ∧ podUid pod = some uid ∧
    target ∈ targetsFromKubernetesPod t cgroupRoot pod

theorem uid_containerTargets {pod : CgroupTarget} {container : Value} {targets : List CgroupTarget}
    (h : containerTargets pod container = .ok targets) : ∀ target ∈ targets, target.uid = pod.uid := by
  unfold containerTargets at h
  split at h
  · cases h
  · obtain ⟨items, -, rfl⟩ := Py.map_eq_ok.1 h
    intro target htarget
    obtain ⟨item, -, rfl⟩ := List.mem_map.1 htarget
    rfl

theorem requiredText_eq_ok {values : Items} {key s : String} (h : requiredText values key = .ok s) :
    values.get key = .str s := by
  unfold requiredText at h
  split at h
  · next hget =>
    split_ifs at h
    · cases h
    · cases h
      exact hget
  · cases h

theorem uid_podTargets {pod : Value} {targets : List CgroupTarget} (h : podTargets pod = .ok targets) :
    ∃ items uid, pod.asDict = some items ∧ items.get "uid" = .str uid ∧
      ∀ target ∈ targets, target.uid = uid := by
  unfold podTargets at h
  cases hd : pod.asDict with
  | none =>
    rw [hd] at h
    cases h
  | some items =>
    rw [hd] at h
    obtain ⟨uid, huid, h⟩ := bind_eq_ok.1 h
    refine ⟨items, uid, rfl, requiredText_eq_ok huid, fun target htarget => ?_⟩
    split at h
    · cases h
    · obtain ⟨lists, hlists, rfl⟩ := Py.map_eq_ok.1 h
      obtain ⟨list, hlist, hmem⟩ := List.mem_flatten.1 htarget
      obtain ⟨container, -, hcontainer⟩ := forall₂_mem_right (traverse_eq_ok.1 hlists) hlist
      exact uid_containerTargets hcontainer target hmem

/-- **A target of a fixture was registered for its own UID.** -/
theorem mem_fromData {data : Items} {inventory : FixtureInventory}
    (h : fromData data = .ok inventory) {target : CgroupTarget} (htarget : target ∈ inventory.targets) :
    RegisteredBy data target.uid target := by
  unfold fromData at h
  split at h
  · cases h
  · next pods hpods =>
    obtain ⟨lists, hlists, rfl⟩ := Py.map_eq_ok.1 h
    obtain ⟨targets, htargets, hmem⟩ := List.mem_flatten.1 htarget
    obtain ⟨pod, hpod, hok⟩ := forall₂_mem_right (traverse_eq_ok.1 hlists) htargets
    obtain ⟨items, uid, hd, huid, huids⟩ := uid_podTargets hok
    rw [huids target hmem]
    exact ⟨pods, pod, items, targets, hpods, hpod, hd, huid, hok, hmem⟩

theorem uid_pathTargets {t : Tree} {root podPath : Path} {pod : CgroupTarget}
    {containers : List String} :
    ∀ target ∈ pathTargets t root pod containers podPath, target.uid = pod.uid := by
  unfold pathTargets
  intro target htarget
  rcases List.mem_append.1 htarget with htarget | htarget
  · rcases List.mem_append.1 htarget with htarget | htarget
    · split at htarget
      · rw [List.mem_singleton.1 htarget]
      · cases htarget
    · rw [List.mem_singleton.1 htarget]
  · obtain ⟨child, -, rfl⟩ := List.mem_map.1 htarget
    rfl

/-- What is kept of a list of targets by level and path is one of them. -/
theorem mem_unique {targets : List CgroupTarget} {unique : List ((String × String) × CgroupTarget)}
    {item : (String × String) × CgroupTarget}
    (h : item ∈ targets.foldl (fun unique target =>
      Dict.update (target.level, target.cgroupPath) (fun _ => target) unique) unique) :
    item ∈ unique ∨ item.2 ∈ targets := by
  induction targets generalizing unique with
  | nil => exact .inl h
  | cons target targets ih =>
    rcases ih h with h | h
    · rcases Dict.mem_update h with h | ⟨-, rfl⟩
      · exact .inl h
      · exact .inr List.mem_cons_self
    · exact .inr (List.mem_cons_of_mem _ h)

theorem mem_discoverTargets {t : Tree} {cgroupRoot : List String} {pod target : CgroupTarget}
    {containers : List String} (h : target ∈ discoverTargets t cgroupRoot pod containers) :
    ∃ podPath ∈ uidMatches t (t.realpath cgroupRoot) pod.uid,
      target ∈ pathTargets t (t.realpath cgroupRoot) pod containers podPath := by
  obtain ⟨item, hitem, rfl⟩ := List.mem_map.1 h
  rcases mem_unique hitem with h | h
  · cases h
  · exact List.mem_flatMap.1 h

theorem uid_targetsFromKubernetesPod {t : Tree} {cgroupRoot : List String} {pod : Items}
    {target : CgroupTarget} (h : target ∈ targetsFromKubernetesPod t cgroupRoot pod) :
    podUid pod = some target.uid := by
  unfold targetsFromKubernetesPod at h
  split at h
  · split at h
    · cases h
    · next uid huid =>
      split at h
      · cases h
      · obtain ⟨podPath, -, hmem⟩ := mem_discoverTargets h
        rw [huid, uid_pathTargets target hmem]
  · cases h

/-- **A target of a payload was discovered for a Pod of its own UID.** -/
theorem mem_fromPayload {t : Tree} {cgroupRoot : List String} {payload : Value}
    {inventory : FixtureInventory} (h : fromPayload t cgroupRoot payload = .ok inventory)
    {target : CgroupTarget} (htarget : target ∈ inventory.targets) :
    DiscoveredIn t cgroupRoot payload target.uid target := by
  unfold fromPayload at h
  split at h
  · cases h
  · next items hitems =>
    split at h
    · cases h
    · cases h
      obtain ⟨pod, hpod, hmem⟩ := List.mem_flatMap.1 htarget
      exact ⟨items, pod, hitems, hpod, uid_targetsFromKubernetesPod hmem, hmem⟩

end Observers
