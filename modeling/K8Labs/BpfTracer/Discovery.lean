import K8Labs.BpfTracer.Registry
import K8Labs.Python.Str
import Mathlib.Data.List.Infix

/-!
# The Pods that the tracer discovers

`run_discovery` of `main.rs` reads the slices of the three QoS classes and takes the UID of a Pod out
of the name of its slice.  The systemd cgroup driver writes an underscore for every dash of a UID and
puts the slice of a Guaranteed Pod directly below `kubepods.slice` (`Node`).

* `captures_sliceName` : the pattern finds a UID exactly when it has no dash.
* `discovers_iff` : after a pass the Pods of a node are registered exactly when none of them is
  Guaranteed and no UID has a dash.
-/

namespace BpfTracer

/-! ### Names -/

namespace QoSClass

def fromStr (s : Text) : QoSClass :=
  if s = "besteffort".toList then bestEffort
  else if s = "burstable".toList then burstable
  else if s = "guaranteed".toList then guaranteed
  else burstable

def asStr : QoSClass → Text
  | bestEffort => "besteffort".toList
  | burstable => "burstable".toList
  | guaranteed => "guaranteed".toList

@[simp] theorem fromStr_asStr (qos : QoSClass) : fromStr qos.asStr = qos := by
  cases qos <;> decide

end QoSClass

/-- `\w`; the names of cgroups have no letters outside ASCII. -/
def isWord (c : Char) : Bool := c.isAlphanum || c == '_'

/-- `[a-f0-9-]`. -/
def isUidChar (c : Char) : Bool := c.isDigit || 'a' ≤ c && c ≤ 'f' || c == '-'

/-- A match of the pattern at the beginning.  What follows a class in it is not in the class, so the
longest run is the only one. -/
def matchHere (name : Text) : Option (Text × Text) :=
  ("kubepods-".toList.isPrefixOf? name).bind fun rest =>
    ("-pod".toList.isPrefixOf? (rest.dropWhile isWord)).bind fun uid =>
      if rest.takeWhile isWord ≠ [] ∧ uid.takeWhile isUidChar ≠ [] ∧
          uid.dropWhile isUidChar = ".slice".toList then
        some (rest.takeWhile isWord, uid.takeWhile isUidChar)
      else none

/-- `pod_pattern.captures`: the leftmost match of `kubepods-(\w+)-pod([a-f0-9-]+)\.slice$`. -/
def captures (name : Text) : Option (Text × Text) := name.tails.findSome? matchHere

/-! ### A pass -/

/-- An entry of a directory. -/
structure Entry where
  name : Text
  isDir : Bool
  deriving DecidableEq

def kubeletCgroup (root : Path) : Path := root ++ ["kubepods.slice".toList]

def qosSliceName (qos : QoSClass) : Text := "kubepods-".toList ++ (qos.asStr ++ ".slice".toList)

def qosSlice (root : Path) (qos : QoSClass) : Path := kubeletCgroup root ++ [qosSliceName qos]

/-- What an entry of a directory is discovered as. -/
def discover (directory : Path) (entry : Entry) : Option PodInfo :=
  if entry.isDir then
    (captures entry.name).map fun (qos, uid) =>
      ⟨uid, QoSClass.fromStr qos, directory ++ [entry.name]⟩
  else none

/-- What the loops discover, in their order. -/
def candidates (root : Path) (readDir : Path → Option (List Entry)) : List PodInfo :=
  [QoSClass.bestEffort, .burstable, .guaranteed].flatMap fun qos =>
    ((readDir (qosSlice root qos)).getD []).filterMap (discover (qosSlice root qos))

/-- `discovered_pods`. -/
def discoveredPods (root : Path) (readDir : Path → Option (List Entry)) : UidMap PodInfo :=
  (candidates root readDir).foldl (fun found pod => found.insert pod.uid pod) ∅

/-- One pass of the loop of `run_discovery`. -/
def runDiscovery (root : Path) (registry : MetricsRegistry)
    (readDir : Path → Option (List Entry)) : MetricsRegistry :=
  registry.update (discoveredPods root readDir)

/-! ### Nodes -/

/-- A UID: a UUID, or the hash that stands in for it. -/
structure IsUid (uid : Text) : Prop where
  ne_nil : uid ≠ []
  plain : ∀ c ∈ uid, isUidChar c = true

/-- Dashes replaced by underscores. -/
def escaped (uid : Text) : Text := uid.map fun c => if c = '-' then '_' else c

section Placed

variable (root : Path) (qosOf : Text → QoSClass)

/-- The directory that has the slice of a Pod. -/
def parentOf (uid : Text) : Path :=
  if qosOf uid = .guaranteed then kubeletCgroup root else qosSlice root (qosOf uid)

/-- The name of the slice of a Pod. -/
def sliceName (uid : Text) : Text :=
  (if qosOf uid = .guaranteed then "kubepods-pod".toList
    else "kubepods-".toList ++ ((qosOf uid).asStr ++ "-pod".toList)) ++
      (escaped uid ++ ".slice".toList)

/-- A node under the systemd cgroup driver: its Pods, each with its slice in its place, and no other
slices where those of Pods are. -/
structure Node where
  pods : List Text
  readDir : Path → Option (List Entry)
  isUid : ∀ uid ∈ pods, IsUid uid
  placed : ∀ uid ∈ pods, ∃ entries ∈ readDir (parentOf root qosOf uid),
    ⟨sliceName qosOf uid, true⟩ ∈ entries
  listed : ∀ uid ∈ pods, qosOf uid ≠ .guaranteed → ∃ entries ∈ readDir (kubeletCgroup root),
    ⟨qosSliceName (qosOf uid), true⟩ ∈ entries
  only : ∀ qos, ∀ entries ∈ readDir (qosSlice root qos), ∀ entry ∈ entries, entry.isDir = true →
    ".slice".toList <:+ entry.name →
      ∃ uid ∈ pods, qosSlice root qos = parentOf root qosOf uid ∧ entry.name = sliceName qosOf uid

end Placed

/-! ### What the pattern finds -/

section Pattern

variable {uid name : Text}

theorem isUidChar_of_mem_escaped (h : '-' ∉ uid) : escaped uid = uid := by
  refine (List.map_congr_left fun c hc => if_neg ?_).trans (List.map_id uid)
  rintro rfl
  exact h hc

theorem underscore_mem_escaped (h : '-' ∈ uid) : '_' ∈ escaped uid :=
  List.mem_map.2 ⟨'-', h, if_pos rfl⟩

theorem notMem_escaped {c : Char} (h : IsUid uid) (hc : isUidChar c = false) (hne : c ≠ '_') :
    c ∉ escaped uid := by
  intro hmem
  obtain ⟨d, hd, hdc⟩ := List.mem_map.1 hmem
  split_ifs at hdc
  · exact hne hdc.symm
  · rw [← hdc, h.plain d hd] at hc
    cases hc

theorem suffix_of_matchHere {found : Text × Text} (h : matchHere name = some found) :
    ".slice".toList <:+ name := by
  unfold matchHere at h
  obtain ⟨rest, hrest, h⟩ := Option.bind_eq_some_iff.1 h
  obtain ⟨uid, huid, h⟩ := Option.bind_eq_some_iff.1 h
  split_ifs at h with hcond
  have h₁ := (Py.isPrefixOf?_eq_some hrest).symm ▸ List.suffix_append "kubepods-".toList rest
  have h₂ := (Py.isPrefixOf?_eq_some huid).symm ▸ List.suffix_append "-pod".toList uid
  exact ((hcond.2.2 ▸ List.dropWhile_suffix isUidChar).trans h₂).trans
    ((List.dropWhile_suffix isWord).trans h₁)

theorem suffix_of_captures {found : Text × Text} (h : captures name = some found) :
    ".slice".toList <:+ name := by
  obtain ⟨tail, htail, hmatch⟩ := List.exists_of_findSome?_eq_some h
  exact (suffix_of_matchHere hmatch).trans ((List.mem_tails _ _).1 htail)

theorem matchHere_of_notMem (h : 'k' ∉ name) : matchHere name = none := by
  have hprefix : "kubepods-".toList.isPrefixOf? name = none :=
    Py.isPrefixOf?_eq_none fun hp => h (hp.subset (by decide))
  rw [matchHere, hprefix]
  rfl

/-- The pattern is tried at the beginning only, where no other `k` follows. -/
theorem captures_cons (h : 'k' ∉ name) : captures ('k' :: name) = matchHere ('k' :: name) := by
  rw [captures, List.tails_cons, List.findSome?_cons]
  cases matchHere ('k' :: name) with
  | some found => rfl
  | none =>
    refine List.findSome?_eq_none_iff.2 fun tail htail => matchHere_of_notMem fun hmem => h ?_
    exact ((List.mem_tails _ _).1 htail).subset hmem

theorem mem_dropWhile {α : Type} {p : α → Bool} {xs : List α} {x : α} (hx : x ∈ xs)
    (hp : p x = false) : x ∈ xs.dropWhile p := by
  rw [← List.takeWhile_append_dropWhile (p := p) (l := xs), List.mem_append] at hx
  rcases hx with hx | hx
  · rw [List.mem_takeWhile_imp hx] at hp
    cases hp
  · exact hx

/-- **The pattern** finds the UID in the name of a slice exactly when it has no dash. -/
theorem captures_slice (qos : QoSClass) (h : IsUid uid) :
    captures ("kubepods-".toList ++ (qos.asStr ++ ("-pod".toList ++
      (escaped uid ++ ".slice".toList)))) = if '-' ∈ uid then none else some (qos.asStr, uid) := by
  have hword : ∀ c ∈ qos.asStr, isWord c = true := by
    have hall : qos.asStr.all isWord = true := by cases qos <;> decide
    exact List.all_eq_true.1 hall
  have hne : qos.asStr ≠ [] := by cases qos <;> decide
  have hk : 'k' ∉ "ubepods-".toList ++ (qos.asStr ++ ("-pod".toList ++
      (escaped uid ++ ".slice".toList))) := by
    simp only [List.mem_append, not_or]
    refine ⟨by decide, by cases qos <;> decide, by decide, ?_, by decide⟩
    exact notMem_escaped h (by decide) (by decide)
  have hdash : ∀ rest, (qos.asStr ++ ("-pod".toList ++ rest)).takeWhile isWord = qos.asStr ∧
      (qos.asStr ++ ("-pod".toList ++ rest)).dropWhile isWord = "-pod".toList ++ rest := by
    intro rest
    rw [List.takeWhile_append_of_pos hword, List.dropWhile_append_of_pos hword]
    exact ⟨List.append_nil _, rfl⟩
  refine (captures_cons hk).trans ?_
  show matchHere ("kubepods-".toList ++ _) = _
  rw [matchHere, Py.isPrefixOf?_append, Option.bind_some, (hdash _).1, (hdash _).2,
    Py.isPrefixOf?_append, Option.bind_some]
  by_cases hmem : '-' ∈ uid
  · -- the underscore ends the run before the suffix
    rw [if_pos hmem, if_neg]
    rintro ⟨-, -, hrest⟩
    have hunder : '_' ∈ (escaped uid ++ ".slice".toList).dropWhile isUidChar :=
      mem_dropWhile (List.mem_append_left _ (underscore_mem_escaped hmem)) (by decide)
    rw [hrest] at hunder
    exact absurd hunder (by decide)
  · rw [if_neg hmem, isUidChar_of_mem_escaped hmem, List.takeWhile_append_of_pos h.plain,
      List.dropWhile_append_of_pos h.plain]
    have hdot : ".slice".toList.takeWhile isUidChar = [] ∧
        ".slice".toList.dropWhile isUidChar = ".slice".toList := by decide
    rw [hdot.1, hdot.2, List.append_nil, if_pos ⟨hne, h.ne_nil, rfl⟩]

end Pattern

/-! ### What a pass discovers -/

section Pass

variable {root : Path} {qosOf : Text → QoSClass} {node : Node root qosOf} {uid : Text}
  {pod : PodInfo}

theorem qosSliceName_injective : Function.Injective qosSliceName := by
  intro a b h
  cases a <;> cases b <;> first | rfl | exact absurd h (by decide)

theorem qosSlice_inj {a b : QoSClass} : qosSlice root a = qosSlice root b ↔ a = b := by
  rw [qosSlice, qosSlice, List.append_cancel_left_eq, List.singleton_inj]
  exact qosSliceName_injective.eq_iff

theorem qosSlice_eq_parentOf {qos : QoSClass} :
    qosSlice root qos = parentOf root qosOf uid ↔ qosOf uid ≠ .guaranteed ∧ qosOf uid = qos := by
  unfold parentOf
  split_ifs with h
  · refine iff_of_false (fun heq => ?_) fun hne => hne.1 h
    exact absurd (List.append_right_eq_self.1 heq) (List.cons_ne_nil _ _)
  · rw [qosSlice_inj, eq_comm]
    exact (and_iff_right h).symm

theorem sliceName_of_ne (h : qosOf uid ≠ .guaranteed) :
    sliceName qosOf uid = "kubepods-".toList ++ ((qosOf uid).asStr ++ ("-pod".toList ++
      (escaped uid ++ ".slice".toList))) := by
  rw [sliceName, if_neg h, List.append_assoc, List.append_assoc]

/-- A Pod as it is discovered. -/
def podInfo (root : Path) (qosOf : Text → QoSClass) (uid : Text) : PodInfo :=
  ⟨uid, qosOf uid, qosSlice root (qosOf uid) ++ [sliceName qosOf uid]⟩

theorem mem_candidates : pod ∈ candidates root node.readDir ↔
    ∃ uid ∈ node.pods, qosOf uid ≠ .guaranteed ∧ '-' ∉ uid ∧ pod = podInfo root qosOf uid := by
  constructor
  · intro h
    obtain ⟨qos, -, h⟩ := List.mem_flatMap.1 h
    obtain ⟨entry, hentry, h⟩ := List.mem_filterMap.1 h
    unfold discover at h
    split_ifs at h with hdir
    obtain ⟨found, hfound, rfl⟩ := Option.map_eq_some_iff.1 h
    cases hread : node.readDir (qosSlice root qos) with
    | none =>
      rw [hread] at hentry
      cases hentry
    | some entries =>
      rw [hread] at hentry
      obtain ⟨uid, huid, hparent, hname⟩ :=
        node.only qos entries hread entry hentry hdir (suffix_of_captures hfound)
      obtain ⟨hne, rfl⟩ := qosSlice_eq_parentOf.1 hparent
      rw [hname, sliceName_of_ne hne, captures_slice _ (node.isUid uid huid)] at hfound
      split_ifs at hfound with hdash
      cases hfound
      refine ⟨uid, huid, hne, hdash, ?_⟩
      rw [hname]
      simp [podInfo]
  · rintro ⟨uid, huid, hne, hdash, rfl⟩
    obtain ⟨entries, hread, hentry⟩ := node.placed uid huid
    rw [parentOf, if_neg hne] at hread
    refine List.mem_flatMap.2 ⟨qosOf uid, by cases qosOf uid <;> decide, ?_⟩
    rw [hread]
    refine List.mem_filterMap.2 ⟨_, hentry, ?_⟩
    rw [discover, if_pos rfl]
    dsimp only
    rw [sliceName_of_ne hne, captures_slice _ (node.isUid uid huid), if_neg hdash,
      ← sliceName_of_ne hne]
    simp [podInfo]

/-- Pods that are filed one after the other. -/
theorem mem_foldl_insert {pods : List PodInfo} {m : UidMap PodInfo} :
    uid ∈ pods.foldl (fun found pod => found.insert pod.uid pod) m ↔
      uid ∈ m ∨ ∃ pod ∈ pods, pod.uid = uid := by
  induction pods generalizing m with
  | nil => simp
  | cons first pods ih =>
    rw [List.foldl_cons, ih, AList.mem_insert, List.exists_mem_cons_iff,
      or_comm (a := uid = first.uid), or_assoc, eq_comm (a := uid)]

theorem of_lookup_foldl_insert {pods : List PodInfo} {m : UidMap PodInfo}
    (h : (pods.foldl (fun found pod => found.insert pod.uid pod) m).lookup uid = some pod) :
    m.lookup uid = some pod ∨ pod ∈ pods ∧ pod.uid = uid := by
  induction pods generalizing m with
  | nil => exact .inl h
  | cons first pods ih =>
    rcases ih h with h | ⟨h, huid⟩
    · rw [lookup_insert_eq] at h
      split_ifs at h with huid
      · cases h
        exact .inr ⟨List.mem_cons_self, huid.symm⟩
      · exact .inl h
    · exact .inr ⟨List.mem_cons_of_mem _ h, huid⟩

theorem mem_discoveredPods : uid ∈ discoveredPods root node.readDir ↔
    uid ∈ node.pods ∧ qosOf uid ≠ .guaranteed ∧ '-' ∉ uid := by
  have hempty : uid ∉ (∅ : UidMap PodInfo) := AList.notMem_empty uid
  rw [discoveredPods, mem_foldl_insert, or_iff_right hempty]
  constructor
  · rintro ⟨pod, hpod, rfl⟩
    obtain ⟨uid, huid, hne, hdash, rfl⟩ := mem_candidates.1 hpod
    exact ⟨huid, hne, hdash⟩
  · rintro ⟨huid, hne, hdash⟩
    exact ⟨_, mem_candidates.2 ⟨uid, huid, hne, hdash, rfl⟩, rfl⟩

theorem eq_podInfo_of_lookup (h : (discoveredPods root node.readDir).lookup uid = some pod) :
    pod = podInfo root qosOf uid := by
  rcases of_lookup_foldl_insert h with hnone | ⟨hmem, huid⟩
  · cases hnone
  · obtain ⟨found, -, -, -, rfl⟩ := mem_candidates.1 hmem
    rw [← huid]
    rfl

theorem keyed_discoveredPods : Keyed (discoveredPods root node.readDir) := by
  intro uid pod h
  rw [eq_podInfo_of_lookup h]
  rfl

/-! ### Passes over a changing node -/

/-- Every Pod is registered as it is discovered. -/
def Sound (root : Path) (qosOf : Text → QoSClass) (registry : MetricsRegistry) : Prop :=
  ∀ uid, ∀ pod ∈ registry.getPod uid, pod = podInfo root qosOf uid

theorem sound_new : Sound root qosOf .new := fun _ _ h => nomatch h

theorem Sound.runDiscovery {registry : MetricsRegistry} (h : Sound root qosOf registry)
    (node : Node root qosOf) : Sound root qosOf (runDiscovery root registry node.readDir) := by
  intro uid pod hpod
  rw [MetricsRegistry.getPod, BpfTracer.runDiscovery,
    MetricsRegistry.lookup_update keyed_discoveredPods] at hpod
  split_ifs at hpod
  · rcases Option.or_eq_some_iff.1 hpod with hpod | ⟨-, hpod⟩
    · exact h uid pod hpod
    · exact eq_podInfo_of_lookup hpod
  · cases hpod

/-- The registry after passes over a node that changes. -/
def afterPasses (root : Path) (qosOf : Text → QoSClass) (nodes : List (Node root qosOf)) :
    MetricsRegistry :=
  nodes.foldl (fun registry node => runDiscovery root registry node.readDir) .new

theorem sound_afterPasses (nodes : List (Node root qosOf)) :
    Sound root qosOf (afterPasses root qosOf nodes) := by
  have hfold : ∀ registry, Sound root qosOf registry → Sound root qosOf
      (nodes.foldl (fun registry node => runDiscovery root registry node.readDir) registry) := by
    induction nodes with
    | nil => exact fun _ h => h
    | cons node nodes ih => exact fun registry h => ih _ (h.runDiscovery node)
  exact hfold _ sound_new

/-- The Pods of a node are registered, with their classes, and no others. -/
structure Discovers (qosOf : Text → QoSClass) (pods : List Text) (registry : MetricsRegistry) :
    Prop where
  registered : ∀ uid ∈ pods, (registry.getPod uid).map PodInfo.qos = some (qosOf uid)
  only : ∀ uid ∈ registry.pods, uid ∈ pods

theorem Discovers.mem {pods : List Text} {registry : MetricsRegistry}
    (h : Discovers qosOf pods registry) (huid : uid ∈ pods) : uid ∈ registry.pods := by
  obtain ⟨pod, hpod, -⟩ := Option.map_eq_some_iff.1 (h.registered uid huid)
  exact AList.lookup_isSome.1 (Option.isSome_iff_exists.2 ⟨pod, hpod⟩)

theorem mem_pods_runDiscovery {registry : MetricsRegistry} :
    uid ∈ (runDiscovery root registry node.readDir).pods ↔
      uid ∈ node.pods ∧ qosOf uid ≠ .guaranteed ∧ '-' ∉ uid := by
  rw [← mem_discoveredPods, ← AList.lookup_isSome, runDiscovery,
    MetricsRegistry.lookup_update keyed_discoveredPods]
  split_ifs with h
  · refine iff_of_true ?_ h
    obtain ⟨pod, hpod⟩ := Option.isSome_iff_exists.1 (AList.lookup_isSome.2 h)
    rw [hpod]
    cases registry.pods.lookup uid <;> rfl
  · exact iff_of_false (fun h => nomatch h) h

/-- **What a pass registers.**  Whatever passes came before, the Pods of a node are registered
under their UIDs, with their classes and no others, exactly when none of them is Guaranteed and no
UID has a dash. -/
theorem discovers_iff (earlier : List (Node root qosOf)) (node : Node root qosOf) :
    Discovers qosOf node.pods
        (runDiscovery root (afterPasses root qosOf earlier) node.readDir) ↔
      ∀ uid ∈ node.pods, qosOf uid ≠ .guaranteed ∧ '-' ∉ uid := by
  constructor
  · exact fun h uid huid => (mem_pods_runDiscovery.1 (h.mem huid)).2
  · intro h
    refine ⟨fun uid huid => ?_, fun uid huid => (mem_pods_runDiscovery.1 huid).1⟩
    have hmem : uid ∈ (runDiscovery root (afterPasses root qosOf earlier) node.readDir).pods :=
      mem_pods_runDiscovery.2 ⟨huid, h uid huid⟩
    obtain ⟨pod, hpod⟩ := Option.isSome_iff_exists.1 (AList.lookup_isSome.2 hmem)
    have hsound := (sound_afterPasses earlier).runDiscovery node uid pod hpod
    rw [hsound] at hpod
    show ((runDiscovery root (afterPasses root qosOf earlier) node.readDir).pods.lookup uid).map
      PodInfo.qos = _
    rw [hpod]
    rfl

/-- A node with one Pod. -/
def loneNode (qos : QoSClass) (uid : Text) (huid : IsUid uid) : Node [] fun _ => qos where
  pods := [uid]
  readDir path :=
    if path = parentOf [] (fun _ => qos) uid then some [⟨sliceName (fun _ => qos) uid, true⟩]
    else if path = kubeletCgroup [] then some [⟨qosSliceName qos, true⟩]
    else none
  isUid := List.forall_mem_singleton.2 huid
  placed := List.forall_mem_singleton.2 ⟨_, if_pos rfl, List.mem_cons_self⟩
  listed := by
    refine List.forall_mem_singleton.2 fun hqos => ?_
    have hne : kubeletCgroup [] ≠ parentOf [] (fun _ => qos) uid := by
      rw [parentOf, if_neg hqos]
      simp [qosSlice, kubeletCgroup]
    exact ⟨_, (if_neg hne).trans (if_pos rfl), List.mem_cons_self⟩
  only := by
    intro found entries hentries entry hentry _ _
    refine ⟨uid, List.mem_cons_self, ?_⟩
    have hne : qosSlice [] found ≠ kubeletCgroup [] := by simp [qosSlice, kubeletCgroup]
    have hentries := Option.mem_def.1 hentries
    split_ifs at hentries with hparent
    cases hentries
    rw [List.mem_singleton] at hentry
    rw [hentry]
    exact ⟨hparent, rfl⟩

/-- A UUID. -/
def sampleUid : Text := "1b4e28ba-2fa1-11d2-883f-0016d3cca427".toList

theorem isUid_sampleUid : IsUid sampleUid where
  ne_nil := by decide
  plain := List.all_eq_true.1 (by decide)

theorem isUid_filter : IsUid (sampleUid.filter (· ≠ '-')) where
  ne_nil := by decide
  plain _ hc := isUid_sampleUid.plain _ (List.mem_of_mem_filter hc)

/-- A Burstable Pod with a UUID is not registered, and neither is a Guaranteed Pod whose UID is a
hash. -/
theorem uuid_and_guaranteed_not_registered :
    (¬ Discovers (fun _ => .burstable) [sampleUid]
        (runDiscovery [] .new (loneNode .burstable sampleUid isUid_sampleUid).readDir)) ∧
      ¬ Discovers (fun _ => .guaranteed) [sampleUid.filter (· ≠ '-')]
        (runDiscovery [] .new (loneNode .guaranteed _ isUid_filter).readDir) := by
  constructor
  · intro h
    obtain ⟨-, -, hdash⟩ := mem_pods_runDiscovery.1 (h.mem List.mem_cons_self)
    exact hdash (by decide)
  · intro h
    obtain ⟨-, hne, -⟩ := mem_pods_runDiscovery.1 (h.mem List.mem_cons_self)
    exact hne rfl

end Pass

end BpfTracer
