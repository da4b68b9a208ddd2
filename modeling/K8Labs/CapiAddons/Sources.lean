import K8Labs.Python.Bytes
import K8Labs.Python.Disk
import K8Labs.Python.Sorted

/-!
# The sources of an add-on

`discover_manifests` of `scripts/generate_capi_addons.py`: the YAML files in the directory of an
add-on, each with a key without slashes.  Names and contents are read from a `Disk`; links and
faults of the operating system are not modelled.

* `Source` : what a source file is.
* `mem_discoverManifests` : the entries are exactly the source files.
* `nodup_discoverManifests` : no two of them have one key.
-/

namespace CapiAddons

open Py (Exc Path Disk valueError)

/-- The add-ons, in the order in which they are generated. -/
inductive Addon where
  | rbac
  | coredns
  | cilium
  deriving DecidableEq

namespace Addon

/-- The directory of the add-on, also its name. -/
def dir : Addon → String
  | rbac => "rbac"
  | coredns => "coredns"
  | cilium => "cilium"

/-- `RBAC_BASE_NAME`, `COREDNS_BASE_NAME` and `CILIUM_BASE_NAME`. -/
def baseName : Addon → String
  | rbac => "rbac-manifests"
  | coredns => "coredns-manifests"
  | cilium => "cilium-manifests"

/-- Files below subdirectories are sources too. -/
def recursive : Addon → Bool
  | cilium => true
  | _ => false

end Addon

/-- `ManifestEntry`. -/
structure ManifestEntry where
  key : String
  path : Path
  content : ByteArray
  encodedSize : ℕ

/-- `base64.b64encode(content).decode("ascii")`. -/
def encoded (content : ByteArray) : String := String.ofList (Py.b64encode content.data.toList)

/-- `canonical_key`. -/
def canonicalKey (relPath : Path) : String :=
  Py.replaceChar (String.intercalate "/" relPath) '/' "--"

/-- The entry of a file below the directory of the add-on. -/
def entryOf (addonRoot path : Path) (content : ByteArray) : ManifestEntry where
  key := canonicalKey (path.drop addonRoot.length)
  path := path
  content := content
  encodedSize := (encoded content).length

/-- The entries of the paths that are files. -/
def readEntries (d : Disk) (addonRoot : Path) (files : List Path) : List ManifestEntry :=
  files.filterMap fun path => (d.fileAt path).map (entryOf addonRoot path)

/-- `sorted(entries, key=lambda e: e.key)`. -/
def sortedByKey (entries : List ManifestEntry) : List ManifestEntry :=
  entries.insertionSort fun a b => a.key ≤ b.key

/-- `sorted({k for k in keys if keys.count(k) > 1})`. -/
def duplicates (keys : List String) : List String :=
  ((keys.filter fun k => 1 < keys.count k).dedup).insertionSort (· ≤ ·)

/-- The entries, unless two have one key. -/
def withoutDuplicates (addonDir : String) (entries : List ManifestEntry) :
    Except Exc (List ManifestEntry) :=
  let keys := entries.map ManifestEntry.key
  if keys.dedup.length ≠ keys.length then
    valueError ("duplicate canonical keys under " ++ addonDir ++ ": " ++
      (Py.Value.list ((duplicates keys).map Py.Value.str)).repr)
  else .ok entries

/-- The paths with the names of YAML files, sorted. -/
def yamlFiles (d : Disk) (addonRoot : Path) (recursive : Bool) : List Path :=
  if recursive then d.rglob addonRoot ".yaml" else d.glob addonRoot ".yaml"

/-- `discover_manifests`. -/
def discoverManifests (d : Disk) (repoRoot : Path) (addonDir : String) (recursive : Bool) :
    Except Exc (List ManifestEntry) :=
  let addonRoot := repoRoot ++ [addonDir]
  let files := yamlFiles d addonRoot recursive
  if d.fs.isDir addonRoot = false then
    .error ⟨.fileNotFoundError, "addon directory not found: " ++ addonRoot.text⟩
  else if files = [] then valueError ("no YAML files found under " ++ addonRoot.text)
  else withoutDuplicates addonDir (sortedByKey (readEntries d addonRoot files))

/-! ### Source files -/

/-- A source file of the add-on: its path below the directory of the add-on, and its bytes. -/
structure Source (d : Disk) (repoRoot : Path) (addon : Addon) (relPath : Path) (bytes : ByteArray) :
    Prop where
  file : d.fileAt (repoRoot ++ [addon.dir] ++ relPath) = some bytes
  yaml : Py.endsWith relPath.name ".yaml" = true
  /-- Only a recursive add-on has sources in subdirectories. -/
  direct : addon.recursive = true ∨ relPath.length = 1

variable {d : Disk} {repoRoot : Path} {addon : Addon} {addonDir : String}
  {entries entries' : List ManifestEntry}

theorem perm_sortedByKey (entries : List ManifestEntry) : (sortedByKey entries).Perm entries :=
  List.perm_insertionSort _ _

theorem withoutDuplicates_eq_ok (h : withoutDuplicates addonDir entries = .ok entries') :
    entries' = entries ∧ (entries.map ManifestEntry.key).Nodup := by
  unfold withoutDuplicates at h
  simp only at h
  split_ifs at h with hlength
  · cases h
  · cases h
    refine ⟨rfl, List.dedup_eq_self.1 ?_⟩
    exact (List.dedup_sublist _).eq_of_length (not_not.1 hlength)

/-- A name with a suffix is a name. -/
theorem ne_nil_of_yaml {relPath : Path} (h : Py.endsWith relPath.name ".yaml" = true) :
    relPath ≠ [] := by
  rintro rfl
  revert h
  decide

/-- The YAML files that are looked at. -/
theorem mem_yamlFiles {addonRoot path : Path} {recursive : Bool} :
    path ∈ yamlFiles d addonRoot recursive ↔
    ∃ relPath, path = addonRoot ++ relPath ∧ d.node path ≠ none ∧
      Py.endsWith relPath.name ".yaml" = true ∧ (recursive = true ∨ relPath.length = 1) := by
  unfold yamlFiles
  split_ifs with hrec
  · rw [Disk.mem_rglob]
    constructor
    · rintro ⟨hnode, ⟨rel, hne, rfl⟩, hname⟩
      rw [Path.name_append hne] at hname
      exact ⟨rel, rfl, hnode, hname, .inl hrec⟩
    · rintro ⟨rel, rfl, hnode, hname, -⟩
      refine ⟨hnode, ⟨rel, ne_nil_of_yaml hname, rfl⟩, ?_⟩
      rwa [Path.name_append (ne_nil_of_yaml hname)]
  · rw [Disk.mem_glob]
    constructor
    · rintro ⟨name, rfl, hnode, hname⟩
      exact ⟨[name], rfl, hnode, hname, .inr rfl⟩
    · rintro ⟨rel, rfl, hnode, hname, hdirect⟩
      obtain ⟨name, rfl⟩ := List.length_eq_one_iff.1 (hdirect.resolve_left hrec)
      exact ⟨name, rfl, hnode, hname⟩

/-- The paths below a directory as they are written relative to it. -/
theorem drop_addonRoot (addonRoot relPath : Path) :
    (addonRoot ++ relPath).drop addonRoot.length = relPath := List.drop_left

theorem discoverManifests_eq_ok
    (h : discoverManifests d repoRoot addon.dir addon.recursive = .ok entries) :
    entries = sortedByKey (readEntries d (repoRoot ++ [addon.dir])
      (yamlFiles d (repoRoot ++ [addon.dir]) addon.recursive)) ∧
    (entries.map ManifestEntry.key).Nodup := by
  unfold discoverManifests at h
  simp only at h
  split_ifs at h
  · cases h
  · obtain ⟨rfl, hnodup⟩ := withoutDuplicates_eq_ok h
    exact ⟨rfl, hnodup⟩

/-- **No two entries have one key.** -/
theorem nodup_discoverManifests
    (h : discoverManifests d repoRoot addon.dir addon.recursive = .ok entries) :
    (entries.map ManifestEntry.key).Nodup := (discoverManifests_eq_ok h).2

/-- **The entries are the source files**, each with its key and its bytes. -/
theorem mem_discoverManifests
    (h : discoverManifests d repoRoot addon.dir addon.recursive = .ok entries)
    {entry : ManifestEntry} :
    entry ∈ entries ↔ ∃ relPath bytes, Source d repoRoot addon relPath bytes ∧
      entry = entryOf (repoRoot ++ [addon.dir]) (repoRoot ++ [addon.dir] ++ relPath) bytes := by
  obtain ⟨rfl, -⟩ := discoverManifests_eq_ok h
  rw [(perm_sortedByKey _).mem_iff, readEntries, List.mem_filterMap]
  constructor
  · rintro ⟨path, hpath, hentry⟩
    obtain ⟨rel, rfl, -, hname, hdirect⟩ := mem_yamlFiles.1 hpath
    obtain ⟨bytes, hbytes, rfl⟩ := Option.map_eq_some_iff.1 hentry
    exact ⟨rel, bytes, ⟨hbytes, hname, hdirect⟩, rfl⟩
  · rintro ⟨rel, bytes, hsource, rfl⟩
    refine ⟨_, mem_yamlFiles.2 ⟨rel, rfl, ?_, hsource.yaml, hsource.direct⟩, ?_⟩
    · rw [Disk.node, Py.FileSystem.fileAt_eq_some.1 hsource.file]
      simp
    · rw [hsource.file]
      rfl

/-- Two sources with one key are one file. -/
theorem Source.eq_of_key (h : discoverManifests d repoRoot addon.dir addon.recursive = .ok entries)
    {relPath relPath' : Path} {bytes bytes' : ByteArray}
    (hsource : Source d repoRoot addon relPath bytes)
    (hsource' : Source d repoRoot addon relPath' bytes')
    (hkey : canonicalKey relPath = canonicalKey relPath') : relPath = relPath' := by
  have hmem := (mem_discoverManifests h).2 ⟨relPath, bytes, hsource, rfl⟩
  have hmem' := (mem_discoverManifests h).2 ⟨relPath', bytes', hsource', rfl⟩
  have heq := List.inj_on_of_nodup_map (nodup_discoverManifests h) hmem hmem' (by
    simpa only [entryOf, drop_addonRoot] using hkey)
  exact List.append_cancel_left (congrArg ManifestEntry.path heq)

end CapiAddons
