import K8Labs.Python.Value
import Mathlib.Data.List.Nodup

/-!
# The dependency lock

`scripts/lock.py`: `loadLock` is `load_lock` on the document that `yaml.safe_load` read.  It checks
the required fields, refuses mutable references anywhere, and checks the pinned images
(`checkImages`), the artifacts (`validateArtifacts`) and the Kubernetes upgrade matrix
(`validateUpgradeMatrix`).

`urlparse` is a parameter: a function from a URL to its scheme and network location that may raise.
What an accepted lock satisfies is read off in `loadLock_eq_ok`, `validateArtifacts_eq_ok` and
`validateUpgradeMatrix_eq_ok`.
-/

namespace Artifacts

open Py (Exc Value Items valueError typeError)

/-- `urllib.parse.urlparse(url)`: the scheme and the network location. -/
abbrev UrlParse := String → Except Exc (String × String)

/-! ### Required fields -/

/-- `REQUIRED_PATHS`. -/
def requiredPaths : List (List String) :=
  [["fedora", "kernel"], ["kubernetes", "version"], ["kubernetes", "cri_o"], ["kubernetes", "crun"],
    ["cilium", "version"], ["cluster_api", "version"], ["kind", "version"], ["kind", "node_image"],
    ["packer", "version"], ["cloud_hypervisor", "version"]]

/-- `LOCK_SCHEMA_VERSION`. -/
def lockSchemaVersion : ℤ := 2

/-- The value under nested keys. -/
def fieldAt : List String → Value → Option Value
  | [], v => some v
  | key :: keys, v => v.asDict.bind fun items => (items.lookup key).bind (fieldAt keys)

/-- One round of the loop over `REQUIRED_PATHS`. -/
def checkRequired (data : Value) (keys : List String) : Except Exc Unit :=
  match fieldAt keys data with
  | none => valueError ("missing lock field: " ++ String.intercalate "." keys)
  | some (.str s) =>
    if Py.strip s = "" then
      valueError ("lock field must be a non-empty string: " ++ String.intercalate "." keys)
    else .ok ()
  | some _ => valueError ("lock field must be a non-empty string: " ++ String.intercalate "." keys)

/-! ### Mutable references -/

/-- A character that matches a lower-case ASCII letter when case is ignored: besides the two cases,
the dotless and the dotted capital i, and the long s. -/
def matchesLetter (letter c : Char) : Bool :=
  c == letter || c == letter.toUpper || (letter == 'i' && (c.toNat == 0x130 || c.toNat == 0x131)) ||
    (letter == 's' && c.toNat == 0x17f)

/-- The text after a word, read without regard to case. -/
def afterWord : List Char → List Char → Option (List Char)
  | [], cs => some cs
  | letter :: word, c :: cs => if matchesLetter letter c then afterWord word cs else none
  | _ :: _, [] => none

/-- The end of the text, also before a final newline. -/
def atEnd (cs : List Char) : Bool := cs == [] || cs == ['\n']

/-- `[/:@]`. -/
def isSeparator (c : Char) : Bool := c == '/' || c == ':' || c == '@'

/-- `(?:latest|main|master)(?:$|[/:@])` at the start of the text. -/
def mutableWordAt (cs : List Char) : Bool :=
  ["latest", "main", "master"].any fun word =>
    match afterWord word.toList cs with
    | some rest => atEnd rest || rest.head?.any isSeparator
    | none => false

/-- `MUTABLE_REFERENCE.search`. -/
def isMutableReference (s : String) : Bool :=
  mutableWordAt s.toList || s.toList.tails.any fun cs =>
    match cs with
    | c :: rest => isSeparator c && mutableWordAt rest
    | [] => false

mutual

/-- `walk_mutable`. -/
def walkMutable : Value → String → Except Exc Unit
  | .scalar (.str s), location =>
    if isMutableReference s then
      valueError ("mutable reference at " ++ (if location = "" then "<root>" else location) ++ ": " ++
        s)
    else .ok ()
  | .scalar _, _ => .ok ()
  | .list xs, location => walkMutableList xs location 0
  | .dict items, location => walkMutableItems items location

/-- The elements of a list. -/
def walkMutableList : List Value → String → ℕ → Except Exc Unit
  | [], _, _ => .ok ()
  | x :: xs, location, index =>
    (walkMutable x (location ++ "[" ++ toString index ++ "]")).bind fun _ =>
      walkMutableList xs location (index + 1)

/-- The values of a dictionary. -/
def walkMutableItems : Items → String → Except Exc Unit
  | [], _ => .ok ()
  | (k, v) :: items, location =>
    (walkMutable v (if location = "" then k.text else location ++ "." ++ k.text)).bind fun _ =>
      walkMutableItems items location

end

/-! ### Pinned images -/

/-- `[0-9a-f]`. -/
def isLowerHex (c : Char) : Bool := c.isDigit || ('a' ≤ c && c ≤ 'f')

/-- The text between the name of an image and its digest. -/
def digestMark : String := "@sha256:"

/-- `@sha256:[0-9a-f]{64}$` at the start of the text. -/
def digestAt (cs : List Char) : Bool :=
  match digestMark.toList.isPrefixOf? cs with
  | some rest =>
    decide (64 ≤ rest.length) && (rest.take 64).all isLowerHex && atEnd (rest.drop 64)
  | none => false

/-- `DIGEST_REFERENCE.search`. -/
def isPinned (s : String) : Bool := s.toList.tails.any digestAt

/-- `re.fullmatch(r"[0-9a-f]{n}", s)`. -/
def isHex (n : ℕ) (s : String) : Bool := decide (s.toList.length = n) && s.toList.all isLowerHex

/-- The node image of kind; the required fields made it a string. -/
def checkNodeImage (lock : Items) : Except Exc Unit :=
  match fieldAt ["kind", "node_image"] (.dict lock) with
  | some (.str image) =>
    if isPinned image then .ok ()
    else valueError "kind.node_image must be pinned by a sha256 digest"
  | _ => typeError "expected string or bytes-like object"

/-- The image of the provider. -/
def checkProviderImage (provider : Items) : Except Exc Unit :=
  match (provider.get "image").asDict with
  | none => typeError "cluster_api_hypervisor.image must be a mapping"
  | some image =>
    match (image.get "reference").asStr with
    | none => typeError "cluster_api_hypervisor.image.reference must be a string"
    | some reference =>
      if isPinned reference then .ok ()
      else
        valueError "cluster_api_hypervisor.image.reference must be pinned by a sha256 digest"

/-- The block of checks on `cluster_api_hypervisor`. -/
def checkProvider (lock : Items) : Except Exc Unit :=
  match lock.get "cluster_api_hypervisor" with
  | .none => valueError "missing lock field: cluster_api_hypervisor"
  | value =>
    match value.asDict with
    | none => typeError "cluster_api_hypervisor must be a mapping"
    | some provider =>
      if ¬ (provider.get "version").eq (.str "v0.3.17") then
        valueError "cluster_api_hypervisor.version must be v0.3.17"
      else if ¬ (provider.get "commit").asStr.any (isHex 40) then
        valueError "cluster_api_hypervisor.commit must be a full immutable Git commit"
      else
        match (provider.get "source").asDict with
        | none => typeError "cluster_api_hypervisor.source must be a mapping"
        | some source =>
          if (source.get "url").asStr.isNone ∨ (source.get "sha256").asStr.isNone then
            typeError "cluster_api_hypervisor.source requires string url and sha256"
          else checkProviderImage provider

/-- `lock.GROUP[INDEX]`. -/
def location (group : String) (index : ℕ) : String :=
  "lock." ++ group ++ "[" ++ toString index ++ "]"

/-- The checks on one entry of `oci_images`. -/
def checkImage (index : ℕ) (entry : Value) : Except Exc Unit :=
  match entry.asDict with
  | none => typeError (location "oci_images" index ++ " must be a mapping")
  | some image =>
    match (image.get "reference").asStr with
    | none => typeError (location "oci_images" index ++ ".reference must be a string")
    | some reference =>
      if ¬ isPinned reference then
        valueError (location "oci_images" index ++ ".reference must be pinned by a sha256 digest")
      else if ¬ (image.get "platform").eq (.str "linux/amd64") then
        valueError (location "oci_images" index ++ ".platform must be linux/amd64")
      else .ok ()

/-- The loop over `oci_images`. -/
def checkImages (lock : Items) : Except Exc Unit :=
  match (lock.get "oci_images").asList with
  | none => typeError "lock.oci_images must be a list"
  | some images =>
    (Py.traverse (fun entry => checkImage entry.2 entry.1) images.zipIdx).map fun _ => ()

/-! ### Artifacts -/

/-- What `validate_artifacts` has collected. -/
structure ArtifactScan where
  seenIds : List String
  seenPaths : List String
  result : List (String × Items)

/-- `component` and `version`, where given, are non-empty strings. -/
def checkOptionalField (place : String) (artifact : Items) (field : String) : Except Exc Unit :=
  match artifact.lookup field with
  | none => .ok ()
  | some value =>
    if value.asStr.any fun s => Py.strip s ≠ "" then .ok ()
    else valueError (place ++ "." ++ field ++ " must be a non-empty string")

section Urls

variable (urlparse : UrlParse)

/-- The URL of an artifact must use HTTPS. -/
def checkUrl (place : String) (artifact : Items) : Except Exc Unit :=
  match (artifact.get "url").asStr with
  | none => valueError (place ++ ".url must use HTTPS")
  | some url =>
    (urlparse url).bind fun (scheme, netloc) =>
      if scheme ≠ "https" ∨ netloc = "" then valueError (place ++ ".url must use HTTPS") else .ok ()

/-- One round of the loop of `validate_artifacts`. -/
def checkArtifact (place : String) (scan : ArtifactScan) (entry : Value) :
    Except Exc ArtifactScan :=
  match entry.asDict with
  | none => typeError (place ++ " must be a mapping")
  | some artifact =>
    match (artifact.get "id").asStr with
    | none => valueError (place ++ ".id must be a non-empty string")
    | some id =>
      if Py.strip id = "" then valueError (place ++ ".id must be a non-empty string")
      else if id ∈ scan.seenIds then valueError ("duplicate artifact id: " ++ id)
      else
        match (artifact.get "cache_path").asStr with
        | none => valueError (place ++ ".cache_path must be a non-empty relative path")
        | some path =>
          if Py.strip path = "" then
            valueError (place ++ ".cache_path must be a non-empty relative path")
          else if Py.isAbsolute path ∨ ".." ∈ Py.pathParts path then
            valueError (place ++ ".cache_path must be a relative path and stay inside cache")
          else if path ∈ scan.seenPaths then
            valueError ("duplicate artifact cache path: " ++ path)
          else if ¬ (artifact.get "sha256").asStr.any (isHex 64) then
            valueError (place ++ ".sha256 must be a lowercase hexadecimal SHA-256 digest")
          else
            (checkUrl urlparse place artifact).bind fun _ =>
            (checkOptionalField place artifact "component").bind fun _ =>
            (checkOptionalField place artifact "version").bind fun _ =>
            .ok ⟨id :: scan.seenIds, path :: scan.seenPaths, scan.result ++ [(id, artifact)]⟩

/-- The entries of one group. -/
def checkGroup (group : String) : ArtifactScan → ℕ → List Value → Except Exc ArtifactScan
  | scan, _, [] => .ok scan
  | scan, index, entry :: entries =>
    (checkArtifact urlparse (location group index) scan entry).bind fun scan' =>
      checkGroup group scan' (index + 1) entries

/-- `validate_artifacts`: the artifacts by id. -/
def validateArtifacts (lock : Items) : Except Exc (List (String × Items)) :=
  match (lock.get "artifacts").asList with
  | none => typeError "lock.artifacts must be a list"
  | some artifacts =>
    (checkGroup urlparse "artifacts" ⟨[], [], []⟩ 0 artifacts).bind fun scan =>
    match ((lock.lookup "guest_upgrade_artifacts").getD (.list [])).asList with
    | none => typeError "lock.guest_upgrade_artifacts must be a list"
    | some guests =>
      (checkGroup urlparse "guest_upgrade_artifacts" scan 0 guests).map ArtifactScan.result

end Urls

/-! ### The upgrade matrix -/

/-- The digits of the minor in `v1\.(\d+)\.(\d+)`. -/
def matchVersion (cs : List Char) : Option (List Char) :=
  match "v1.".toList.isPrefixOf? cs with
  | none => none
  | some rest =>
    let minor := rest.takeWhile Py.isDigit
    match rest.dropWhile Py.isDigit with
    | '.' :: patch =>
      if minor ≠ [] ∧ patch ≠ [] ∧ patch.all Py.isDigit then some minor else none
    | _ => none

/-- `KUBERNETES_VERSION.fullmatch` with its minor as a number. -/
def kubernetesVersion (s : String) : Except Exc (Option ℕ) :=
  match matchVersion s.toList with
  | none => .ok none
  | some minor => (Py.intOfDigits minor).map some

/-- The fields of a stage that refer to artifacts, with the component each must have. -/
def expectedComponents : List (String × String) :=
  [("kubelet_artifact", "kubelet"), ("control_plane_artifact", "kubernetes-control-plane"),
    ("cri_o_artifact", "cri-o")]

/-- The minor and the text of a version field of a stage. -/
def stageVersion (place : String) (stage : Items) (field : String) : Except Exc (ℕ × String) :=
  let refused := valueError (place ++ "." ++ field ++ " must be a v1.<minor>.<patch> version")
  match (stage.get field).asStr with
  | none => refused
  | some value =>
    (kubernetesVersion value).bind fun minor =>
      match minor with
      | none => refused
      | some minor => .ok (minor, value)

/-- One reference of a stage: a locked artifact with the expected component and version. -/
def checkReference (artifacts : List (String × Items)) (place : String) (stage : Items)
    (kubernetes crio : String) (expected : String × String) : Except Exc Unit :=
  match (stage.get expected.1).asStr.bind fun id => List.lookup id artifacts with
  | none => valueError (place ++ "." ++ expected.1 ++ " must reference a locked artifact")
  | some artifact =>
    let version := if expected.1 = "cri_o_artifact" then crio else kubernetes
    if ¬ (artifact.get "component").eq (.str expected.2) ∨
        ¬ (artifact.get "version").eq (.str version) then
      valueError (place ++ "." ++ expected.1 ++ " must reference " ++ expected.2 ++ " " ++ version)
    else .ok ()

/-- The checks on one stage, which give its minor. -/
def checkStage (artifacts : List (String × Items)) (index : ℕ) (entry : Value) : Except Exc ℕ :=
  let place := location "kubernetes_upgrade_matrix" index
  match entry.asDict with
  | none => typeError (place ++ " must be a mapping")
  | some stage =>
    (stageVersion place stage "kubernetes").bind fun (minor, kubernetes) =>
    (stageVersion place stage "cri_o").bind fun (crioMinor, crio) =>
    if minor ≠ crioMinor then
      valueError (place ++ " Kubernetes and CRI-O versions must use the same minor")
    else
      (Py.traverse (checkReference artifacts place stage kubernetes crio) expectedComponents).map
        fun _ => minor

/-- `validate_upgrade_matrix`. -/
def validateUpgradeMatrix (lock : Items) (artifacts : List (String × Items)) : Except Exc Unit :=
  match (lock.get "kubernetes_upgrade_matrix").asList with
  | none | some [] => valueError "lock.kubernetes_upgrade_matrix must be a non-empty list"
  | some (first :: rest) =>
    (Py.traverse (fun entry => checkStage artifacts entry.2 entry.1) (first :: rest).zipIdx).bind
      fun minors =>
    match fieldAt ["kubernetes", "version"] (.dict lock) with
    | some (.str target) =>
      (kubernetesVersion target).bind fun targetMinor =>
      match targetMinor with
      | none => valueError "kubernetes.version must be a v1.<minor>.<patch> version"
      | some targetMinor =>
        let firstMinor := minors.headD 0
        if minors ≠ List.range' firstMinor (targetMinor + 1 - firstMinor) then
          valueError
            "lock.kubernetes_upgrade_matrix must include each Kubernetes minor exactly once"
        else
          let last := (first :: rest).getLast (List.cons_ne_nil _ _)
          if ¬ (last.asDict.map (·.get "kubernetes")).any (·.eq (.str target)) ∨
              ¬ (last.asDict.map (·.get "cri_o")).any fun crio =>
                (fieldAt ["kubernetes", "cri_o"] (.dict lock)).any crio.eq then
            valueError "last upgrade matrix stage must match the locked target versions"
          else .ok ()
    | _ => typeError "expected string or bytes-like object"

/-- `load_lock`, after the document is read. -/
def loadLock (urlparse : UrlParse) (data : Value) : Except Exc Items :=
  match data.asDict with
  | none => typeError "lock must contain a mapping"
  | some lock =>
    (Py.traverse (checkRequired data) requiredPaths).bind fun _ =>
    (walkMutable data "").bind fun _ =>
    if ¬ (lock.get "schema_version").eq (.int lockSchemaVersion) then
      valueError "lock.schema_version 2 is required"
    else
      (checkNodeImage lock).bind fun _ =>
      (checkProvider lock).bind fun _ =>
      (checkImages lock).bind fun _ =>
      (validateArtifacts urlparse lock).bind fun artifacts =>
      (validateUpgradeMatrix lock artifacts).bind fun _ => .ok lock

/-! ### What an accepted lock satisfies -/

/-- The four strings of an artifact. -/
structure Artifact where
  id : String
  cachePath : String
  sha256 : String
  url : String
  deriving DecidableEq

section Accepted

variable {urlparse : UrlParse}

/-- What the checks on one entry established. -/
structure ValidArtifact (urlparse : UrlParse) (entry : Items) (a : Artifact) : Prop where
  id_eq : entry.get "id" = .str a.id
  id_strip : Py.strip a.id ≠ ""
  path_eq : entry.get "cache_path" = .str a.cachePath
  path_strip : Py.strip a.cachePath ≠ ""
  path_relative : Py.isAbsolute a.cachePath = false
  path_inside : ".." ∉ Py.pathParts a.cachePath
  sha256_eq : entry.get "sha256" = .str a.sha256
  sha256_hex : isHex 64 a.sha256 = true
  url_eq : entry.get "url" = .str a.url
  url_https : ∃ netloc, urlparse a.url = .ok ("https", netloc)

theorem exists_map_eq {α β : Type*} {f : β → α} {P : β → Prop} {xs : List α}
    (h : ∀ x ∈ xs, ∃ y, x = f y ∧ P y) : ∃ ys : List β, xs = ys.map f ∧ ∀ y ∈ ys, P y := by
  induction xs with
  | nil => exact ⟨[], rfl, by simp⟩
  | cons x xs ih =>
    obtain ⟨y, rfl, hy⟩ := h x List.mem_cons_self
    obtain ⟨ys, rfl, hys⟩ := ih fun x' hx' => h x' (List.mem_cons_of_mem _ hx')
    exact ⟨y :: ys, rfl, List.forall_mem_cons.2 ⟨hy, hys⟩⟩

theorem any_eq_true_iff {α : Type*} {o : Option α} {p : α → Bool} :
    o.any p = true ↔ ∃ a, o = some a ∧ p a = true := by
  cases o <;> simp

theorem checkUrl_eq_ok {place : String} {entry : Items}
    (h : checkUrl urlparse place entry = .ok ()) :
    ∃ url netloc, entry.get "url" = .str url ∧ urlparse url = .ok ("https", netloc) := by
  unfold checkUrl at h
  split at h
  · cases h
  · rename_i url hurl
    obtain ⟨⟨scheme, netloc⟩, hparse, h⟩ := Py.bind_eq_ok.1 h
    simp only [valueError] at h
    split_ifs at h with hs
    obtain ⟨rfl, -⟩ : scheme = "https" ∧ netloc ≠ "" := by simpa [not_or] using hs
    exact ⟨url, netloc, Value.asStr_eq_some.1 hurl, hparse⟩

theorem checkArtifact_eq_ok {place : String} {scan scan' : ArtifactScan} {entry : Value}
    (h : checkArtifact urlparse place scan entry = .ok scan') :
    ∃ (items : Items) (a : Artifact), entry = .dict items ∧ ValidArtifact urlparse items a ∧
      a.id ∉ scan.seenIds ∧ a.cachePath ∉ scan.seenPaths ∧
      scan' = ⟨a.id :: scan.seenIds, a.cachePath :: scan.seenPaths,
        scan.result ++ [(a.id, items)]⟩ := by
  unfold checkArtifact at h
  split at h
  · cases h
  rename_i items hitems
  split at h
  · cases h
  rename_i id hid
  simp only [valueError, Py.ite_error_eq_ok] at h
  obtain ⟨h₁, h₂, h⟩ := h
  split at h
  · cases h
  rename_i path hpath
  simp only [Py.ite_error_eq_ok] at h
  obtain ⟨h₃, h₄, h₅, h₆, h⟩ := h
  obtain ⟨_, hurl, h⟩ := Py.bind_eq_ok.1 h
  obtain ⟨-, -, h⟩ := Py.bind_eq_ok.1 h
  obtain ⟨-, -, h⟩ := Py.bind_eq_ok.1 h
  obtain ⟨url, netloc, hu, hparse⟩ := checkUrl_eq_ok hurl
  obtain ⟨sha, hsha, hhex⟩ := any_eq_true_iff.1 (not_not.1 h₆)
  rw [not_or] at h₄
  exact ⟨items, ⟨id, path, sha, url⟩, Value.asDict_eq_some.1 hitems,
    { id_eq := Value.asStr_eq_some.1 hid
      id_strip := h₁
      path_eq := Value.asStr_eq_some.1 hpath
      path_strip := h₃
      path_relative := by simpa using h₄.1
      path_inside := h₄.2
      sha256_eq := Value.asStr_eq_some.1 hsha
      sha256_hex := hhex
      url_eq := hu
      url_https := ⟨netloc, hparse⟩ }, h₂, h₅, (Except.ok.inj h).symm⟩

/-- A checked group: its entries are valid, and its ids and paths are new and distinct. -/
theorem checkGroup_eq_ok {group : String} {scan scan' : ArtifactScan} {index : ℕ}
    {entries : List Value} (h : checkGroup urlparse group scan index entries = .ok scan') :
    ∃ found : List (Items × Artifact), entries = found.map (fun f => .dict f.1) ∧
      (∀ f ∈ found, ValidArtifact urlparse f.1 f.2) ∧
      scan'.result = scan.result ++ found.map (fun f => (f.2.id, f.1)) ∧
      scan'.seenIds = (found.map (·.2.id)).reverse ++ scan.seenIds ∧
      scan'.seenPaths = (found.map (·.2.cachePath)).reverse ++ scan.seenPaths ∧
      (scan.seenIds.Nodup → scan'.seenIds.Nodup) ∧
      (scan.seenPaths.Nodup → scan'.seenPaths.Nodup) := by
  induction entries generalizing scan index with
  | nil =>
    cases h
    exact ⟨[], by simp⟩
  | cons entry entries ih =>
    obtain ⟨mid, hentry, hrest⟩ := Py.bind_eq_ok.1 h
    obtain ⟨items, a, rfl, hvalid, hid, hpath, rfl⟩ := checkArtifact_eq_ok hentry
    obtain ⟨found, rfl, hall, hresult, hids, hpaths, hnid, hnpath⟩ := ih hrest
    refine ⟨(items, a) :: found, by simp, ?_, ?_, ?_, ?_, ?_, ?_⟩
    · rintro f hf
      rcases List.mem_cons.1 hf with rfl | hf
      · exact hvalid
      · exact hall f hf
    · rw [hresult, List.append_assoc]
      rfl
    · rw [hids]
      simp
    · rw [hpaths]
      simp
    · exact fun hn => hnid (List.nodup_cons.2 ⟨hid, hn⟩)
    · exact fun hn => hnpath (List.nodup_cons.2 ⟨hpath, hn⟩)

/-- What the checks on one stage established: both versions have the stage's minor, and each
reference names an artifact of the expected component and version. -/
structure ValidStage (artifacts : List (String × Items)) (stage : Items) (minor : ℕ) : Prop where
  versions : ∃ kubernetes crio, stage.get "kubernetes" = .str kubernetes ∧
    kubernetesVersion kubernetes = .ok (some minor) ∧ stage.get "cri_o" = .str crio ∧
    kubernetesVersion crio = .ok (some minor) ∧
    ∀ expected ∈ expectedComponents, ∃ id artifact, stage.get expected.1 = .str id ∧
      List.lookup id artifacts = some artifact ∧ artifact.get "component" = .str expected.2 ∧
      artifact.get "version" = .str (if expected.1 = "cri_o_artifact" then crio else kubernetes)

theorem stageVersion_eq_ok {place : String} {stage : Items} {field : String} {minor : ℕ}
    {value : String} (h : stageVersion place stage field = .ok (minor, value)) :
    stage.get field = .str value ∧ kubernetesVersion value = .ok (some minor) := by
  unfold stageVersion at h
  split at h
  · cases h
  rename_i text htext
  obtain ⟨found, hfound, h⟩ := Py.bind_eq_ok.1 h
  split at h
  · cases h
  rename_i m
  cases h
  exact ⟨Value.asStr_eq_some.1 htext, hfound⟩

theorem checkReference_eq_ok {artifacts : List (String × Items)} {place : String} {stage : Items}
    {kubernetes crio : String} {expected : String × String} {u : Unit}
    (h : checkReference artifacts place stage kubernetes crio expected = .ok u) :
    ∃ id artifact, stage.get expected.1 = .str id ∧ List.lookup id artifacts = some artifact ∧
      artifact.get "component" = .str expected.2 ∧
      artifact.get "version" = .str (if expected.1 = "cri_o_artifact" then crio else kubernetes) := by
  unfold checkReference at h
  split at h
  · cases h
  rename_i artifact hlookup
  simp only [valueError, Py.ite_error_eq_ok, not_or, not_not, Value.eq_str_iff] at h
  obtain ⟨id, hid, hfound⟩ := Option.bind_eq_some_iff.1 hlookup
  exact ⟨id, artifact, Value.asStr_eq_some.1 hid, hfound, h.1.1, h.1.2⟩

theorem checkStage_eq_ok {artifacts : List (String × Items)} {index : ℕ} {entry : Value} {minor : ℕ}
    (h : checkStage artifacts index entry = .ok minor) :
    ∃ stage, entry = .dict stage ∧ ValidStage artifacts stage minor := by
  unfold checkStage at h
  simp only at h
  split at h
  · cases h
  rename_i stage hstage
  obtain ⟨⟨m, kubernetes⟩, hk, h⟩ := Py.bind_eq_ok.1 h
  obtain ⟨⟨m', crio⟩, hc, h⟩ := Py.bind_eq_ok.1 h
  simp only [valueError, Py.ite_error_eq_ok, ne_eq, not_not] at h
  obtain ⟨rfl, h⟩ := h
  obtain ⟨us, hrefs, rfl⟩ := Py.map_eq_ok.1 h
  obtain ⟨hk, hkv⟩ := stageVersion_eq_ok hk
  obtain ⟨hc, hcv⟩ := stageVersion_eq_ok hc
  refine ⟨stage, Value.asDict_eq_some.1 hstage, ⟨kubernetes, crio, hk, hkv, hc, hcv, ?_⟩⟩
  intro expected hexp
  obtain ⟨u, hu⟩ := Py.traverse_isOk.1 ⟨us, hrefs⟩ expected hexp
  exact checkReference_eq_ok hu

/-- The upgrade matrix of an accepted lock: its stages with their minors, and the target. -/
structure ValidMatrix (lock : Items) (artifacts : List (String × Items)) (stages : List Items)
    (minors : List ℕ) (target : String) : Prop where
  matrix_eq : lock.get "kubernetes_upgrade_matrix" = .list (stages.map .dict)
  stages_valid : List.Forall₂ (ValidStage artifacts) stages minors
  target_eq : fieldAt ["kubernetes", "version"] (.dict lock) = some (.str target)
  minors_eq : ∃ first targetMinor, kubernetesVersion target = .ok (some targetMinor) ∧
    first ≤ targetMinor ∧ minors = List.range' first (targetMinor + 1 - first)
  last_kubernetes : stages.getLast?.map (·.get "kubernetes") = some (.str target)

theorem checkStages_eq_ok {artifacts : List (String × Items)} {entries : List (Value × ℕ)}
    {minors : List ℕ}
    (h : List.Forall₂ (fun entry minor => checkStage artifacts entry.2 entry.1 = .ok minor) entries
      minors) :
    ∃ stages : List Items, entries.map Prod.fst = stages.map .dict ∧
      List.Forall₂ (ValidStage artifacts) stages minors := by
  induction h with
  | nil => exact ⟨[], rfl, .nil⟩
  | cons hentry _ ih =>
    obtain ⟨stage, hstage, hvalid⟩ := checkStage_eq_ok hentry
    obtain ⟨stages, hstages, hall⟩ := ih
    exact ⟨stage :: stages, by simp [hstage, hstages], .cons hvalid hall⟩

theorem validateUpgradeMatrix_eq_ok {lock : Items} {artifacts : List (String × Items)} {u : Unit}
    (h : validateUpgradeMatrix lock artifacts = .ok u) :
    ∃ stages minors target, ValidMatrix lock artifacts stages minors target := by
  unfold validateUpgradeMatrix at h
  split at h
  · cases h
  · cases h
  rename_i first rest hmatrix
  obtain ⟨minors, hminors, h⟩ := Py.bind_eq_ok.1 h
  split at h
  swap
  · cases h
  rename_i target htarget
  obtain ⟨found, hfound, h⟩ := Py.bind_eq_ok.1 h
  split at h
  · cases h
  rename_i targetMinor
  simp only [valueError, Py.ite_error_eq_ok, ne_eq, not_not, not_or] at h
  obtain ⟨hrange, ⟨hlast, -⟩, -⟩ := h
  obtain ⟨stages, hstages, hall⟩ := checkStages_eq_ok (Py.traverse_eq_ok.1 hminors)
  rw [List.zipIdx_map_fst] at hstages
  have hmatrix' := Value.asList_eq_some.1 hmatrix
  -- a matrix that is not empty leaves no room for an empty range
  have hne : minors ≠ [] := by
    rintro rfl
    cases stages with
    | nil => cases hstages
    | cons => cases hall
  have hfirst : minors.headD 0 ≤ targetMinor := by
    by_contra hlt
    rw [show targetMinor + 1 - minors.headD 0 = 0 by omega] at hrange
    exact hne hrange
  refine ⟨stages, minors, target, hstages ▸ hmatrix', hall, htarget,
    ⟨_, targetMinor, hfound, hfirst, hrange⟩, ?_⟩
  obtain ⟨value, hvalue, heq⟩ := any_eq_true_iff.1 hlast
  obtain ⟨items, hitems, rfl⟩ := Option.map_eq_some_iff.1 hvalue
  have hdict := Value.asDict_eq_some.1 hitems
  have hget : (stages.map Value.dict).getLast? = some (.dict items) := by
    rw [← hstages, List.getLast?_eq_some_getLast (List.cons_ne_nil _ _), hdict]
  rw [List.getLast?_map] at hget
  obtain ⟨stage, hstage, hst⟩ := Option.map_eq_some_iff.1 hget
  cases hst
  rw [hstage, Option.map_some, Value.eq_str_iff.1 heq]

/-- The two groups of a lock whose artifacts were validated. -/
structure ValidGroups (urlparse : UrlParse) (lock : Items) (normal guests : List (Items × Artifact)) :
    Prop where
  normal_eq : lock.get "artifacts" = .list (normal.map fun f => .dict f.1)
  guests_eq : (lock.lookup "guest_upgrade_artifacts").getD (.list []) =
    .list (guests.map fun f => .dict f.1)
  valid : ∀ f ∈ normal ++ guests, ValidArtifact urlparse f.1 f.2
  ids_nodup : ((normal ++ guests).map (·.2.id)).Nodup
  paths_nodup : ((normal ++ guests).map (·.2.cachePath)).Nodup

/-- What `validate_artifacts` returns on a lock it accepts. -/
theorem validateArtifacts_eq_ok {lock : Items} {result : List (String × Items)}
    (h : validateArtifacts urlparse lock = .ok result) :
    ∃ normal guests, ValidGroups urlparse lock normal guests ∧
      result = (normal ++ guests).map fun f => (f.2.id, f.1) := by
  unfold validateArtifacts at h
  split at h
  · cases h
  rename_i artifacts hartifacts
  obtain ⟨scan, hscan, h⟩ := Py.bind_eq_ok.1 h
  split at h
  · cases h
  rename_i guests hguests
  obtain ⟨scan', hscan', rfl⟩ := Py.map_eq_ok.1 h
  obtain ⟨found, rfl, hall, hresult, hids, hpaths, hnid, hnpath⟩ := checkGroup_eq_ok hscan
  obtain ⟨found', rfl, hall', hresult', hids', hpaths', hnid', hnpath'⟩ := checkGroup_eq_ok hscan'
  have hnodup := hnid' (hnid List.nodup_nil)
  have hnodup' := hnpath' (hnpath List.nodup_nil)
  rw [hids', hids] at hnodup
  rw [hpaths', hpaths] at hnodup'
  refine ⟨found, found', ⟨Value.asList_eq_some.1 hartifacts, Value.asList_eq_some.1 hguests, ?_, ?_,
    ?_⟩, ?_⟩
  · intro f hf
    rcases List.mem_append.1 hf with hf | hf
    · exact hall f hf
    · exact hall' f hf
  · rw [← List.nodup_reverse, List.map_append, List.reverse_append]
    simpa using hnodup
  · rw [← List.nodup_reverse, List.map_append, List.reverse_append]
    simpa using hnodup'
  · rw [hresult', hresult]
    simp

/-- The entries of `oci_images` of an accepted lock are pinned, for one platform. -/
theorem checkImages_eq_ok {lock : Items} {u : Unit} (h : checkImages lock = .ok u) :
    ∃ images : List Items, lock.get "oci_images" = .list (images.map .dict) ∧
      ∀ image ∈ images, (∃ reference, image.get "reference" = .str reference ∧
        isPinned reference = true) ∧ image.get "platform" = .str "linux/amd64" := by
  unfold checkImages at h
  split at h
  · cases h
  rename_i entries hentries
  obtain ⟨us, hus, -⟩ := Py.map_eq_ok.1 h
  have hall : ∀ entry ∈ entries, ∃ image : Items, entry = .dict image ∧
      (∃ reference, image.get "reference" = .str reference ∧ isPinned reference = true) ∧
      image.get "platform" = .str "linux/amd64" := by
    intro entry hentry
    rw [← List.zipIdx_map_fst 0 entries] at hentry
    obtain ⟨p, hp, rfl⟩ := List.mem_map.1 hentry
    obtain ⟨u, hu⟩ := Py.traverse_isOk.1 ⟨us, hus⟩ p hp
    unfold checkImage at hu
    split at hu
    · cases hu
    rename_i image himage
    split at hu
    · cases hu
    rename_i reference href
    simp only [valueError, Py.ite_error_eq_ok, not_not, Value.eq_str_iff] at hu
    exact ⟨image, Value.asDict_eq_some.1 himage,
      ⟨reference, Value.asStr_eq_some.1 href, hu.1⟩, hu.2.1⟩
  obtain ⟨images, rfl, himages⟩ := exists_map_eq hall
  exact ⟨images, Value.asList_eq_some.1 hentries, himages⟩

/-- **What `load_lock` established.** -/
theorem loadLock_eq_ok {data : Value} {lock : Items} (h : loadLock urlparse data = .ok lock) :
    data = .dict lock ∧ checkImages lock = .ok () ∧
      ∃ artifacts, validateArtifacts urlparse lock = .ok artifacts ∧
        validateUpgradeMatrix lock artifacts = .ok () := by
  unfold loadLock at h
  split at h
  · cases h
  rename_i items hitems
  obtain ⟨_, -, h⟩ := Py.bind_eq_ok.1 h
  obtain ⟨_, -, h⟩ := Py.bind_eq_ok.1 h
  simp only [valueError, Py.ite_error_eq_ok] at h
  obtain ⟨_, -, h⟩ := Py.bind_eq_ok.1 h.2
  obtain ⟨_, -, h⟩ := Py.bind_eq_ok.1 h
  obtain ⟨_, himages, h⟩ := Py.bind_eq_ok.1 h
  obtain ⟨artifacts, hartifacts, h⟩ := Py.bind_eq_ok.1 h
  obtain ⟨_, hmatrix, h⟩ := Py.bind_eq_ok.1 h
  cases h
  exact ⟨Value.asDict_eq_some.1 hitems, himages, artifacts, hartifacts, hmatrix⟩

end Accepted

end Artifacts
