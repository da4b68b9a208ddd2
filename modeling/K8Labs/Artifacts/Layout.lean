import K8Labs.Artifacts.Inventory
import K8Labs.Python.FileSystem
import K8Labs.Python.Json
import K8Labs.Python.Sha256

/-!
# Validating an OCI image layout

`validate_oci_layout` of `scripts/cache.py` with its helpers `_read_json` and `_validate_blob`, as
functions of a file system: the layout marker, the index with its one manifest, the manifest with
its config and layers, and the platform of the config.

A layout without problems is a `ValidLayout` (`validateOciLayout_eq_nil_iff`).  The function does
not always return: `_read_json` catches decoding errors of JSON and of the operating system only,
and `layers` is iterated whatever it is (`validateOciLayout_isOk_iff`).
-/

namespace Artifacts

open Py (Exc ExcClass Value Items Path FileSystem typeError)

/-! ### Reading -/

/-- The text of a file opened with `encoding="utf-8"`. -/
def decodeText (bytes : ByteArray) : Except Exc (List Char) :=
  match String.fromUTF8? bytes with
  | some s => .ok (Py.universalNewlines s.toList)
  | none => .error ⟨.unicodeDecodeError, "'utf-8' codec can't decode the bytes"⟩

/-- `json.loads(path.read_text(encoding="utf-8"))`, on the bytes of the file. -/
def loadDocument (depth : ℕ) (bytes : ByteArray) : Except Exc Value :=
  (decodeText bytes).bind (Py.Json.loads depth)

/-- `_read_json`: the value and the problem. -/
def readJson (depth : ℕ) (fs : FileSystem) (path : Path) (description : String) :
    Except Exc (Value × List String) :=
  match (fs.read path).bind (loadDocument depth) with
  | .ok v => .ok (v, [])
  | .error e =>
    if e.caughtBy [.jsonDecodeError, .osError] then
      .ok (.none, ["invalid " ++ description ++ ": " ++ e.message])
    else .error e

/-! ### Blobs -/

/-- The digits after `sha256:`, when they are a digest. -/
def digestDigits (digest : Value) : Option String :=
  digest.asStr.bind fun s =>
    ("sha256:".toList.isPrefixOf? s.toList).bind fun digits =>
      if isSha256 (String.ofList digits) then some (String.ofList digits) else none

/-- The path of a blob, in a layout. -/
def blobPath (digits : String) : Path := ["blobs", "sha256", digits]

/-- `_validate_blob`: the path and the problem. -/
def validateBlob (fs : FileSystem) (root : Path) (digest : Value) (description : String) :
    Option Path × List String :=
  match digestDigits digest with
  | none => (none, ["invalid OCI digest for " ++ description ++ ": " ++ digest.repr])
  | some digits =>
    match fs.fileAt (root ++ blobPath digits) with
    | none => (none, ["missing OCI blob for " ++ description ++ ": " ++ digest.text])
    | some bytes =>
      if Py.sha256 bytes ≠ digits then
        (none, ["checksum mismatch for OCI blob " ++ description ++ ": " ++ digest.text])
      else (some (root ++ blobPath digits), [])

/-! ### The layout -/

/-- The elements that a `for` loop goes through. -/
def iterate : Value → Except Exc (List Value)
  | .list xs => .ok xs
  | .dict items => .ok (items.map fun item => .scalar item.1)
  | .scalar (.str s) => .ok (s.toList.map fun c => .str c.toString)
  | _ => typeError "object is not iterable"

/-- The loop over the layers. -/
def layerProblems (fs : FileSystem) (directory : Path) (id : String) (layers : List Value) :
    List String :=
  layers.zipIdx.flatMap fun (layer, index) =>
    match layer.asDict with
    | none => ["invalid OCI layer descriptor " ++ toString index ++ " for " ++ id]
    | some layer =>
      (validateBlob fs directory (layer.get "digest")
        ("layer " ++ toString index ++ " for " ++ id)).2

/-- `os/architecture` of a config. -/
def platformText (config : Items) : String :=
  (config.get "os").text ++ "/" ++ (config.get "architecture").text

/-- The check of the config, after its blob. -/
def validateConfig (depth : ℕ) (fs : FileSystem) (item : OciImage) (path : Path)
    (problems : List String) : Except Exc (List String) :=
  (readJson depth fs path ("OCI config for " ++ item.id)).bind fun (data, more) =>
  match data.asDict with
  | none => .ok (problems ++ more)
  | some config =>
    if platformText config ≠ item.platform then
      .ok (problems ++ more ++ ["OCI platform mismatch for " ++ item.id ++ ": got " ++
        platformText config ++ ", want " ++ item.platform])
    else .ok (problems ++ more)

/-- The checks of the manifest, after its blob. -/
def validateManifest (depth : ℕ) (fs : FileSystem) (item : OciImage) (directory path : Path)
    (problems : List String) : Except Exc (List String) :=
  (readJson depth fs path ("OCI manifest for " ++ item.id)).bind fun (manifest, more) =>
  match manifest.asDict with
  | none => .ok (problems ++ more)
  | some manifest =>
    match (manifest.get "config").asDict with
    | none =>
      .ok (problems ++ more ++ ["OCI manifest for " ++ item.id ++ " has no config descriptor"])
    | some config =>
      let (configPath, configProblems) :=
        validateBlob fs directory (config.get "digest") ("config " ++ item.id)
      (iterate ((manifest.lookup "layers").getD (.list []))).bind fun layers =>
      let problems := problems ++ more ++ configProblems ++ layerProblems fs directory item.id layers
      match configPath with
      | none => .ok problems
      | some configPath => validateConfig depth fs item configPath problems

/-- The checks of the one descriptor of the index. -/
def validateDescriptor (depth : ℕ) (fs : FileSystem) (item : OciImage) (directory : Path)
    (descriptor : Items) (problems : List String) : Except Exc (List String) :=
  let digest := descriptor.get "digest"
  let mismatch :=
    if digest.eq (.str item.manifestDigest) then []
    else ["OCI manifest digest mismatch for " ++ item.id ++ ": got " ++ digest.repr ++ ", want " ++
      item.manifestDigest]
  let (path, more) := validateBlob fs directory digest ("manifest " ++ item.id)
  match path with
  | none => .ok (problems ++ mismatch ++ more)
  | some path => validateManifest depth fs item directory path (problems ++ mismatch ++ more)

/-- The content of a layout marker. -/
def layoutMarker : Value := .dict [(.str "imageLayoutVersion", .str "1.0.0")]

/-- `validate_oci_layout`. -/
def validateOciLayout (depth : ℕ) (fs : FileSystem) (item : OciImage) (directory : Path) :
    Except Exc (List String) :=
  (readJson depth fs (directory ++ ["oci-layout"]) ("OCI layout marker for " ++ item.id)).bind
    fun (layout, problems) =>
  let marker :=
    if layout.eq layoutMarker then [] else ["invalid OCI layout marker for " ++ item.id]
  (readJson depth fs (directory ++ ["index.json"]) ("OCI index for " ++ item.id)).bind
    fun (index, more) =>
  let problems := problems ++ marker ++ more
  match index.asDict with
  | none => .ok problems
  | some index =>
    match index.get "manifests" with
    | .list [.dict descriptor] => validateDescriptor depth fs item directory descriptor problems
    | _ => .ok (problems ++ ["OCI index for " ++ item.id ++ " must contain exactly one manifest"])

/-! ### Layouts -/

section Contents

variable (depth : ℕ) (files : Path → Option ByteArray) (item : OciImage)

/-- A blob of a layout: its name is its digest. -/
def IsBlob (digest : Value) (bytes : ByteArray) : Prop :=
  ∃ digits, digestDigits digest = some digits ∧ files (blobPath digits) = some bytes ∧
    Py.sha256 bytes = digits

/-- The layers of a manifest are descriptors of blobs. -/
def LayersPresent (manifest : Items) : Prop :=
  ∃ layers : List Items, iterate ((manifest.lookup "layers").getD (.list [])) =
    .ok (layers.map .dict) ∧ ∀ layer ∈ layers, ∃ bytes, IsBlob files (layer.get "digest") bytes

/-- The layout marker says version 1.0.0. -/
def MarkerPresent : Prop :=
  ∃ bytes v, files ["oci-layout"] = some bytes ∧ loadDocument depth bytes = .ok v ∧
    v.eq layoutMarker = true

/-- A layout of the image: the marker, an index with one manifest, whose digest is the locked one,
the blobs of the manifest, its config and its layers, each stored under its digest, and a config for
the locked platform. -/
structure ValidLayout : Prop where
  marker : MarkerPresent depth files
  contents : ∃ (indexBytes manifestBytes configBytes : ByteArray)
      (index descriptor manifest config data : Items),
    files ["index.json"] = some indexBytes ∧ loadDocument depth indexBytes = .ok (.dict index) ∧
      index.get "manifests" = .list [.dict descriptor] ∧
      descriptor.get "digest" = .str item.manifestDigest ∧
      IsBlob files (.str item.manifestDigest) manifestBytes ∧
      loadDocument depth manifestBytes = .ok (.dict manifest) ∧
      manifest.get "config" = .dict config ∧ IsBlob files (config.get "digest") configBytes ∧
      LayersPresent files manifest ∧
      loadDocument depth configBytes = .ok (.dict data) ∧ platformText data = item.platform

/-- What is checked of a config. -/
def ConfigPasses (bytes : ByteArray) : Prop :=
  ∃ v, loadDocument depth bytes = .ok v ∧ ∀ data : Items, v = .dict data → platformText data = item.platform

/-- What is checked of a manifest. -/
def ManifestPasses (bytes : ByteArray) : Prop :=
  ∃ v, loadDocument depth bytes = .ok v ∧ ∀ manifest : Items, v = .dict manifest →
    ∃ (config : Items) (configBytes : ByteArray), manifest.get "config" = .dict config ∧
      IsBlob files (config.get "digest") configBytes ∧ LayersPresent files manifest ∧
      ConfigPasses depth item configBytes

/-- What is checked of a layout.  It says less than `ValidLayout`: a document that is no object ends
the checks. -/
def LayoutPasses : Prop :=
  MarkerPresent depth files ∧ ∃ indexBytes v, files ["index.json"] = some indexBytes ∧
    loadDocument depth indexBytes = .ok v ∧ ∀ index : Items, v = .dict index →
      ∃ (descriptor : Items) (manifestBytes : ByteArray), index.get "manifests" = .list [.dict descriptor] ∧
        descriptor.get "digest" = .str item.manifestDigest ∧
        IsBlob files (.str item.manifestDigest) manifestBytes ∧
        ManifestPasses depth files item manifestBytes

/-- The index, the manifest and the config are objects, where they are JSON at all. -/
structure ObjectDocuments : Prop where
  index : ∀ bytes v, files ["index.json"] = some bytes → loadDocument depth bytes = .ok v →
    ∃ index, v = .dict index
  manifest : ∀ bytes v, IsBlob files (.str item.manifestDigest) bytes →
    loadDocument depth bytes = .ok v → ∃ manifest : Items, v = .dict manifest ∧
      ∀ (config : Items) (configBytes : ByteArray) (w : Value), manifest.get "config" = .dict config →
        IsBlob files (config.get "digest") configBytes → loadDocument depth configBytes = .ok w →
        ∃ data, w = .dict data

end Contents

section Passes

variable {depth : ℕ} {files files' : Path → Option ByteArray} {item : OciImage}

theorem IsBlob.mono {digest : Value} {bytes : ByteArray} (h : IsBlob files digest bytes)
    (hblobs : ∀ digits b, files (blobPath digits) = some b → files' (blobPath digits) = some b) :
    IsBlob files' digest bytes := by
  obtain ⟨digits, hdigits, hfile, hsha⟩ := h
  exact ⟨digits, hdigits, hblobs _ _ hfile, hsha⟩

theorem IsBlob.unique {digest : Value} {bytes bytes' : ByteArray} (h : IsBlob files digest bytes)
    (h' : IsBlob files digest bytes') : bytes = bytes' := by
  obtain ⟨digits, hdigits, hfile, -⟩ := h
  obtain ⟨digits', hdigits', hfile', -⟩ := h'
  rw [hdigits] at hdigits'
  cases hdigits'
  rw [hfile] at hfile'
  exact Option.some.inj hfile'

/-- The checks of a layout depend on the files it is made of. -/
theorem LayoutPasses.mono (h : LayoutPasses depth files item)
    (hmarker : ∀ b, files ["oci-layout"] = some b → files' ["oci-layout"] = some b)
    (hindex : ∀ b, files ["index.json"] = some b → files' ["index.json"] = some b)
    (hblobs : ∀ digits b, files (blobPath digits) = some b → files' (blobPath digits) = some b) :
    LayoutPasses depth files' item := by
  obtain ⟨⟨bytes, w, hbytes, hw⟩, indexBytes, v, hfile, hload, hpass⟩ := h
  refine ⟨⟨bytes, w, hmarker _ hbytes, hw⟩, indexBytes, v, hindex _ hfile, hload, ?_⟩
  intro index hv
  obtain ⟨descriptor, manifestBytes, hmanifests, hdigest, hblob, m, hm, hmanifest⟩ := hpass index hv
  refine ⟨descriptor, manifestBytes, hmanifests, hdigest, hblob.mono hblobs, m, hm, ?_⟩
  intro manifest hmv
  obtain ⟨config, configBytes, hconfig, hconfigBlob, ⟨layers, hlayers, hall⟩, hdata⟩ :=
    hmanifest manifest hmv
  refine ⟨config, configBytes, hconfig, hconfigBlob.mono hblobs, ⟨layers, hlayers, ?_⟩, hdata⟩
  intro layer hlayer
  obtain ⟨b, hb⟩ := hall layer hlayer
  exact ⟨b, hb.mono hblobs⟩

/-- The checks of an image with the same digest and platform are the same. -/
theorem LayoutPasses.congr {item' : OciImage} (h : LayoutPasses depth files item)
    (hdigest : item'.manifestDigest = item.manifestDigest) (hplatform : item'.platform = item.platform) :
    LayoutPasses depth files item' := by
  unfold LayoutPasses ManifestPasses ConfigPasses at h ⊢
  rw [hdigest, hplatform]
  exact h

/-- A layout that passes is valid exactly when its documents are objects. -/
theorem LayoutPasses.valid_iff (h : LayoutPasses depth files item) :
    ValidLayout depth files item ↔ ObjectDocuments depth files item := by
  obtain ⟨hmarker, indexBytes, v, hfile, hload, hpass⟩ := h
  constructor
  · rintro ⟨-, indexBytes', manifestBytes, configBytes, index, descriptor, manifest, config, data,
      hfile', hload', -, -, hblob, hmanifest, hconfig, hconfigBlob, -, hdata, -⟩
    refine ⟨fun bytes w hbytes hw => ?_, fun bytes w hbytes hw => ?_⟩
    · obtain rfl : bytes = indexBytes' := Option.some.inj (hbytes.symm.trans hfile')
      exact ⟨index, Except.ok.inj (hw.symm.trans hload')⟩
    · obtain rfl := hbytes.unique hblob
      refine ⟨manifest, Except.ok.inj (hw.symm.trans hmanifest), ?_⟩
      intro config' configBytes' w' hconfig' hblob' hw'
      obtain rfl : config' = config := by
        rw [hconfig] at hconfig'
        cases hconfig'
        rfl
      obtain rfl := hblob'.unique hconfigBlob
      exact ⟨data, Except.ok.inj (hw'.symm.trans hdata)⟩
  · rintro ⟨hindex, hmanifests⟩
    obtain ⟨index, rfl⟩ := hindex indexBytes v hfile hload
    obtain ⟨descriptor, manifestBytes, hlist, hdigest, hblob, m, hm, hmanifest⟩ := hpass index rfl
    obtain ⟨manifest, rfl, hconfigs⟩ := hmanifests manifestBytes m hblob hm
    obtain ⟨config, configBytes, hconfig, hconfigBlob, hlayers, w, hw, hplatform⟩ :=
      hmanifest manifest rfl
    obtain ⟨data, rfl⟩ := hconfigs config configBytes w hconfig hconfigBlob hw
    exact ⟨hmarker, indexBytes, manifestBytes, configBytes, index, descriptor, manifest, config, data,
      hfile, hload, hlist, hdigest, hblob, hm, hconfig, hconfigBlob, hlayers, hw, hplatform data rfl⟩

end Passes

/-! ### What the checks find -/

section Valid

variable {depth : ℕ} {fs : FileSystem} {item : OciImage} {directory path : Path}
  {description : String} {digest v : Value} {problems : List String} {files : Path → Option ByteArray}

theorem readJson_eq_nil_iff :
    readJson depth fs path description = .ok (v, []) ↔
      ∃ bytes, fs.fileAt path = some bytes ∧ loadDocument depth bytes = .ok v := by
  unfold readJson
  constructor
  · intro h
    split at h
    · rename_i v' hv
      cases h
      obtain ⟨bytes, hbytes, hload⟩ := Py.bind_eq_ok.1 hv
      exact ⟨bytes, FileSystem.read_eq_ok.1 hbytes, hload⟩
    · split_ifs at h
      cases h
  · rintro ⟨bytes, hbytes, hload⟩
    have hread : (fs.read path).bind (loadDocument depth) = .ok v :=
      Py.bind_eq_ok.2 ⟨bytes, FileSystem.read_eq_ok.2 hbytes, hload⟩
    rw [hread]

/-- `_validate_blob` has a problem exactly when it has no path, and the path is that of the blob. -/
theorem validateBlob_cases (fs : FileSystem) (root : Path) (digest : Value) (description : String) :
    (∃ bytes digits, IsBlob (fun r => fs.fileAt (root ++ r)) digest bytes ∧
      digestDigits digest = some digits ∧ fs.fileAt (root ++ blobPath digits) = some bytes ∧
      validateBlob fs root digest description = (some (root ++ blobPath digits), [])) ∨
    (∀ bytes, ¬ IsBlob (fun r => fs.fileAt (root ++ r)) digest bytes) ∧
      ∃ problem, validateBlob fs root digest description = (none, [problem]) := by
  unfold validateBlob
  split
  · rename_i hnone
    refine .inr ⟨?_, _, rfl⟩
    rintro bytes ⟨digits, hdigits, -⟩
    simp [hnone] at hdigits
  · rename_i digits hdigits
    split
    · rename_i hnone
      refine .inr ⟨?_, _, rfl⟩
      rintro bytes ⟨digits', hdigits', hfile, -⟩
      obtain rfl : digits = digits' := by simpa [hdigits] using hdigits'
      simp [hnone] at hfile
    · rename_i bytes hbytes
      by_cases hsha : Py.sha256 bytes = digits
      · rw [if_neg (by simpa using hsha)]
        exact .inl ⟨bytes, digits, ⟨digits, hdigits, hbytes, hsha⟩, hdigits, hbytes, rfl⟩
      · rw [if_pos hsha]
        refine .inr ⟨?_, _, rfl⟩
        rintro bytes' ⟨digits', hdigits', hfile, hsha'⟩
        obtain rfl : digits = digits' := by simpa [hdigits] using hdigits'
        obtain rfl : bytes = bytes' := by simpa [hbytes] using hfile
        exact hsha hsha'

theorem validateBlob_eq_nil_iff {root : Path} :
    (validateBlob fs root digest description).2 = [] ↔
      ∃ bytes, IsBlob (fun r => fs.fileAt (root ++ r)) digest bytes := by
  rcases validateBlob_cases fs root digest description with ⟨bytes, digits, hblob, -, -, heq⟩ |
    ⟨hno, problem, heq⟩
  · simp only [heq, true_iff]
    exact ⟨bytes, hblob⟩
  · simp only [heq, List.cons_ne_nil, false_iff, not_exists]
    exact hno

theorem layerProblems_eq_nil_iff {id : String} {layers : List Value} :
    layerProblems fs directory id layers = [] ↔
      ∃ items : List Items, layers = items.map .dict ∧
        ∀ layer ∈ items, ∃ bytes, IsBlob (fun r => fs.fileAt (directory ++ r)) (layer.get "digest")
          bytes := by
  have key : ∀ n, ((layers.zipIdx n).flatMap fun p =>
      match p.1.asDict with
      | none => ["invalid OCI layer descriptor " ++ toString p.2 ++ " for " ++ id]
      | some layer =>
        (validateBlob fs directory (layer.get "digest")
          ("layer " ++ toString p.2 ++ " for " ++ id)).2) = [] ↔
      ∀ layer ∈ layers, ∃ items : Items, layer = .dict items ∧
        ∃ bytes, IsBlob (fun r => fs.fileAt (directory ++ r)) (items.get "digest") bytes := by
    induction layers with
    | nil => simp
    | cons layer layers ih =>
      intro n
      rw [List.zipIdx_cons, List.flatMap_cons, List.append_eq_nil_iff, ih, List.forall_mem_cons]
      refine and_congr_left fun _ => ?_
      cases layer with
      | dict items => simp [Value.asDict, validateBlob_eq_nil_iff]
      | scalar s => simp [Value.asDict]
      | list xs => simp [Value.asDict]
  refine (key 0).trans ⟨fun h => ?_, ?_⟩
  · exact exists_map_eq h
  · rintro ⟨items, rfl, hitems⟩ layer hlayer
    obtain ⟨layer, hmem, rfl⟩ := List.mem_map.1 hlayer
    exact ⟨layer, rfl, hitems layer hmem⟩

theorem validateConfig_eq_nil_iff :
    validateConfig depth fs item path problems = .ok [] ↔
      problems = [] ∧ ∃ bytes, fs.fileAt path = some bytes ∧ ConfigPasses depth item bytes := by
  unfold validateConfig ConfigPasses
  rw [Py.bind_eq_ok]
  constructor
  · rintro ⟨⟨v, more⟩, hread, h⟩
    -- whatever the document is, an empty list means that reading it had no problem
    have hnil : problems = [] ∧ more = [] ∧ ∀ data, v = .dict data →
        platformText data = item.platform := by
      cases v with
      | dict data =>
        simp only [Value.asDict] at h
        split_ifs at h with hplatform
        · simp at h
        · simp only [Except.ok.injEq, List.append_eq_nil_iff] at h
          refine ⟨h.1, h.2, fun data' hdata => ?_⟩
          cases hdata
          exact not_not.1 hplatform
      | scalar s => simpa [Value.asDict] using h
      | list xs => simpa [Value.asDict] using h
    obtain ⟨rfl, rfl, hplatform⟩ := hnil
    obtain ⟨bytes, hbytes, hload⟩ := readJson_eq_nil_iff.1 hread
    exact ⟨rfl, bytes, hbytes, v, hload, hplatform⟩
  · rintro ⟨rfl, bytes, hbytes, v, hload, hplatform⟩
    refine ⟨(v, []), readJson_eq_nil_iff.2 ⟨bytes, hbytes, hload⟩, ?_⟩
    cases v with
    | dict data => simp [Value.asDict, hplatform data rfl]
    | scalar s => simp [Value.asDict]
    | list xs => simp [Value.asDict]

theorem validateManifest_eq_nil_iff :
    validateManifest depth fs item directory path problems = .ok [] ↔
      problems = [] ∧ ∃ bytes, fs.fileAt path = some bytes ∧
        ManifestPasses depth (fun r => fs.fileAt (directory ++ r)) item bytes := by
  unfold validateManifest ManifestPasses
  rw [Py.bind_eq_ok]
  constructor
  · rintro ⟨⟨v, more⟩, hread, h⟩
    have hnil : problems = [] ∧ more = [] ∧ ∀ manifest : Items, v = .dict manifest →
        ∃ (config : Items) (configBytes : ByteArray), manifest.get "config" = .dict config ∧
          IsBlob (fun r => fs.fileAt (directory ++ r)) (config.get "digest") configBytes ∧
          LayersPresent (fun r => fs.fileAt (directory ++ r)) manifest ∧
          ConfigPasses depth item configBytes := by
      cases v with
      | dict manifest =>
        simp only [Value.asDict] at h
        split at h
        · simp at h
        · rename_i config hconfig
          obtain ⟨layers, hlayers, h⟩ := Py.bind_eq_ok.1 h
          rcases validateBlob_cases fs directory (config.get "digest") ("config " ++ item.id) with
            ⟨configBytes, digits, hblob, -, hfile, heq⟩ | ⟨-, problem, heq⟩
          · simp only [heq] at h
            obtain ⟨hproblems, bytes, hbytes, hpass⟩ := validateConfig_eq_nil_iff.1 h
            obtain rfl : bytes = configBytes := Option.some.inj (hbytes.symm.trans hfile)
            simp only [List.append_eq_nil_iff] at hproblems
            obtain ⟨items, rfl, hitems⟩ := layerProblems_eq_nil_iff.1 hproblems.2
            refine ⟨hproblems.1.1.1, hproblems.1.1.2, fun manifest' hmanifest => ?_⟩
            cases hmanifest
            exact ⟨config, bytes, Value.asDict_eq_some.1 hconfig, hblob, ⟨items, hlayers, hitems⟩,
              hpass⟩
          · simp [heq] at h
      | scalar s => simpa [Value.asDict] using h
      | list xs => simpa [Value.asDict] using h
    obtain ⟨rfl, rfl, hpass⟩ := hnil
    obtain ⟨bytes, hbytes, hload⟩ := readJson_eq_nil_iff.1 hread
    exact ⟨rfl, bytes, hbytes, v, hload, hpass⟩
  · rintro ⟨rfl, bytes, hbytes, v, hload, hpass⟩
    refine ⟨(v, []), readJson_eq_nil_iff.2 ⟨bytes, hbytes, hload⟩, ?_⟩
    cases v with
    | dict manifest =>
      obtain ⟨config, configBytes, hconfig, hblob, ⟨items, hlayers, hitems⟩, hdata⟩ :=
        hpass manifest rfl
      have hlayerProblems : layerProblems fs directory item.id (items.map .dict) = [] :=
        layerProblems_eq_nil_iff.2 ⟨items, rfl, hitems⟩
      rcases validateBlob_cases fs directory (config.get "digest") ("config " ++ item.id) with
        ⟨configBytes', digits, hblob', -, hfile, heq⟩ | ⟨hno, -⟩
      · obtain rfl := hblob'.unique hblob
        simp only [Value.asDict, hconfig, heq, hlayers, Except.bind]
        exact validateConfig_eq_nil_iff.2 ⟨by simpa using hlayerProblems, _, hfile, hdata⟩
      · exact absurd hblob (hno configBytes)
    | scalar s => simp [Value.asDict]
    | list xs => simp [Value.asDict]

theorem validateDescriptor_eq_nil_iff {descriptor : Items} :
    validateDescriptor depth fs item directory descriptor problems = .ok [] ↔
      problems = [] ∧ descriptor.get "digest" = .str item.manifestDigest ∧
        ∃ bytes, IsBlob (fun r => fs.fileAt (directory ++ r)) (.str item.manifestDigest) bytes ∧
          ManifestPasses depth (fun r => fs.fileAt (directory ++ r)) item bytes := by
  unfold validateDescriptor
  have hmismatch : ∀ text : String,
      (if (descriptor.get "digest").eq (.str item.manifestDigest) then [] else [text]) = [] ↔
        descriptor.get "digest" = .str item.manifestDigest := by
    intro text
    rw [← Value.eq_str_iff]
    split_ifs with h <;> simp [h]
  rcases validateBlob_cases fs directory (descriptor.get "digest") ("manifest " ++ item.id) with
    ⟨bytes, digits, hblob, -, hfile, heq⟩ | ⟨hno, problem, heq⟩
  · simp only [heq, validateManifest_eq_nil_iff, List.append_eq_nil_iff, hmismatch, and_true]
    constructor
    · rintro ⟨⟨rfl, hdigest⟩, bytes', hbytes', hpass⟩
      obtain rfl : bytes = bytes' := Option.some.inj (hfile.symm.trans hbytes')
      exact ⟨rfl, hdigest, bytes, hdigest ▸ hblob, hpass⟩
    · rintro ⟨rfl, hdigest, bytes', hblob', hpass⟩
      obtain rfl := hblob.unique (hdigest ▸ hblob')
      exact ⟨⟨rfl, hdigest⟩, bytes, hfile, hpass⟩
  · simp only [heq, Except.ok.injEq, List.append_eq_nil_iff, List.cons_ne_nil, and_false, false_iff]
    rintro ⟨-, hdigest, bytes, hblob, -⟩
    exact hno bytes (hdigest ▸ hblob)

/-- **What a layout without problems is**: everything that is looked at is in order. -/
theorem validateOciLayout_eq_nil_iff :
    validateOciLayout depth fs item directory = .ok [] ↔
      LayoutPasses depth (fun r => fs.fileAt (directory ++ r)) item := by
  unfold validateOciLayout LayoutPasses MarkerPresent
  rw [Py.bind_eq_ok]
  have hmarker : ∀ (v : Value) (text : String),
      (if v.eq layoutMarker then [] else [text]) = [] ↔ v.eq layoutMarker = true := by
    intro v text
    split_ifs with h <;> simp [h]
  constructor
  · rintro ⟨⟨layout, problems⟩, hlayout, h⟩
    obtain ⟨⟨v, more⟩, hindex, h⟩ := Py.bind_eq_ok.1 h
    have hnil : (problems = [] ∧ layout.eq layoutMarker = true) ∧ more = [] ∧
        ∀ index : Items, v = .dict index →
          ∃ (descriptor : Items) (manifestBytes : ByteArray),
            index.get "manifests" = .list [.dict descriptor] ∧
            descriptor.get "digest" = .str item.manifestDigest ∧
            IsBlob (fun r => fs.fileAt (directory ++ r)) (.str item.manifestDigest) manifestBytes ∧
            ManifestPasses depth (fun r => fs.fileAt (directory ++ r)) item manifestBytes := by
      cases v with
      | dict index =>
        simp only [Value.asDict] at h
        split at h
        · rename_i descriptor hmanifests
          obtain ⟨hproblems, hdigest, bytes, hblob, hpass⟩ := validateDescriptor_eq_nil_iff.1 h
          simp only [List.append_eq_nil_iff, hmarker] at hproblems
          refine ⟨hproblems.1, hproblems.2, fun index' hindex => ?_⟩
          cases hindex
          exact ⟨descriptor, bytes, hmanifests, hdigest, hblob, hpass⟩
        · simp at h
      | scalar s => simpa [Value.asDict, hmarker, and_assoc] using h
      | list xs => simpa [Value.asDict, hmarker, and_assoc] using h
    obtain ⟨⟨rfl, heq⟩, rfl, hpass⟩ := hnil
    obtain ⟨bytes, hbytes, hload⟩ := readJson_eq_nil_iff.1 hlayout
    obtain ⟨indexBytes, hindexBytes, hindexLoad⟩ := readJson_eq_nil_iff.1 hindex
    exact ⟨⟨bytes, layout, hbytes, hload, heq⟩, indexBytes, v, hindexBytes, hindexLoad, hpass⟩
  · rintro ⟨⟨bytes, layout, hbytes, hload, heq⟩, indexBytes, v, hindexBytes, hindexLoad, hpass⟩
    refine ⟨(layout, []), readJson_eq_nil_iff.2 ⟨bytes, hbytes, hload⟩, ?_⟩
    refine Py.bind_eq_ok.2 ⟨(v, []), readJson_eq_nil_iff.2 ⟨indexBytes, hindexBytes, hindexLoad⟩, ?_⟩
    cases v with
    | dict index =>
      obtain ⟨descriptor, manifestBytes, hmanifests, hdigest, hblob, hmanifest⟩ := hpass index rfl
      simp only [Value.asDict, hmanifests, heq, if_true, List.nil_append]
      exact validateDescriptor_eq_nil_iff.2 ⟨rfl, hdigest, manifestBytes, hblob, hmanifest⟩
    | scalar s => simp [Value.asDict, heq]
    | list xs => simp [Value.asDict, heq]

/-! ### Layouts that can be read -/

/-- Reading the JSON of a file raises nothing but a `JSONDecodeError`: the bytes are UTF-8, and the
document has no integer beyond the limit on digits and no deeper nesting than the interpreter
allows. -/
def Readable (depth : ℕ) (bytes : ByteArray) : Prop :=
  ∃ s, String.fromUTF8? bytes = some s ∧
    ∀ e, Py.Json.loads depth (Py.universalNewlines s.toList) = .error e → e.cls = .jsonDecodeError

/-- The value can be gone through: a list, a dictionary or a string. -/
def Iterable : Value → Prop
  | .list _ => True
  | .dict _ => True
  | .scalar (.str _) => True
  | _ => False

/-- A manifest that is read is readable, and so is what it leads to. -/
def ManifestReadable (depth : ℕ) (files : Path → Option ByteArray) (bytes : ByteArray) : Prop :=
  Readable depth bytes ∧ ∀ manifest config : Items, loadDocument depth bytes = .ok (.dict manifest) →
    manifest.get "config" = .dict config →
    Iterable ((manifest.lookup "layers").getD (.list [])) ∧
      ∀ configBytes, IsBlob files (config.get "digest") configBytes → Readable depth configBytes

/-- Every document that the checks reach is readable, and the layers that they reach can be gone
through. -/
structure LayoutReadable (depth : ℕ) (files : Path → Option ByteArray) : Prop where
  marker : ∀ bytes, files ["oci-layout"] = some bytes → Readable depth bytes
  index : ∀ bytes, files ["index.json"] = some bytes → Readable depth bytes
  manifest : ∀ indexBytes (index descriptor : Items) bytes, files ["index.json"] = some indexBytes →
    loadDocument depth indexBytes = .ok (.dict index) →
    index.get "manifests" = .list [.dict descriptor] →
    IsBlob files (descriptor.get "digest") bytes → ManifestReadable depth files bytes

theorem iterate_isOk_iff {v : Value} : (∃ xs, iterate v = .ok xs) ↔ Iterable v := by
  unfold iterate Iterable
  split <;> simp_all [typeError]

/-- What `_read_json` returns: the document, or `None` with a problem. -/
theorem readJson_isOk_iff :
    (∃ r, readJson depth fs path description = .ok r) ↔
      ∀ bytes, fs.fileAt path = some bytes → Readable depth bytes := by
  unfold readJson
  cases hread : fs.read path with
  | error e =>
    have hcls := FileSystem.read_error_cls hread
    have hfile : ∀ bytes, fs.fileAt path ≠ some bytes := by
      intro bytes hbytes
      rw [FileSystem.read_eq_ok.2 hbytes] at hread
      cases hread
    have hcaught : e.caughtBy [.jsonDecodeError, .osError] = true := by
      simp [Exc.caughtBy, hcls, ExcClass.isSubclass]
    simp only [Except.bind, hcaught, if_true, Except.ok.injEq, exists_eq', true_iff]
    exact fun bytes hbytes => absurd hbytes (hfile bytes)
  | ok bytes =>
    have hbytes := FileSystem.read_eq_ok.1 hread
    have hall : (∀ b, fs.fileAt path = some b → Readable depth b) ↔ Readable depth bytes := by
      simp [hbytes]
    rw [hall]
    simp only [Except.bind]
    unfold loadDocument decodeText Readable
    cases hutf : String.fromUTF8? bytes with
    | none => simp [Except.bind, Exc.caughtBy, ExcClass.isSubclass, ExcClass.base]
    | some s =>
      simp only [Except.bind, Option.some.injEq, exists_eq_left']
      cases hload : Py.Json.loads depth (Py.universalNewlines s.toList) with
      | ok v => simp
      | error e =>
        have hcls := Py.Json.raises_loads depth _ e hload
        have hcaught : e.caughtBy [.jsonDecodeError, .osError] = true ↔ e.cls = .jsonDecodeError := by
          simp only [Py.Json.loadClasses, List.mem_cons, List.not_mem_nil, or_false] at hcls
          rcases hcls with h | h | h <;>
            simp [Exc.caughtBy, h, ExcClass.isSubclass, ExcClass.base]
        simp only [Except.error.injEq, forall_eq', ← hcaught]
        split_ifs with h <;> simp [h]

/-- A document that was read is the file's, or `None` when the file has no document. -/
theorem readJson_eq_ok {more : List String} (h : readJson depth fs path description = .ok (v, more)) :
    (∃ bytes, fs.fileAt path = some bytes ∧ loadDocument depth bytes = .ok v) ∨
      v = .none ∧ ∀ bytes w, fs.fileAt path = some bytes → loadDocument depth bytes ≠ .ok w := by
  unfold readJson at h
  split at h
  · rename_i w hw
    cases h
    obtain ⟨bytes, hbytes, hload⟩ := Py.bind_eq_ok.1 hw
    exact .inl ⟨bytes, FileSystem.read_eq_ok.1 hbytes, hload⟩
  · rename_i e he
    split_ifs at h
    cases h
    refine .inr ⟨rfl, fun bytes w hbytes hload => ?_⟩
    rw [Py.bind_eq_ok.2 ⟨bytes, FileSystem.read_eq_ok.2 hbytes, hload⟩] at he
    cases he

theorem exists_bind_eq_ok {α β : Type*} {x : Except Exc α} {f : α → Except Exc β} :
    (∃ b, x.bind f = .ok b) ↔ ∃ a, x = .ok a ∧ ∃ b, f a = .ok b := by
  simp only [Py.bind_eq_ok]
  exact ⟨fun ⟨b, a, ha, hb⟩ => ⟨a, ha, b, hb⟩, fun ⟨a, ha, b, hb⟩ => ⟨b, a, ha, hb⟩⟩

theorem validateConfig_isOk_iff :
    (∃ r, validateConfig depth fs item path problems = .ok r) ↔
      ∀ bytes, fs.fileAt path = some bytes → Readable depth bytes := by
  unfold validateConfig
  have hread : (∃ r, readJson depth fs path ("OCI config for " ++ item.id) = .ok r) ↔
      ∀ bytes, fs.fileAt path = some bytes → Readable depth bytes := readJson_isOk_iff
  rw [exists_bind_eq_ok, ← hread]
  constructor
  · rintro ⟨r, hr, -⟩
    exact ⟨r, hr⟩
  · rintro ⟨r, hr⟩
    refine ⟨r, hr, ?_⟩
    simp only
    split
    · exact ⟨_, rfl⟩
    · split_ifs <;> exact ⟨_, rfl⟩

theorem validateManifest_isOk_iff {bytes : ByteArray} (hfile : fs.fileAt path = some bytes) :
    (∃ r, validateManifest depth fs item directory path problems = .ok r) ↔
      ManifestReadable depth (fun r => fs.fileAt (directory ++ r)) bytes := by
  have hread : (∃ r, readJson depth fs path ("OCI manifest for " ++ item.id) = .ok r) ↔
      Readable depth bytes := by
    rw [readJson_isOk_iff]
    simp [hfile]
  -- the config and the layers of a manifest that is an object
  have hrest : ∀ (manifest config : Items) (more : List String),
      (∃ r, ((iterate ((manifest.lookup "layers").getD (.list []))).bind fun layers =>
        let problems := problems ++ more ++
          (validateBlob fs directory (config.get "digest") ("config " ++ item.id)).2 ++
          layerProblems fs directory item.id layers
        match (validateBlob fs directory (config.get "digest") ("config " ++ item.id)).1 with
        | none => .ok problems
        | some configPath => validateConfig depth fs item configPath problems) = .ok r) ↔
      Iterable ((manifest.lookup "layers").getD (.list [])) ∧
        ∀ configBytes, IsBlob (fun r => fs.fileAt (directory ++ r)) (config.get "digest")
          configBytes → Readable depth configBytes := by
    intro manifest config more
    rw [exists_bind_eq_ok, ← iterate_isOk_iff]
    rcases validateBlob_cases fs directory (config.get "digest") ("config " ++ item.id) with
      ⟨configBytes, digits, hblob, -, hconfigFile, heq⟩ | ⟨hno, problem, heq⟩
    · simp only [heq, validateConfig_isOk_iff, hconfigFile, Option.some.injEq, forall_eq',
        exists_and_right]
      refine and_congr_right fun _ => ⟨fun h b hb => ?_, fun h => h _ hblob⟩
      rwa [hb.unique hblob]
    · simp only [heq, Except.ok.injEq, exists_eq', and_true]
      exact ⟨fun h => ⟨h, fun b hb => absurd hb (hno b)⟩, fun h => h.1⟩
  unfold validateManifest ManifestReadable
  rw [exists_bind_eq_ok, ← hread]
  constructor
  · rintro ⟨⟨v, more⟩, hv, hr⟩
    refine ⟨⟨_, hv⟩, fun manifest config hload hconfig => ?_⟩
    rcases readJson_eq_ok hv with ⟨bytes', hbytes', hload'⟩ | ⟨-, hnone⟩
    · obtain rfl : bytes = bytes' := Option.some.inj (hfile.symm.trans hbytes')
      obtain rfl : v = .dict manifest := Except.ok.inj (hload'.symm.trans hload)
      simp only [Value.asDict, hconfig] at hr
      exact (hrest manifest config more).1 hr
    · exact absurd hload (hnone bytes _ hfile)
  · rintro ⟨⟨⟨v, more⟩, hv⟩, hall⟩
    refine ⟨(v, more), hv, ?_⟩
    cases v with
    | dict manifest =>
      simp only [Value.asDict]
      split
      · exact ⟨_, rfl⟩
      · rename_i config hconfig
        rcases readJson_eq_ok hv with ⟨bytes', hbytes', hload'⟩ | ⟨hnone, -⟩
        · obtain rfl : bytes = bytes' := Option.some.inj (hfile.symm.trans hbytes')
          exact (hrest manifest config more).2
            (hall manifest config hload' (Value.asDict_eq_some.1 hconfig))
        · cases hnone
    | scalar s => exact ⟨_, rfl⟩
    | list xs => exact ⟨_, rfl⟩

theorem validateDescriptor_isOk_iff {descriptor : Items} :
    (∃ r, validateDescriptor depth fs item directory descriptor problems = .ok r) ↔
      ∀ bytes, IsBlob (fun r => fs.fileAt (directory ++ r)) (descriptor.get "digest") bytes →
        ManifestReadable depth (fun r => fs.fileAt (directory ++ r)) bytes := by
  unfold validateDescriptor
  rcases validateBlob_cases fs directory (descriptor.get "digest") ("manifest " ++ item.id) with
    ⟨bytes, digits, hblob, -, hfile, heq⟩ | ⟨hno, problem, heq⟩
  · simp only [heq, validateManifest_isOk_iff hfile]
    refine ⟨fun h b hb => ?_, fun h => h _ hblob⟩
    rwa [hb.unique hblob]
  · simp only [heq, Except.ok.injEq, exists_eq', true_iff]
    exact fun b hb => absurd hb (hno b)

/-- **When the validation of a layout returns**: exactly when everything it reads is readable and
the layers it goes through can be gone through. -/
theorem validateOciLayout_isOk_iff :
    (∃ r, validateOciLayout depth fs item directory = .ok r) ↔
      LayoutReadable depth (fun r => fs.fileAt (directory ++ r)) := by
  unfold validateOciLayout
  rw [exists_bind_eq_ok]
  constructor
  · rintro ⟨⟨layout, problems⟩, hlayout, h⟩
    obtain ⟨⟨v, more⟩, hindex, h⟩ := exists_bind_eq_ok.1 h
    refine ⟨readJson_isOk_iff.1 ⟨_, hlayout⟩, readJson_isOk_iff.1 ⟨_, hindex⟩, ?_⟩
    intro indexBytes index descriptor bytes hfile hload hmanifests hblob
    rcases readJson_eq_ok hindex with ⟨bytes', hbytes', hload'⟩ | ⟨-, hnone⟩
    · obtain rfl : indexBytes = bytes' := Option.some.inj (hfile.symm.trans hbytes')
      obtain rfl : v = .dict index := Except.ok.inj (hload'.symm.trans hload)
      simp only [Value.asDict, hmanifests] at h
      exact validateDescriptor_isOk_iff.1 h bytes hblob
    · exact absurd hload (hnone indexBytes _ hfile)
  · rintro ⟨hmarker, hindex, hmanifest⟩
    obtain ⟨r, hr⟩ : ∃ r, readJson depth fs (directory ++ ["oci-layout"])
        ("OCI layout marker for " ++ item.id) = .ok r := readJson_isOk_iff.2 hmarker
    obtain ⟨⟨v, more⟩, hv⟩ : ∃ r, readJson depth fs (directory ++ ["index.json"])
        ("OCI index for " ++ item.id) = .ok r := readJson_isOk_iff.2 hindex
    refine ⟨r, hr, exists_bind_eq_ok.2 ⟨(v, more), hv, ?_⟩⟩
    cases v with
    | dict index =>
      simp only [Value.asDict]
      split
      · rename_i descriptor hmanifests
        refine validateDescriptor_isOk_iff.2 fun bytes hblob => ?_
        rcases readJson_eq_ok hv with ⟨bytes', hbytes', hload'⟩ | ⟨hnone, -⟩
        · exact hmanifest bytes' index descriptor bytes hbytes' hload' hmanifests hblob
        · cases hnone
      · exact ⟨_, rfl⟩
    | scalar s => exact ⟨_, rfl⟩
    | list xs => exact ⟨_, rfl⟩

end Valid

end Artifacts
