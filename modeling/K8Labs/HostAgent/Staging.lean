import K8Labs.Artifacts.Populate
import K8Labs.Python.Disk

/-!
# Staging the images

`stage_artifacts` and `verify_staged_artifacts` of `scripts/host_agent.py`.  The images below
`build/` are resolved before anything else is done with them, so that an image is staged, and listed
in the manifest, under the name of the file that its link leads to.

The program runs on a `Machine`, a tree with links; what it reads and writes is the file system of
the tree, in which a link is no node.  Nothing below the state directory is a link, and permissions
are not modelled.

* `targets_staged`: sources with different image names are copied whole, none over another;
* `verify_eq_nil`: a manifest whose images are there with their hashes has no problems;
* `staged_iff`: **every image is staged under its own name if and only if every image has one with its
  bytes that resolves to a file of its name.**
-/

namespace Staging

open Py (Exc Value Items Path FileSystem Eff Env World Tree Dict.update)

/-! ### The machine -/

/-- A machine before the run: its tree, the bytes of its files, and the working directory. -/
structure Machine where
  tree : Tree
  bytes : Path → ByteArray
  cwd : Path

/-- A configuration directory as `config_root` returns it. -/
structure ConfigRoot where
  path : Path
  /-- It is not the root of the file system. -/
  ne_root : path ≠ []
  names : ∀ name ∈ path, Py.IsName name

namespace Machine

variable (m : Machine)

/-- The directories and the files. -/
def files : FileSystem := m.tree.fileSystem m.bytes

/-- `Path("build")`. -/
def build : Path := m.cwd ++ ["build"]

/-- `sorted(build_dir.glob("*.qcow2"))` without the cloud base. -/
def images : List Path :=
  ((((m.tree.iterdir m.build).toOption.getD []).filter fun p =>
    Py.endsWith p.name ".qcow2").insertionSort (· ≤ ·)).filter fun candidate =>
      candidate.name ≠ "fedora-cloud-base.qcow2"

/-- The bytes of the file that a path resolves to. -/
def bytesOf (p : Path) : Option ByteArray := m.files.fileAt (m.tree.realpath p)

variable {m}

end Machine

namespace ConfigRoot

variable (root : ConfigRoot)

def state : Path := root.path ++ ["state"]

def images : Path := root.state ++ ["images"]

def firmware : Path := root.state ++ ["firmware"]

def vms : Path := root.state ++ ["vms"]

def manifestPath : Path := root.state ++ ["manifest.json"]

end ConfigRoot

/-! ### Staging -/

/-- `image_reference`. -/
def imageReference (name : String) : String := "/host-state/images/" ++ name

/-- `discover_source_images`. -/
def discoverSourceImages (m : Machine) : List Path :=
  if m.tree.isDir m.build = false then [] else m.images.map m.tree.realpath

/-- `source_firmware`. -/
def sourceFirmware (m : Machine) : Path := m.tree.realpath (m.build ++ ["CLOUDHV.fd"])

/-- `targets`. -/
def targetsOf (root : ConfigRoot) (sourceImages : List Path) (sourceFirmware : Path) :
    List (Path × Path) :=
  Dict.update sourceFirmware (fun _ => root.firmware ++ [sourceFirmware.name])
    (sourceImages.foldl
      (fun targets source => Dict.update source (fun _ => root.images ++ [source.name]) targets) [])

/-- A staged file in the manifest. -/
def stagedFile (target : Path) (digest : String) : Value :=
  .dict [(.str "path", .str target.text), (.str "sha256", .str digest)]

/-- `manifest`. -/
def manifestOf (images : Items) (firmware : Value) : Value :=
  .dict [(.str "images", .dict images), (.str "firmware", firmware)]

/-- `raise SystemExit(message)`. -/
def stop {α : Type} (message : String) : Eff α := Eff.throw ⟨.systemExit, message⟩

section Run

variable (env : Env)

/-- `require_regular`. -/
def requireRegular (path : Path) (description : String) : Eff Unit := do
  let regular ← Py.inspect env fun fs => .ok (fs.isFile path)
  if regular then pure ()
  else stop ("ERROR: " ++ description ++ " is not a regular file: " ++ path.text)

/-- `sha256`. -/
def sha256Of (path : Path) : Eff String :=
  Py.inspect env fun fs => (fs.read path).map Py.sha256

/-- `shutil.copyfile`. -/
def copyfile (source target : Path) : Eff Unit := do
  let bytes ← Py.inspect env fun fs =>
    if fs.present source ∧ source = target then
      .error ⟨.osError, "PosixPath(" ++ Py.quoted source.text ++ ") and PosixPath(" ++
        Py.quoted target.text ++ ") are the same file"⟩
    else fs.read source
  Py.writeFile env target bytes

/-- A source is copied beside its target, and the copy renamed. -/
def stageFile (source target : Path) : Eff Unit := do
  let temporary := target.withSuffix (Py.suffix target.name ++ ".tmp")
  copyfile env source temporary
  Py.osReplace env temporary target

/-- `targets[source]`. -/
def targetOf (targets : List (Path × Path)) (source : Path) : Except Exc Path :=
  match targets.lookup source with
  | some target => .ok target
  | none => .error ⟨.keyError, "PosixPath(" ++ Py.quoted source.text ++ ")"⟩

/-- The loop over the images that fills `manifest_images`. -/
def listImages (targets : List (Path × Path)) : List Path → Items → Eff Items
  | [], items => pure items
  | source :: sources, items => do
    let target ← Eff.lift (targetOf targets source)
    let digest ← sha256Of env target
    listImages targets sources
      (Py.Json.assign items (imageReference source.name) (stagedFile target digest))

/-- The manifest is written beside its place and renamed. -/
def writeManifest (root : ConfigRoot) (manifest : Value) : Eff Unit := do
  let temporary := root.manifestPath.withSuffix ".tmp"
  let text ← Eff.lift (Py.Json.dumps .spaced env.depth manifest)
  Py.writeFile env temporary (String.ofList (text ++ ['\n'])).toByteArray
  Py.osReplace env temporary root.manifestPath

/-- `stage_artifacts`. -/
def stageArtifacts (m : Machine) (root : ConfigRoot) : Eff (List (String × String)) :=
  let sourceImages := discoverSourceImages m
  if sourceImages = [] then stop "ERROR: no baked QCOW2 images found under build/"
  else do
    requireRegular env (sourceFirmware m) "firmware"
    Eff.forEach (fun source => requireRegular env source "baked base image") sourceImages
    Eff.forEach (Py.mkdirs env) [root.images, root.firmware, root.vms]
    let targets := targetsOf root sourceImages (sourceFirmware m)
    Eff.forEach (fun item => stageFile env item.1 item.2) targets
    let images ← listImages env targets sourceImages []
    let target ← Eff.lift (targetOf targets (sourceFirmware m))
    let digest ← sha256Of env target
    writeManifest env root (manifestOf images (stagedFile target digest))
    pure [("state", root.state.text), ("images", root.images.text),
      ("firmware", root.firmware.text), ("vms", root.vms.text),
      ("manifest", root.manifestPath.text)]

end Run

/-! ### Verifying -/

/-- `json.loads(manifest_path.read_text(encoding="utf-8"))`. -/
def readManifest (depth : ℕ) (root : ConfigRoot) (fs : FileSystem) : Except Exc Value :=
  (fs.read root.manifestPath).bind (Artifacts.loadDocument depth)

/-- The check of one entry of the manifest. -/
def imageProblems (cwd : Path) (fs : FileSystem) (key value : Value) : List String :=
  match value.asDict with
  | none => ["invalid staged image entry: " ++ key.text]
  | some items =>
    let path := items.get "path"
    match path.asStr.bind (Py.namedFile fs cwd) with
    | none => ["missing staged image for " ++ key.text ++ ": " ++ path.text]
    | some bytes =>
      if (items.get "sha256").asStr = some (Py.sha256 bytes) then []
      else ["staged image hash mismatch for " ++ key.text ++ ": " ++ path.text]

/-- `verify_staged_artifacts`. -/
def verifyStagedArtifacts (depth : ℕ) (cwd : Path) (root : ConfigRoot) (fs : FileSystem) :
    Except Exc (List String) :=
  if fs.isFile root.manifestPath = false then
    .ok ["missing staged artifact manifest: " ++ root.manifestPath.text]
  else
    match readManifest depth root fs with
    | .error e =>
      if e.caughtBy [.jsonDecodeError, .osError] then
        .ok ["invalid staged artifact manifest: " ++ e.message]
      else .error e
    | .ok manifest =>
      match manifest.asDict with
      | none => .error ⟨.attributeError, "object has no attribute 'get'"⟩
      | some items =>
        match (items.get "images").asDict with
        | none => .ok ["staged artifact manifest has no images mapping"]
        | some images =>
          .ok (images.flatMap fun item => imageProblems cwd fs (.scalar item.1) item.2)

/-! ### The entries of the build directory -/

section Images

variable {m : Machine} {e : Path}

/-- What the build directory lists. -/
theorem exists_listed (m : Machine) : ∃ names : List String,
    (m.tree.iterdir m.build).toOption.getD [] = names.map (fun name => m.build ++ [name]) ∧
      names.Nodup ∧ ∀ name ∈ names, Py.IsName name := by
  cases hdir : m.tree.iterdir m.build with
  | error e => exact ⟨[], rfl, List.nodup_nil, by simp⟩
  | ok ps =>
    obtain ⟨names, rfl, hnodup, hnames⟩ := Tree.iterdir_eq_ok hdir
    exact ⟨names, rfl, hnodup, hnames⟩

theorem name_of_mem_images (h : e ∈ m.images) :
    Py.IsName e.name ∧ Py.endsWith e.name ".qcow2" = true := by
  obtain ⟨hsorted, -⟩ := List.mem_filter.1 h
  obtain ⟨hlisted, hsuffix⟩ := List.mem_filter.1 ((List.mem_insertionSort _).1 hsorted)
  obtain ⟨names, heq, -, hnames⟩ := exists_listed m
  rw [heq] at hlisted
  obtain ⟨name, hname, rfl⟩ := List.mem_map.1 hlisted
  exact ⟨by simpa using hnames name hname, hsuffix⟩

theorem nodup_names_images (m : Machine) : (m.images.map Path.name).Nodup := by
  obtain ⟨names, heq, hnodup, -⟩ := exists_listed m
  have hnames : (((m.tree.iterdir m.build).toOption.getD []).map Path.name).Nodup := by
    rw [heq, List.map_map]
    simpa [Function.comp_def] using hnodup
  refine (((List.perm_insertionSort _ _).filter _).map Path.name).nodup_iff.2 ?_
  exact hnames.sublist ((List.filter_sublist.trans List.filter_sublist).map _)

/-- Where every entry has one that resolves to its name, the resolved names are the names of the
entries, each once. -/
theorem resolved_names_perm
    (h : ∀ e ∈ m.images, ∃ e' ∈ m.images, (m.tree.realpath e').name = e.name) :
    ((m.images.map m.tree.realpath).map Path.name).Perm (m.images.map Path.name) := by
  have hsub : m.images.map Path.name ⊆ (m.images.map m.tree.realpath).map Path.name := by
    intro name hname
    obtain ⟨e, he, rfl⟩ := List.mem_map.1 hname
    obtain ⟨e', he', heq⟩ := h e he
    exact heq ▸ List.mem_map_of_mem (List.mem_map_of_mem he')
  -- as many resolved names as entries, so none is left over
  exact ((List.subperm_of_subset (nodup_names_images m) hsub).perm_of_length_le (by simp)).symm

end Images

/-! ### Copies -/

/-- Sources with the names of images, each once. -/
structure Apart (sources : List Path) : Prop where
  nodup : (sources.map Path.name).Nodup
  names : ∀ s ∈ sources, Py.IsName s.name ∧ Py.endsWith s.name ".qcow2" = true

/-- Where an image is staged: the image that is the firmware, with the firmware. -/
def imageTarget (root : ConfigRoot) (firmware source : Path) : Path :=
  (if source = firmware then root.firmware else root.images) ++ [source.name]

section Copies

variable {env : Env} {w w' : World} {root : ConfigRoot} {sources : List Path} {firmware s s' : Path}

theorem Apart.eq_of_name (h : Apart sources) (hs : s ∈ sources) (hs' : s' ∈ sources)
    (hname : s.name = s'.name) : s = s' :=
  List.inj_on_of_nodup_map h.nodup hs hs' hname

@[simp] theorem name_imageTarget (root : ConfigRoot) (firmware s : Path) :
    (imageTarget root firmware s).name = s.name :=
  Py.Path.name_concat _ _

theorem not_endsWith_temporary (name : String) : Py.endsWith (name ++ ".tmp") ".qcow2" = false := by
  rw [Bool.eq_false_iff]
  intro h
  obtain ⟨front, heq⟩ := List.isSuffixOf_iff_suffix.1 h
  have hlast := congrArg List.getLast? heq
  rw [String.toList_append] at hlast
  simp at hlast

theorem targetsOf_eq (root : ConfigRoot) (firmware : Path) (h : sources.Nodup) :
    targetsOf root sources firmware = (sources.map fun s => (s, imageTarget root firmware s)) ++
      if firmware ∈ sources then [] else [(firmware, root.firmware ++ [firmware.name])] := by
  rw [targetsOf, Py.Dict.foldl_update_of_nodup _ (by simpa using h), List.nil_append,
    Py.Dict.update_map _ _ _ h]
  congr 1
  · refine List.map_congr_left fun s _ => ?_
    rw [imageTarget]
    split_ifs with heq
    · rw [heq]
    · rfl
  · split_ifs <;> rfl

/-- A source that was copied is at its target, and no third file is lost. -/
theorem stageFile_eq_ok {source target : Path} (hname : target ≠ [])
    (h : stageFile env source target w = (.ok (), w')) : ∃ bytes,
    w.fs.fileAt source = some bytes ∧ w'.fs.fileAt target = some bytes ∧
      FileSystem.Keeps (fun q => q.name = target.name ++ ".tmp" ∨ q = target) w.fs w'.fs := by
  obtain ⟨dir, name, rfl⟩ : ∃ dir name, target = dir ++ [name] :=
    ⟨_, _, (List.dropLast_append_getLast hname).symm⟩
  obtain ⟨⟨⟩, w₂, hcopy, hreplace⟩ := Eff.bind_eq_ok h
  obtain ⟨bytes, w₁, hread, hwrite⟩ := Eff.bind_eq_ok hcopy
  obtain ⟨hbytes, hsame⟩ := Py.inspect_eq_ok hread
  split_ifs at hbytes
  rw [Py.Path.name_concat, Py.Path.withSuffix_concat] at hwrite hreplace
  have hne : dir ++ [name ++ ".tmp"] ≠ dir ++ [name] := by simp
  obtain ⟨hfile, hkeeps⟩ := Py.write_replace_eq_ok hne ((Eff.bind_of_ok hwrite).trans hreplace)
  refine ⟨bytes, FileSystem.read_eq_ok.1 hbytes, hfile, ?_⟩
  rw [hsame] at hkeeps
  refine hkeeps.mono fun q hq => hq.imp_left fun heq => ?_
  rw [heq, Py.Path.name_concat, Py.Path.name_concat]

/-- Copying an image leaves the sources as they were. -/
theorem stageFile_keeps_sources {bytes : Path → ByteArray} (ha : Apart sources) (hs : s ∈ sources)
    (hw : ∀ s ∈ sources, w.fs.fileAt s = some (bytes s))
    (h : stageFile env s (imageTarget root firmware s) w = (.ok (), w')) :
    ∀ s ∈ sources, w'.fs.fileAt s = some (bytes s) := by
  obtain ⟨b, hb, hfile, hkeeps⟩ := stageFile_eq_ok (by simp [imageTarget]) h
  intro s' hs'
  by_cases htarget : s' = imageTarget root firmware s
  · -- the image is staged where it stands
    obtain rfl : s = s' := ha.eq_of_name hs hs' (by rw [htarget, name_imageTarget])
    rw [htarget, hfile, ← htarget, ← hb, hw s hs]
  · refine hkeeps s' _ (hw s' hs') fun hlost => ?_
    rcases hlost with hname | heq
    · have := (ha.names s' hs').2
      rw [hname, not_endsWith_temporary] at this
      cases this
    · exact htarget heq

/-- Copying another file leaves a staged image as it was. -/
theorem stageFile_keeps_target {source target : Path} {b : ByteArray} (hne : target ≠ [])
    (hsuffix : Py.endsWith s.name ".qcow2" = true) (htarget : imageTarget root firmware s ≠ target)
    (hw : w.fs.fileAt (imageTarget root firmware s) = some b)
    (h : stageFile env source target w = (.ok (), w')) :
    w'.fs.fileAt (imageTarget root firmware s) = some b := by
  obtain ⟨-, -, -, hkeeps⟩ := stageFile_eq_ok hne h
  refine hkeeps _ _ hw fun hlost => ?_
  rcases hlost with hname | heq
  · rw [name_imageTarget] at hname
    rw [hname, not_endsWith_temporary] at hsuffix
    cases hsuffix
  · exact htarget heq

/-- **After the loop over the targets each image is staged with the bytes of its source.** -/
theorem targets_staged {bytes : Path → ByteArray} (ha : Apart sources)
    (hw : ∀ s ∈ sources, w.fs.fileAt s = some (bytes s))
    (h : Eff.forEach (fun item => stageFile env item.1 item.2) (targetsOf root sources firmware) w =
      (.ok (), w')) :
    ∀ s ∈ sources, w'.fs.fileAt (imageTarget root firmware s) = some (bytes s) := by
  rw [targetsOf_eq root firmware (List.Nodup.of_map _ ha.nodup)] at h
  obtain ⟨w₁, himages, hfirmware⟩ := Eff.forEach_append_eq_ok h
  have hpairs : (sources.map fun s => (s, imageTarget root firmware s)).Pairwise
      fun x y => Py.endsWith x.1.name ".qcow2" = true ∧ x.1.name ≠ y.1.name :=
    List.pairwise_map.2 ((List.pairwise_map.1 ha.nodup).imp_of_mem
      fun hs _ hne => ⟨(ha.names _ hs).2, hne⟩)
  have hinv : ∀ x ∈ sources.map (fun s => (s, imageTarget root firmware s)), ∀ w w',
      (∀ s ∈ sources, w.fs.fileAt s = some (bytes s)) → stageFile env x.1 x.2 w = (.ok (), w') →
        ∀ s ∈ sources, w'.fs.fileAt s = some (bytes s) := by
    intro x hx w w' hw hstage
    obtain ⟨s, hs, rfl⟩ := List.mem_map.1 hx
    exact stageFile_keeps_sources ha hs hw hstage
  have hnew : ∀ x ∈ sources.map (fun s => (s, imageTarget root firmware s)), ∀ w w',
      (∀ s ∈ sources, w.fs.fileAt s = some (bytes s)) → stageFile env x.1 x.2 w = (.ok (), w') →
        w'.fs.fileAt (imageTarget root firmware x.1) = some (bytes x.1) := by
    intro x hx w w' hw hstage
    obtain ⟨s, hs, rfl⟩ := List.mem_map.1 hx
    obtain ⟨b, hb, hfile, -⟩ := stageFile_eq_ok (by simp [imageTarget]) hstage
    rw [hfile, ← hb, hw s hs]
  have hstaged := Eff.forEach_establishes_under hpairs hinv hnew (fun x hx y hxy w w' hy hstage => by
    obtain ⟨s, hs, rfl⟩ := List.mem_map.1 hx
    refine stageFile_keeps_target (by simp [imageTarget]) hxy.1 (fun heq => hxy.2 ?_) hy hstage
    rw [← name_imageTarget root firmware y.1, heq, name_imageTarget]) himages hw
  intro s hs
  refine Eff.forEach_preserves
    (P := fun w => w.fs.fileAt (imageTarget root firmware s) = some (bytes s))
    (fun x hx w w' hw hstage => ?_) hfirmware (hstaged _ (List.mem_map_of_mem hs))
  -- the firmware that is no image comes last, and goes to another directory
  split_ifs at hx with hmem
  · cases hx
  · obtain rfl := List.mem_singleton.1 hx
    have hother : s ≠ firmware := fun heq => hmem (heq ▸ hs)
    refine stageFile_keeps_target (by simp) (ha.names s hs).2 ?_ hw hstage
    simp [imageTarget, hother, ConfigRoot.images, ConfigRoot.firmware]

theorem lookup_targetsOf (root : ConfigRoot) (firmware : Path) (h : sources.Nodup)
    (hs : s ∈ sources) :
    (targetsOf root sources firmware).lookup s = some (imageTarget root firmware s) := by
  rw [targetsOf_eq root firmware h]
  refine Py.Dict.lookup_of_mem ?_ (List.mem_append_left _ (List.mem_map_of_mem hs))
  have hkeys : (sources.map fun s => (s, imageTarget root firmware s)).map Prod.fst = sources := by
    rw [List.map_map]
    exact List.map_id sources
  rw [List.map_append, hkeys]
  split_ifs with hmem
  · simpa using h
  · exact List.nodup_append.2 ⟨h, List.nodup_singleton _, fun x hx y hy => by
      obtain rfl := List.mem_singleton.1 hy
      exact fun heq => hmem (heq ▸ hx)⟩

/-- The text of the place of a staged image names the copy. -/
theorem namedFile_imageTarget {fs : FileSystem} {b : ByteArray} (cwd : Path)
    (hname : Py.IsName s.name) (h : fs.fileAt (imageTarget root firmware s) = some b) :
    Py.namedFile fs cwd (imageTarget root firmware s).text = some b := by
  refine Py.namedFile_text (fun name hmem => ?_) h
  have hfixed : Py.IsName "state" ∧ Py.IsName "images" ∧ Py.IsName "firmware" := by decide
  unfold imageTarget ConfigRoot.images ConfigRoot.firmware ConfigRoot.state at hmem
  have hcases : name ∈ root.path ∨ name = "state" ∨ name = "images" ∨ name = "firmware" ∨
      name = s.name := by
    split_ifs at hmem <;> simp only [List.mem_append, List.mem_singleton] at hmem <;> tauto
  rcases hcases with hroot | rfl | rfl | rfl | rfl
  · exact root.names name hroot
  · exact hfixed.1
  · exact hfixed.2.1
  · exact hfixed.2.2
  · exact hname

end Copies

/-! ### The manifest -/

/-- The entry of a manifest under a reference: a path and a hash. -/
def manifestEntry (manifest : Value) (reference : String) : Option (String × String) :=
  manifest.asDict.bind fun items =>
  (items.get "images").asDict.bind fun images =>
  (images.get reference).asDict.bind fun entry =>
  (entry.get "path").asStr.bind fun path =>
  (entry.get "sha256").asStr.map fun digest => (path, digest)

/-- The entry of a source, from what stands at its target. -/
def entryOf (targets : List (Path × Path)) (fs : FileSystem) (source : Path) : Value :=
  let target := (targets.lookup source).getD []
  stagedFile target (Py.sha256 ((fs.fileAt target).getD .empty))

/-- The images of the manifest. -/
def manifestItems (targets : List (Path × Path)) (fs : FileSystem) (sources : List Path)
    (items : Items) : Items :=
  sources.foldl
    (fun items s => Py.Json.assign items (imageReference s.name) (entryOf targets fs s)) items

section Manifest

variable {env : Env} {w w' : World} {root : ConfigRoot} {sources : List Path}
  {targets : List (Path × Path)} {items items' : Items} {manifest : Value}

theorem storable_stagedFile (target : Path) (digest : String) :
    Py.Json.Storable (stagedFile target digest) := by
  simp [stagedFile]

theorem sortItems_pair (k l : String) (v u : Value) :
    Py.Json.sortItems [(.str k, v), (.str l, u)] =
      .ok (if k ≤ l then [(.str k, v), (.str l, u)] else [(.str l, u), (.str k, v)]) := by
  simp only [Py.Json.sortItems, List.length_cons, List.length_nil, List.all_cons, List.all_nil,
    List.insertionSort, Py.Scalar.text]
  simp

theorem sortKeys_stagedFile (target : Path) (digest : String) :
    Py.Json.sortKeys (stagedFile target digest) = .ok (stagedFile target digest) := by
  have hkeys : "path" ≤ "sha256" := by decide
  simp only [stagedFile, Py.Json.sortKeys, Py.Json.sortKeysItems, Except.bind, Except.map,
    sortItems_pair, if_pos hkeys]

/-- The images come after the firmware. -/
theorem sortKeys_manifestOf {firmware sorted : Value}
    (h : Py.Json.sortKeys (manifestOf items firmware) = .ok sorted) : ∃ images firmware',
      Py.Json.sortKeys (.dict items) = .ok (.dict images) ∧
        sorted = .dict [(.str "firmware", firmware'), (.str "images", .dict images)] := by
  have hkeys : ¬ "images" ≤ "firmware" := by decide
  rw [manifestOf, Py.Json.sortKeys] at h
  obtain ⟨values, hvalues, h⟩ := Py.bind_eq_ok.1 h
  obtain ⟨pair, hpair, rfl⟩ := Py.map_eq_ok.1 h
  rw [Py.Json.sortKeysItems] at hvalues
  obtain ⟨first, hfirst, hvalues⟩ := Py.bind_eq_ok.1 hvalues
  obtain ⟨rest, hrest, rfl⟩ := Py.map_eq_ok.1 hvalues
  rw [Py.Json.sortKeysItems] at hrest
  obtain ⟨second, -, hrest⟩ := Py.bind_eq_ok.1 hrest
  obtain ⟨last, hlast, rfl⟩ := Py.map_eq_ok.1 hrest
  rw [Py.Json.sortKeysItems] at hlast
  cases hlast
  rw [sortItems_pair, if_neg hkeys] at hpair
  cases hpair
  obtain ⟨_, images, rfl, -, -⟩ := Py.Json.sortKeys_dict hfirst
  exact ⟨images, second, hfirst, rfl⟩

theorem storable_manifestOf {firmware : Value} (hitems : Py.Json.Storable (.dict items))
    (hfirmware : Py.Json.Storable firmware) : Py.Json.Storable (manifestOf items firmware) := by
  refine Py.Json.storable_dict_iff.2 ⟨by simp, by simp, ?_⟩
  exact List.forall_mem_cons.2 ⟨hitems, List.forall_mem_cons.2 ⟨hfirmware, by simp⟩⟩

theorem imageReference_injective : Function.Injective imageReference :=
  fun _ _ h => (String.append_right_inj _).1 h

theorem listImages_eq_ok (h : listImages env targets sources items w = (.ok items', w')) :
    w'.fs = w.fs ∧ items' = manifestItems targets w.fs sources items := by
  induction sources generalizing items w with
  | nil =>
    obtain ⟨rfl, rfl⟩ := Eff.pure_eq_ok h
    exact ⟨rfl, rfl⟩
  | cons s sources ih =>
    obtain ⟨target, htarget, h⟩ := Eff.bind_lift_eq_ok h
    obtain ⟨digest, w₁, hdigest, h⟩ := Eff.bind_eq_ok h
    obtain ⟨hdigest, hsame⟩ := Py.inspect_eq_ok hdigest
    obtain ⟨bytes, hbytes, rfl⟩ := Py.map_eq_ok.1 hdigest
    obtain ⟨hfs, rfl⟩ := ih h
    have hentry : entryOf targets w.fs s = stagedFile target (Py.sha256 bytes) := by
      unfold targetOf at htarget
      split at htarget
      · rename_i hlookup
        cases htarget
        rw [entryOf, hlookup, Option.getD_some, FileSystem.read_eq_ok.1 hbytes, Option.getD_some]
      · cases htarget
    rw [hsame] at hfs ⊢
    exact ⟨hfs, by rw [manifestItems, manifestItems, List.foldl_cons, hentry]⟩

/-- Every image of the manifest is the entry of a source under its reference. -/
theorem mem_manifestItems {fs : FileSystem} {p : Py.Scalar × Value}
    (h : p ∈ manifestItems targets fs sources items) :
    p ∈ items ∨ ∃ s ∈ sources, p = (.str (imageReference s.name), entryOf targets fs s) := by
  induction sources generalizing items with
  | nil => exact .inl h
  | cons s sources ih =>
    rcases ih h with h | ⟨s', hs', heq⟩
    · rcases Py.Json.mem_assign h with rfl | h
      · exact .inr ⟨s, List.mem_cons_self, rfl⟩
      · exact .inl h
    · exact .inr ⟨s', List.mem_cons_of_mem _ hs', heq⟩

theorem storable_manifestItems (fs : FileSystem) (h : Py.Json.Storable (.dict items)) :
    Py.Json.Storable (.dict (manifestItems targets fs sources items)) := by
  induction sources generalizing items with
  | nil => exact h
  | cons s sources ih => exact ih (Py.Json.storable_assign h (storable_stagedFile _ _))

/-- Sources with different names have an entry each. -/
theorem manifestItems_eq (fs : FileSystem) (h : (sources.map Path.name).Nodup) :
    manifestItems targets fs sources [] =
      sources.map fun s => (.str (imageReference s.name), entryOf targets fs s) := by
  refine (Py.Json.foldl_assign_new (fun s => imageReference (Path.name s)) _ ?_).trans
    (List.nil_append _)
  have hkeys : (sources.map fun s => Py.Scalar.str (imageReference s.name)) =
      (sources.map Path.name).map fun name => Py.Scalar.str (imageReference name) := by
    rw [List.map_map]
    rfl
  rw [List.map_nil, List.nil_append, hkeys]
  exact h.map fun a b hab => imageReference_injective (Py.Scalar.str.inj hab)

theorem writeManifest_eq_ok (hmanifest : Py.Json.Storable manifest)
    (h : writeManifest env root manifest w = (.ok (), w')) :
    ∃ sorted, Py.Json.sortKeys manifest = .ok sorted ∧
      readManifest env.depth root w'.fs = .ok sorted ∧
        FileSystem.Keeps (fun q => q.dropLast = root.state) w.fs w'.fs := by
  obtain ⟨text, htext, h⟩ := Eff.bind_lift_eq_ok h
  obtain ⟨sorted, hsorted, hencode⟩ := Py.bind_eq_ok.1 htext
  have htemporary : root.manifestPath.withSuffix ".tmp" = root.state ++ ["manifest.tmp"] := by
    have hstem : Py.stem "manifest.json" = "manifest" := by decide
    rw [ConfigRoot.manifestPath, Path.withSuffix, List.dropLast_concat, Py.Path.name_concat, hstem]
    rfl
  rw [htemporary] at h
  obtain ⟨hfile, hkeeps⟩ := Py.write_replace_eq_ok (by simp [ConfigRoot.manifestPath]) h
  have hstorable := (Py.Json.sortKeys_eq hmanifest hsorted).1
  refine ⟨sorted, hsorted, ?_, hkeeps.mono fun q hq => ?_⟩
  · rw [readManifest, FileSystem.read_eq_ok.2 hfile]
    exact Artifacts.loadDocument_text (Py.Json.encode_text _ hencode hstorable).2
      (Py.Json.loads_encode hencode hstorable _ (.inr rfl))
  · rcases hq with rfl | rfl <;> simp [ConfigRoot.manifestPath]

/-- A reference that leads to a staged file leads to it in the manifest that is read back. -/
theorem manifestEntry_of_lookup {firmware sorted : Value} {reference digest : String} {target : Path}
    (hitems : Py.Json.Storable (.dict items))
    (h : Py.Json.sortKeys (manifestOf items firmware) = .ok sorted)
    (hlookup : items.lookup reference = some (stagedFile target digest)) :
    manifestEntry sorted reference = some (target.text, digest) := by
  obtain ⟨images, firmware', himages, rfl⟩ := sortKeys_manifestOf h
  have himage := (Py.Json.lookup_sortKeys hitems himages).2
    ⟨_, hlookup, sortKeys_stagedFile target digest⟩
  have hget : Py.Items.get images reference = stagedFile target digest := by
    rw [Py.Items.get, himage, Option.getD_some]
  have himagesGet : Py.Items.get [(.str "firmware", firmware'), (.str "images", .dict images)]
      "images" = .dict images := rfl
  simp only [manifestEntry, Value.asDict, Option.bind_some, himagesGet, hget]
  rfl

/-- A reference in the manifest that is read back was a key of the images. -/
theorem lookup_of_manifestEntry {firmware sorted : Value} {reference : String}
    {entry : String × String} (hitems : Py.Json.Storable (.dict items))
    (h : Py.Json.sortKeys (manifestOf items firmware) = .ok sorted)
    (hentry : manifestEntry sorted reference = some entry) :
    ∃ v, items.lookup reference = some v := by
  obtain ⟨images, firmware', himages, rfl⟩ := sortKeys_manifestOf h
  cases hlookup : Py.Items.lookup images reference with
  | none =>
    have hget : Py.Items.get images reference = .none := by
      rw [Py.Items.get, hlookup, Option.getD_none]
    have himagesGet : Py.Items.get [(.str "firmware", firmware'), (.str "images", .dict images)]
        "images" = .dict images := rfl
    simp [manifestEntry, Value.asDict, himagesGet, hget] at hentry
  | some v =>
    obtain ⟨u, hu, -⟩ := (Py.Json.lookup_sortKeys hitems himages).1 hlookup
    exact ⟨u, hu⟩

/-- **A manifest whose images are there with their hashes is verified.** -/
theorem verify_eq_nil {depth : ℕ} {cwd : Path} {fs : FileSystem} {firmware sorted : Value}
    (hsorted : Py.Json.sortKeys (manifestOf items firmware) = .ok sorted)
    (hread : readManifest depth root fs = .ok sorted)
    (hitems : ∀ p ∈ items, ∃ target bytes, p.2 = stagedFile target (Py.sha256 bytes) ∧
      Py.namedFile fs cwd target.text = some bytes) :
    verifyStagedArtifacts depth cwd root fs = .ok [] := by
  obtain ⟨bytes, hbytes, -⟩ := Py.bind_eq_ok.1 hread
  have hfile : fs.isFile root.manifestPath = true :=
    FileSystem.isFile_iff.2 ⟨bytes, FileSystem.read_eq_ok.1 hbytes⟩
  obtain ⟨images, firmware', himages, rfl⟩ := sortKeys_manifestOf hsorted
  have himagesGet : Py.Items.get [(.str "firmware", firmware'), (.str "images", .dict images)]
      "images" = .dict images := rfl
  rw [verifyStagedArtifacts, hfile, if_neg (by simp), hread]
  simp only [Value.asDict, himagesGet, Except.ok.injEq, List.flatMap_eq_nil_iff]
  intro q hq
  -- an image that is read back is the one that was written
  obtain ⟨values, _, heq, hperm, hvalues⟩ := Py.Json.sortKeys_dict himages
  cases heq
  obtain ⟨p, hp, -, hsort⟩ := Py.forall₂_mem_right hvalues (hperm.mem_iff.1 hq)
  obtain ⟨target, copy, hstaged, hcopy⟩ := hitems p hp
  rw [hstaged, sortKeys_stagedFile] at hsort
  have hpath : Py.Items.get [(.str "path", .str target.text), (.str "sha256", .str (Py.sha256 copy))]
      "path" = .str target.text := rfl
  have hdigest : Py.Items.get [(.str "path", .str target.text), (.str "sha256",
      .str (Py.sha256 copy))] "sha256" = .str (Py.sha256 copy) := rfl
  rw [← Except.ok.inj hsort, stagedFile, imageProblems]
  simp [Value.asDict, Value.asStr, hpath, hdigest, hcopy]

end Manifest

/-! ### The run -/

/-- What holds of the files after `stage_artifacts`. -/
structure Staged (depth : ℕ) (m : Machine) (root : ConfigRoot) (fs : FileSystem) : Prop where
  /-- Every entry is listed under its own name, with a copy of its bytes and the hash of the copy. -/
  listed : ∀ e ∈ m.images, ∃ manifest path bytes, readManifest depth root fs = .ok manifest ∧
    manifestEntry manifest (imageReference e.name) = some (path, Py.sha256 bytes) ∧
      Py.namedFile fs m.cwd path = some bytes ∧ m.bytesOf e = some bytes
  /-- No two entries are staged at one path. -/
  apart : (m.images.map fun e => (targetsOf root (discoverSourceImages m)
    (sourceFirmware m)).lookup (m.tree.realpath e)).Nodup
  verified : verifyStagedArtifacts depth m.cwd root fs = .ok []

section Run

variable {env : Env} {m : Machine} {root : ConfigRoot} {clock : ℕ} {w' : World}
  {paths : List (String × String)}

theorem requireRegular_eq_ok {path : Path} {description : String} {w w' : World}
    (h : requireRegular env path description w = (.ok (), w')) :
    (∃ bytes, w.fs.fileAt path = some bytes) ∧ w'.fs = w.fs := by
  obtain ⟨regular, w₁, hregular, h⟩ := Eff.bind_eq_ok h
  obtain ⟨hok, hsame⟩ := Py.inspect_eq_ok hregular
  cases hok
  split_ifs at h with hfile
  · obtain ⟨-, rfl⟩ := Eff.pure_eq_ok h
    exact ⟨FileSystem.isFile_iff.1 hfile, hsame⟩
  · cases h

theorem forEach_requireRegular_eq_ok {sources : List Path} {description : String} {w w' : World}
    (h : Eff.forEach (fun source => requireRegular env source description) sources w = (.ok (), w')) :
    (∀ s ∈ sources, ∃ bytes, w.fs.fileAt s = some bytes) ∧ w'.fs = w.fs := by
  induction sources generalizing w with
  | nil =>
    obtain ⟨-, rfl⟩ := Eff.pure_eq_ok h
    exact ⟨by simp, rfl⟩
  | cons s sources ih =>
    obtain ⟨⟨⟩, w₁, hfirst, hrest⟩ := Eff.bind_eq_ok h
    obtain ⟨hfile, hsame⟩ := requireRegular_eq_ok hfirst
    obtain ⟨hfiles, hsame'⟩ := ih hrest
    rw [hsame] at hfiles hsame'
    exact ⟨List.forall_mem_cons.2 ⟨hfile, hfiles⟩, hsame'⟩

/-- What a run that returns has done: the sources are files, they were copied, and then the manifest
was written. -/
theorem stageArtifacts_eq_ok (h : stageArtifacts env m root ⟨m.files, clock⟩ = (.ok paths, w')) :
    discoverSourceImages m = m.images.map m.tree.realpath ∧
      (∀ s ∈ discoverSourceImages m, ∃ bytes, m.files.fileAt s = some bytes) ∧
      ∃ w₁ w₂ w₃ target digest, (∀ q, w₁.fs.fileAt q = m.files.fileAt q) ∧
        Eff.forEach (fun item => stageFile env item.1 item.2)
          (targetsOf root (discoverSourceImages m) (sourceFirmware m)) w₁ = (.ok (), w₂) ∧
        w₃.fs = w₂.fs ∧
        writeManifest env root (manifestOf
          (manifestItems (targetsOf root (discoverSourceImages m) (sourceFirmware m)) w₂.fs
            (discoverSourceImages m) []) (stagedFile target digest)) w₃ = (.ok (), w') := by
  unfold stageArtifacts at h
  split_ifs at h with hempty
  · cases h
  obtain ⟨⟨⟩, w₄, hfirmware, h⟩ := Eff.bind_eq_ok h
  obtain ⟨⟨⟩, w₅, hregular, h⟩ := Eff.bind_eq_ok h
  obtain ⟨⟨⟩, w₁, hdirs, h⟩ := Eff.bind_eq_ok h
  obtain ⟨⟨⟩, w₂, hstage, h⟩ := Eff.bind_eq_ok h
  obtain ⟨items, w₆, hitems, h⟩ := Eff.bind_eq_ok h
  obtain ⟨target, -, h⟩ := Eff.bind_lift_eq_ok h
  obtain ⟨digest, w₃, hdigest, h⟩ := Eff.bind_eq_ok h
  obtain ⟨⟨⟩, w₇, hmanifest, h⟩ := Eff.bind_eq_ok h
  obtain ⟨-, rfl⟩ := Eff.pure_eq_ok h
  -- only the copies and the manifest change files: the checks before them do not
  have hsame := (requireRegular_eq_ok hfirmware).2
  obtain ⟨hfiles, hsame'⟩ := forEach_requireRegular_eq_ok hregular
  obtain ⟨hlist, rfl⟩ := listImages_eq_ok hitems
  rw [hsame] at hfiles
  have hbuild : m.tree.isDir m.build ≠ false := fun hno => hempty (if_pos hno)
  refine ⟨if_neg hbuild, hfiles, w₁, w₂, w₃, target, digest, ?_, hstage,
    (Py.inspect_eq_ok hdigest).2.trans hlist, hmanifest⟩
  refine Eff.forEach_preserves (P := fun w => ∀ q, w.fs.fileAt q = m.files.fileAt q)
    (fun p _ w w' hw hmk q => (Py.fileAt_of_mkdirs hmk).trans (hw q)) hdirs fun q => ?_
  rw [hsame', hsame]

/-- A reference in the manifest is that of a resolved name. -/
theorem exists_resolved_name (h : stageArtifacts env m root ⟨m.files, clock⟩ = (.ok paths, w'))
    {manifest : Value} {name : String} {entry : String × String}
    (hread : readManifest env.depth root w'.fs = .ok manifest)
    (hentry : manifestEntry manifest (imageReference name) = some entry) :
    ∃ e ∈ m.images, (m.tree.realpath e).name = name := by
  obtain ⟨hsources, -, w₁, w₂, w₃, target, digest, -, -, -, hmanifest⟩ := stageArtifacts_eq_ok h
  have hitems : Py.Json.Storable (.dict (manifestItems
      (targetsOf root (discoverSourceImages m) (sourceFirmware m)) w₂.fs
        (discoverSourceImages m) [])) := storable_manifestItems _ (by simp)
  have hstorable := storable_manifestOf hitems (storable_stagedFile target digest)
  obtain ⟨sorted, hsorted, hread', -⟩ := writeManifest_eq_ok hstorable hmanifest
  obtain rfl := Except.ok.inj (hread.symm.trans hread')
  obtain ⟨v, hv⟩ := lookup_of_manifestEntry hitems hsorted hentry
  rcases mem_manifestItems (Py.Dict.mem_of_lookup hv) with hnil | ⟨s, hs, heq⟩
  · cases hnil
  · rw [hsources] at hs
    obtain ⟨e, he, rfl⟩ := List.mem_map.1 hs
    exact ⟨e, he, (imageReference_injective (Py.Scalar.str.inj (Prod.mk.inj heq).1)).symm⟩

/-- **Sources with the names of images, each once, are staged and listed, and the manifest is
verified.** -/
theorem staged_of_apart (h : stageArtifacts env m root ⟨m.files, clock⟩ = (.ok paths, w'))
    (ha : Apart (discoverSourceImages m)) :
    ∃ manifest, readManifest env.depth root w'.fs = .ok manifest ∧
      (∀ s ∈ discoverSourceImages m, ∃ bytes, m.files.fileAt s = some bytes ∧
        manifestEntry manifest (imageReference s.name) =
          some ((imageTarget root (sourceFirmware m) s).text, Py.sha256 bytes) ∧
        w'.fs.fileAt (imageTarget root (sourceFirmware m) s) = some bytes) ∧
      verifyStagedArtifacts env.depth m.cwd root w'.fs = .ok [] := by
  obtain ⟨-, hfiles, w₁, w₂, w₃, target, digest, hdirs, hstage, hsame, hmanifest⟩ :=
    stageArtifacts_eq_ok h
  have hnodup := List.Nodup.of_map _ ha.nodup
  choose! bytes hbytes using hfiles
  have hcopies := targets_staged ha (fun s hs => (hdirs s).trans (hbytes s hs)) hstage
  have hentry : ∀ s ∈ discoverSourceImages m,
      entryOf (targetsOf root (discoverSourceImages m) (sourceFirmware m)) w₂.fs s =
        stagedFile (imageTarget root (sourceFirmware m) s) (Py.sha256 (bytes s)) := by
    intro s hs
    rw [entryOf, lookup_targetsOf root _ hnodup hs, Option.getD_some, hcopies s hs, Option.getD_some]
  have hitems : Py.Json.Storable (.dict (manifestItems
      (targetsOf root (discoverSourceImages m) (sourceFirmware m)) w₂.fs
        (discoverSourceImages m) [])) := storable_manifestItems _ (by simp)
  have hstorable := storable_manifestOf hitems (storable_stagedFile target digest)
  obtain ⟨sorted, hsorted, hread, hkeeps⟩ := writeManifest_eq_ok hstorable hmanifest
  have hfinal : ∀ s ∈ discoverSourceImages m,
      w'.fs.fileAt (imageTarget root (sourceFirmware m) s) = some (bytes s) := by
    intro s hs
    refine hkeeps _ _ (hsame ▸ hcopies s hs) fun hlost => ?_
    -- the manifest stands in the state directory, a staged image below it
    rw [imageTarget, List.dropLast_concat] at hlost
    split_ifs at hlost <;> simp [ConfigRoot.images, ConfigRoot.firmware] at hlost
  refine ⟨sorted, hread, fun s hs => ⟨bytes s, hbytes s hs, ?_, hfinal s hs⟩, ?_⟩
  · refine manifestEntry_of_lookup hitems hsorted
      (Py.Dict.lookup_of_mem (Py.Json.storable_dict_iff.1 hitems).2.1 ?_)
    rw [manifestItems_eq _ ha.nodup, ← hentry s hs]
    exact List.mem_map_of_mem hs
  · refine verify_eq_nil hsorted hread fun p hp => ?_
    rw [manifestItems_eq _ ha.nodup] at hp
    obtain ⟨s, hs, rfl⟩ := List.mem_map.1 hp
    exact ⟨_, bytes s, hentry s hs, namedFile_imageTarget _ (ha.names s hs).1 (hfinal s hs)⟩

theorem apart_of_resolved (hsources : discoverSourceImages m = m.images.map m.tree.realpath)
    (h : ∀ e ∈ m.images, ∃ e' ∈ m.images, (m.tree.realpath e').name = e.name) :
    Apart (discoverSourceImages m) := by
  have hperm := resolved_names_perm h
  rw [← hsources] at hperm
  refine ⟨hperm.nodup_iff.2 (nodup_names_images m), fun s hs => ?_⟩
  obtain ⟨e, he, heq⟩ := List.mem_map.1 (hperm.mem_iff.1 (List.mem_map_of_mem hs))
  exact heq ▸ name_of_mem_images he

/-- **What `stage_artifacts` achieves.**  After a run that returns every image below `build/` is
staged under its own name, none in the place of another, and the manifest is verified, if and only
if every image has one with its bytes that resolves to a file of its name. -/
theorem staged_iff (h : stageArtifacts env m root ⟨m.files, clock⟩ = (.ok paths, w')) :
    Staged env.depth m root w'.fs ↔
      ∀ e ∈ m.images, ∃ e' ∈ m.images,
        (m.tree.realpath e').name = e.name ∧ m.bytesOf e' = m.bytesOf e := by
  have hsources := (stageArtifacts_eq_ok h).1
  constructor
  · intro hs e he
    have hnames : ∀ e ∈ m.images, ∃ e' ∈ m.images, (m.tree.realpath e').name = e.name := by
      intro e he
      obtain ⟨manifest, path, bytes, hread, hentry, -, -⟩ := hs.listed e he
      exact exists_resolved_name h hread hentry
    have ha := apart_of_resolved hsources hnames
    obtain ⟨manifest, hread, hstaged, -⟩ := staged_of_apart h ha
    obtain ⟨e', he', hname⟩ := hnames e he
    obtain ⟨manifest', path, bytes, hread', hentry', hcopy', hbytes'⟩ := hs.listed e he
    obtain rfl := Except.ok.inj (hread.symm.trans hread')
    have hmem : m.tree.realpath e' ∈ discoverSourceImages m := hsources ▸ List.mem_map_of_mem he'
    obtain ⟨copied, hcopied, hentry, hcopy⟩ := hstaged _ hmem
    -- both say what stands where the manifest has the name of the entry
    rw [hname, hentry'] at hentry
    obtain ⟨rfl, -⟩ := Prod.mk.inj (Option.some.inj hentry)
    rw [namedFile_imageTarget m.cwd (ha.names _ hmem).1 hcopy] at hcopy'
    refine ⟨e', he', hname, ?_⟩
    rw [hbytes', ← hcopy']
    exact hcopied
  · intro hcover
    have ha := apart_of_resolved hsources fun e he =>
      (hcover e he).imp fun _ ⟨he', hname, _⟩ => ⟨he', hname⟩
    obtain ⟨manifest, hread, hstaged, hverified⟩ := staged_of_apart h ha
    refine ⟨fun e he => ?_, ?_, hverified⟩
    · obtain ⟨e', he', hname, hbytes⟩ := hcover e he
      have hmem : m.tree.realpath e' ∈ discoverSourceImages m := hsources ▸ List.mem_map_of_mem he'
      obtain ⟨bytes, hsource, hentry, hcopy⟩ := hstaged _ hmem
      exact ⟨manifest, _, bytes, hread, hname ▸ hentry,
        namedFile_imageTarget m.cwd (ha.names _ hmem).1 hcopy, hbytes.symm.trans hsource⟩
    · have htargets : (m.images.map fun e => (targetsOf root (discoverSourceImages m)
          (sourceFirmware m)).lookup (m.tree.realpath e)) =
          (discoverSourceImages m).map fun s => some (imageTarget root (sourceFirmware m) s) := by
        have hlookups := congrArg (List.map fun s => (targetsOf root (discoverSourceImages m)
          (sourceFirmware m)).lookup s) hsources
        rw [List.map_map] at hlookups
        exact hlookups.symm.trans (List.map_congr_left fun s hs =>
          lookup_targetsOf root _ (List.Nodup.of_map _ ha.nodup) hs)
      rw [htargets]
      refine List.Nodup.of_map (fun target => (target.map Path.name).getD "") ?_
      rw [List.map_map]
      simpa [Function.comp_def] using ha.nodup

end Run

/-! ### Two machines -/

/-- A tree in which the one image below `build/` is a link to a file of another name. -/
def linkingTree : Tree where
  entries := [(["build"], .dir), (["build", "CLOUDHV.fd"], .file ""),
    (["build", "k8labs-base.qcow2"], .link "/images/v1.qcow2"), (["images"], .dir),
    (["images", "v1.qcow2"], .file "")]
  nodup := by simp
  names := by
    have hnames : Py.IsName "build" ∧ Py.IsName "CLOUDHV.fd" ∧ Py.IsName "k8labs-base.qcow2" ∧
        Py.IsName "images" ∧ Py.IsName "v1.qcow2" := by decide
    simp [hnames]
  parent_dir := by simp

/-- A tree with two images below `build/`: a link to a file of its own name, and a file. -/
def twoImages : Tree where
  entries := [(["build"], .dir), (["build", "CLOUDHV.fd"], .file ""),
    (["build", "k8labs-base.qcow2"], .link "/images/k8labs-base.qcow2"),
    (["build", "k8labs-node.qcow2"], .file ""), (["images"], .dir),
    (["images", "k8labs-base.qcow2"], .file "")]
  nodup := by simp
  names := by
    have hnames : Py.IsName "build" ∧ Py.IsName "CLOUDHV.fd" ∧ Py.IsName "k8labs-base.qcow2" ∧
        Py.IsName "k8labs-node.qcow2" ∧ Py.IsName "images" := by decide
    simp [hnames]
  parent_dir := by simp

/-- Both images keep their names, and every file holds its own. -/
def keepingMachine : Machine where
  tree := twoImages
  bytes p := p.name.toByteArray
  cwd := []

/-- The image loses its name. -/
def renamingMachine : Machine where
  tree := linkingTree
  bytes _ := .empty
  cwd := []

def agentRoot : ConfigRoot := ⟨["agent"], by decide, by decide⟩

/-- The run in which nothing is broken off. -/
def calmRun (m : Machine) : Except Exc (List (String × String)) × World :=
  stageArtifacts (Artifacts.calmEnv fun _ => []) m agentRoot ⟨m.files, 0⟩

theorem returns_of_toOption {m : Machine} (h : (calmRun m).1.toOption.isSome = true) :
    ∃ paths w', calmRun m = (.ok paths, w') := by
  cases hrun : calmRun m with
  | mk r w' =>
    cases r with
    | ok paths => exact ⟨paths, w', rfl⟩
    | error e => simp [hrun, Except.toOption] at h

theorem staged_keepingMachine : ∃ paths w', calmRun keepingMachine = (.ok paths, w') ∧
    Staged 900 keepingMachine agentRoot w'.fs := by
  obtain ⟨paths, w', hrun⟩ := returns_of_toOption (m := keepingMachine) (by decide +kernel)
  exact ⟨paths, w', hrun, (staged_iff hrun).2 (by decide +kernel)⟩

/-- The image is staged, but not under the name by which the manager asks for it. -/
theorem renamed_image : ∃ paths w', calmRun renamingMachine = (.ok paths, w') ∧
    ¬ Staged 900 renamingMachine agentRoot w'.fs := by
  obtain ⟨paths, w', hrun⟩ := returns_of_toOption (m := renamingMachine) (by decide +kernel)
  refine ⟨paths, w', hrun, fun hs => ?_⟩
  have hmem : ["build", "k8labs-base.qcow2"] ∈ renamingMachine.images := by decide +kernel
  obtain ⟨manifest, path, bytes, hread, hentry, -, -⟩ := hs.listed _ hmem
  obtain ⟨e, he, hname⟩ := exists_resolved_name hrun hread hentry
  have hother : ∀ e ∈ renamingMachine.images,
      (renamingMachine.tree.realpath e).name ≠ "k8labs-base.qcow2" := by decide +kernel
  exact hother e he hname

end Staging
