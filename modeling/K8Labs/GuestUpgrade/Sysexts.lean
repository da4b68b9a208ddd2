import K8Labs.Artifacts.Lifecycle
import K8Labs.Python.Disk
import K8Labs.Python.Document
import K8Labs.Python.Shutil

/-!
# Building the system extensions of an upgrade stage

`scripts/build_guest_upgrade_sysexts.py`, and `extensions/build.sh` as far as it packs a system
extension.  `buildStage` is `build_stage`: it checks the locked artifacts, fills a temporary directory
beside the output and renames it.  Every call may be broken off by the environment.

What `tarfile` and the image tools do is a parameter: `OpenTar` lists the members of an archive, and
`Tools` are the programs that `build.sh` looks for.
-/

namespace GuestUpgrade

open Py (Exc Value Items Path FileSystem Eff Env World valueError)
open Artifacts (Artifact UrlParse Listing)

/-! ### Extensions and their binaries -/

/-- The keys of `STAGE_BINARIES`. -/
inductive Extension where
  | kubelet
  | kubernetesCp
  | criO
  deriving DecidableEq

/-- The keys in the order of the dictionary. -/
def extensions : List Extension := [.kubelet, .kubernetesCp, .criO]

namespace Extension

/-- The key itself. -/
def name : Extension → String
  | kubelet => "kubelet"
  | kubernetesCp => "kubernetes-cp"
  | criO => "cri-o"

/-- `STAGE_BINARIES[extension]`. -/
def binaries : Extension → List String
  | kubelet => ["kubelet"]
  | kubernetesCp => ["kube-apiserver", "kube-controller-manager", "kube-scheduler", "kubectl"]
  | criO => ["crio", "crictl", "pinns"]

/-- The field of a stage that names the artifact. -/
def field : Extension → String
  | kubelet => "kubelet_artifact"
  | kubernetesCp => "control_plane_artifact"
  | criO => "cri_o_artifact"

/-- The file name of the image. -/
def rawName (extension : Extension) : String := extension.name ++ ".raw"

end Extension

/-! ### Templates -/

/-- `usr/bin` of a source tree. -/
def binDir : Path := ["usr", "bin"]

/-- The tree without some files of `usr/bin`. -/
def withoutBinaries (tree : FileSystem) (binaries : List String) : FileSystem :=
  binaries.foldl (fun t binary => t.place (binDir ++ [binary]) .empty) tree

section Sources

variable (env : Env)

/-- The error of a missing template. -/
def missingTemplate (template : Path) : Exc :=
  ⟨.fileNotFoundError, "sysext template directory is missing: " ++ template.text⟩

/-- `_copy_template`. -/
def copyTemplate (template destination : Path) (extension : Extension) : Eff Unit := do
  let isDir ← Py.inspect env fun fs => .ok (fs.isDir template)
  if isDir then
    Py.copyTree env (fun fs => withoutBinaries (fs.subtree template) extension.binaries) destination
  else Eff.throw (missingTemplate template)

/-- `_copy_locked_binary`. -/
def copyLockedBinary (source destination : Path) : Eff Unit := do
  Py.mkdirs env destination.dropLast
  Py.copyFile env source destination
  let size ← Py.fileSize env destination
  if size = 0 then Eff.lift (valueError ("locked binary is empty: " ++ source.text))
  else Py.chmod env destination

/-! ### Archives -/

/-- A member of an archive. -/
structure TarInfo where
  name : String
  isReg : Bool
  /-- What reading the member returns; `none` where `extractfile` returns `None`. -/
  content : Except Exc (Option ByteArray)

/-- `tarfile.open(…, mode="r:gz").getmembers()` of the bytes of an archive. -/
abbrev OpenTar := ByteArray → Except Exc (List TarInfo)

/-- The values of `layout` that `build_stage` passes. -/
inductive Layout where
  | kubernetesServer
  | criO

/-- `_member_matches`. -/
def memberMatches (name binary : String) (layout : Layout) : Bool :=
  let parts := Py.pathParts name
  if Py.isAbsolute name || parts.contains ".." then false
  else
    match layout with
    | .criO => ["bin", binary].isSuffixOf parts
    | .kubernetesServer =>
      [["kubernetes", "server", "bin", binary], ["server", "bin", binary], ["bin", binary]].contains
        parts

/-- `matches[binary]`. -/
def matching (members : List TarInfo) (layout : Layout) (binary : String) : List TarInfo :=
  members.filter fun member => member.isReg && memberMatches member.name binary layout

/-- The one member for a binary. -/
def selectMember (archive : String) (members : List TarInfo) (layout : Layout) (binary : String) :
    Except Exc (String × TarInfo) :=
  match matching members layout binary with
  | [member] => .ok (binary, member)
  | found => valueError (archive ++ " must contain exactly one " ++ binary ++ " binary; found " ++
      toString found.length)

/-- One binary is taken out of the archive. -/
def extractMember (archive : String) (destination : Path) (selected : String × TarInfo) : Eff Unit := do
  let target := destination ++ [selected.1]
  match selected.2.content with
  | .ok none => Eff.lift (valueError ("unable to read " ++ selected.1 ++ " from " ++ archive))
  | content =>
    -- the target is opened before the first byte is read
    Py.writeFile env target .empty
    let bytes ← Eff.lift content
    Py.writeFile env target (bytes.getD .empty)
    let size ← Py.fileSize env target
    if size = 0 then
      Eff.lift (valueError (selected.1 ++ " extracted as an empty file from " ++ archive))
    else Py.chmod env target

/-- `_extract_archive_binaries`. -/
def extractArchiveBinaries (openTar : OpenTar) (archive destination : Path) (binaries : List String)
    (layout : Layout) : Eff Unit := do
  let members ← Py.inspect env fun fs => (fs.read archive).bind openTar
  let selected ← Eff.lift (Py.traverse (selectMember archive.name members layout) binaries)
  Py.mkdirs env destination
  Eff.forEach (extractMember env archive.name destination) selected

end Sources

/-! ### The image builder -/

/-- How a command ends. -/
structure Ran where
  code : ℤ
  stdout : String
  stderr : String

/-- How an image tool ends, and the image it has written. -/
structure Packed where
  ran : Ran
  image : Option ByteArray

/-- What `build.sh` finds on the machine; the first argument is the number of calls before. -/
structure Tools where
  mksquashfs : Option (ℕ → FileSystem → Packed)
  genisoimage : Option (ℕ → FileSystem → Packed)
  /-- `find` names a file of the source that is newer than the image. -/
  newer : ℕ → Bool
  /-- The names in a directory. -/
  listing : Listing

/-- The tool that packs a tree. -/
def Tools.packer (tools : Tools) : Option (ℕ → FileSystem → Packed) :=
  tools.mksquashfs.or tools.genisoimage

/-- `die`. -/
def die (message : String) : Ran := ⟨1, "", "Error: " ++ message ++ "\n"⟩

/-- The directory of the release metadata. -/
def releaseDir (source : Path) : Path := source ++ ["usr", "lib", "extension-release.d"]

/-- What `build.sh` dies of before it builds. -/
def refuses (tools : Tools) (fs : FileSystem) (source : Path) (name : String) : Option String :=
  if ¬ fs.isDir source then some ("source directory not found: " ++ source.text)
  else if ¬ fs.isDir (source ++ ["usr"]) then some "sysext must have usr/ directory"
  else if ¬ fs.isDir (releaseDir source) then
    some "sysext must have usr/lib/extension-release.d/ directory"
  else if fs.isFile (releaseDir source ++ ["extension-release." ++ name]) then none
  else if (tools.listing fs (releaseDir source)).any fun file =>
      file.toList.head? != some '.' && ".sysext".toList.isSuffixOf file.toList then
    some ("sysext metadata must be named extension-release." ++ name ++
      ", found legacy .sysext naming in usr/lib/extension-release.d/ (rename it)")
  else some ("sysext must carry usr/lib/extension-release.d/extension-release." ++ name)

/-- `build.sh sysext SOURCE NAME`, from a directory in which `release` holds what it builds. -/
def buildSh (tools : Tools) (n : ℕ) (directory source : Path) (name : String) (fs : FileSystem) :
    Ran × FileSystem :=
  match refuses tools fs source name with
  | some message => (die message, fs)
  | none =>
    let fs := fs.ensure (directory ++ ["release"])
    let output := directory ++ ["release", name ++ ".raw"]
    let upToDate := tools.mksquashfs.isSome && fs.isFile output && !tools.newer n
    match tools.packer with
    | some pack =>
      if upToDate then (⟨0, "SKIP: " ++ name ++ ".raw is up to date\n", ""⟩, fs)
      else
        let packed := pack n (fs.subtree source)
        (packed.ran, packed.image.elim fs fun bytes => fs.place output (.single (.file bytes)))
    | none =>
      (⟨0, "", "Warning: neither mksquashfs nor genisoimage found, falling back to directory mode\n"⟩,
        fs.place (directory ++ ["release", name]) (fs.subtree source))

/-! ### One stage -/

section Stage

variable (urlparse : UrlParse) (env : Env) (openTar : OpenTar) (tools : Tools)

/-- An entry of `images`. -/
structure Image where
  extension : Extension
  sha256 : String
  size : ℕ

/-- The dictionary. -/
def Image.toValue (image : Image) : Value :=
  .dict [(.str "name", .str image.extension.name),
    (.str "path", .str ("images/" ++ image.extension.rawName)), (.str "sha256", .str image.sha256),
    (.str "size_bytes", .int image.size)]

/-- `inventory[artifact_id]`; of two entries with one id the later stays. -/
def findArtifact (inventory : List Artifact) (id : Value) : Except Exc Artifact :=
  id.hashed.bind fun key =>
    match inventory.reverse.find? fun item => key.eq (.str item.id) with
    | some item => .ok item
    | none => valueError ("upgrade matrix references an unknown artifact: " ++ id.text)

/-- The artifact in the cache, with the locked digest. -/
def lockedArtifact (lock : Items) (cacheRoot : Path) (inventory : List Artifact) (id : Value) :
    Eff Path := do
  let item ← Eff.lift (findArtifact inventory id)
  let directory ← Eff.lift (Artifacts.cacheDir env.depth lock cacheRoot)
  let path := directory.join item.cachePath
  let isFile ← Py.inspect env fun fs => .ok (fs.isFile path)
  if ¬ isFile then
    Eff.throw ⟨.fileNotFoundError, "missing locked artifact " ++ id.text ++ ": " ++ path.text⟩
  else
    let digest ← Py.inspect env fun fs => (fs.read path).map Py.sha256
    if digest ≠ item.sha256 then
      Eff.lift (valueError ("checksum mismatch for locked artifact " ++ id.text))
    else pure path

/-- What the stage is built from. -/
structure Inputs where
  /-- `artifact_ids`. -/
  ids : Extension → Value
  /-- `artifact_paths`. -/
  paths : Extension → Path

/-- A function on the extensions, by its values. -/
def perExtension {α : Type} (kubelet kubernetesCp criO : α) : Extension → α
  | .kubelet => kubelet
  | .kubernetesCp => kubernetesCp
  | .criO => criO

/-- The artifacts of the stage are looked up and hashed. -/
def checkInputs (lock : Items) (cacheRoot : Path) (stage : Items) : Eff Inputs := do
  let kubelet ← Eff.lift ((Value.dict stage).index Extension.kubelet.field)
  let controlPlane ← Eff.lift ((Value.dict stage).index Extension.kubernetesCp.field)
  let criO ← Eff.lift ((Value.dict stage).index Extension.criO.field)
  let inventory ← Eff.lift (Artifacts.kubernetesUpgradeInventory urlparse lock)
  let kubeletPath ← lockedArtifact env lock cacheRoot inventory kubelet
  let controlPlanePath ← lockedArtifact env lock cacheRoot inventory controlPlane
  let criOPath ← lockedArtifact env lock cacheRoot inventory criO
  pure ⟨perExtension kubelet controlPlane criO, perExtension kubeletPath controlPlanePath criOPath⟩

/-- The template of an extension. -/
def templateOf (repoRoot : Path) (extension : Extension) : Path :=
  repoRoot ++ ["sysext", extension.name]

/-- `repo_root / "extensions" / "build.sh"`. -/
def buildScript (repoRoot : Path) : Path := repoRoot ++ ["extensions", "build.sh"]

/-- The build script and the templates are there. -/
def checkTemplates (repoRoot : Path) : Eff Unit := do
  let isFile ← Py.inspect env fun fs => .ok (fs.isFile (buildScript repoRoot))
  if ¬ isFile then
    Eff.throw ⟨.fileNotFoundError, "sysext build script is missing: " ++ (buildScript repoRoot).text⟩
  else
    Eff.forEach (fun extension => do
      let isDir ← Py.inspect env fun fs => .ok (fs.isDir (templateOf repoRoot extension))
      if isDir then pure () else Eff.throw (missingTemplate (templateOf repoRoot extension))) extensions

/-- `sources_dir / extension`. -/
def sourceOf (workDir : Path) (extension : Extension) : Path := workDir ++ ["sources", extension.name]

/-- `work_dir / "builder" / "extensions"`. -/
def builderOf (workDir : Path) : Path := workDir ++ ["builder", "extensions"]

/-- The image in the directory of the builder. -/
def rawOf (workDir : Path) (extension : Extension) : Path :=
  builderOf workDir ++ ["release", extension.rawName]

/-- The templates are copied, and the locked binaries are put into them. -/
def prepareSources (repoRoot workDir : Path) (inputs : Inputs) : Eff Unit := do
  Eff.forEach (fun extension =>
    copyTemplate env (templateOf repoRoot extension) (sourceOf workDir extension) extension) extensions
  copyLockedBinary env (inputs.paths .kubelet) (sourceOf workDir .kubelet ++ binDir ++ ["kubelet"])
  extractArchiveBinaries env openTar (inputs.paths .kubernetesCp)
    (sourceOf workDir .kubernetesCp ++ binDir) Extension.kubernetesCp.binaries .kubernetesServer
  extractArchiveBinaries env openTar (inputs.paths .criO) (sourceOf workDir .criO ++ binDir)
    Extension.criO.binaries .criO

/-- `subprocess.run(["sh", build_script, "sysext", source, extension])`. -/
def runBuilder (workDir : Path) (extension : Extension) : Eff Ran :=
  Py.call env (fun n fs =>
    .ok (buildSh tools n (builderOf workDir) (sourceOf workDir extension) extension.name fs))
    fun i fs => fs.place (builderOf workDir ++ ["release"]) i.tree

/-- One image is built. -/
def buildImage (workDir : Path) (extension : Extension) : Eff Image := do
  let result ← runBuilder env tools workDir extension
  if result.code ≠ 0 then
    let stderr := Py.strip result.stderr
    let detail := if stderr = "" then Py.strip result.stdout else stderr
    Eff.throw ⟨.runtimeError, "building " ++ extension.name ++ " sysext failed: " ++ detail⟩
  else
    let produced ← Py.inspect env fun fs =>
      .ok ((fs.fileAt (rawOf workDir extension)).any fun bytes => bytes.size ≠ 0)
    if ¬ produced then
      Eff.throw ⟨.runtimeError, "sysext builder did not produce " ++ extension.rawName⟩
    else
      let digest ← Py.inspect env fun fs => (fs.read (rawOf workDir extension)).map Py.sha256
      let size ← Py.fileSize env (rawOf workDir extension)
      pure ⟨extension, digest, size⟩

/-- The script is copied, and every image is built. -/
def buildImages (repoRoot workDir : Path) : Eff (List Image) := do
  Py.makeDirs env (builderOf workDir)
  Py.copyFile env (buildScript repoRoot) (builderOf workDir ++ ["build.sh"])
  Eff.collect (buildImage env tools workDir) extensions

/-- `stage_manifest`. -/
def stageManifest (lock stage : Items) (ids : Extension → Value) (images : List Image) :
    Except Exc Value :=
  (Artifacts.lockDigest env.depth lock).bind fun digest =>
  ((Value.dict stage).index "kubernetes").bind fun kubernetes =>
  ((Value.dict stage).index "cri_o").bind fun criO =>
  .ok (.dict [(.str "lock_sha256", .str digest), (.str "kubernetes", kubernetes), (.str "cri_o", criO),
    (.str "input_artifacts", .dict (extensions.map fun extension =>
      (.str extension.name, ids extension))),
    (.str "images", .list (images.map Image.toValue))])

/-- `json.dumps(manifest, indent=2, sort_keys=True) + "\n"`, encoded. -/
def manifestBytes (manifest : Value) : Except Exc ByteArray :=
  (Py.Json.sortKeys manifest).bind fun sorted =>
  (Py.Json.dumps .indented env.depth sorted).map fun text =>
    (String.ofList (text ++ ['\n'])).toByteArray

/-- The images are moved, the manifest is written, and the rest is removed. -/
def finishStage (lock stage : Items) (workDir : Path) (ids : Extension → Value)
    (images : List Image) : Eff Unit := do
  Py.makeDir env (workDir ++ ["images"])
  Eff.forEach (fun image =>
    Py.osReplace env (rawOf workDir image.extension) (workDir ++ ["images", image.extension.rawName]))
    images
  let manifest ← Eff.lift (stageManifest env lock stage ids images)
  let bytes ← Eff.lift (manifestBytes env manifest)
  Py.writeFile env (workDir ++ ["manifest.json"]) bytes
  Py.removeTree env (workDir ++ ["sources"])
  Py.removeTree env (workDir ++ ["builder"])

/-- Everything that is done in the temporary directory. -/
def fillStage (lock : Items) (repoRoot : Path) (stage : Items) (inputs : Inputs) (workDir : Path) :
    Eff (List Image) := do
  prepareSources env openTar repoRoot workDir inputs
  let images ← buildImages env tools repoRoot workDir
  finishStage env lock stage workDir inputs.ids images
  pure images

/-- The output must not exist. -/
def refuseExisting (outputDir : Path) : Eff Unit := do
  let present ← Py.inspect env fun fs => .ok (fs.present outputDir)
  if present then
    Eff.throw ⟨.fileExistsError, "refusing to overwrite existing stage output: " ++ outputDir.text⟩
  else pure ()

/-- What `build_stage` does in its temporary directory. -/
def publish (lock : Items) (repoRoot : Path) (stage : Items) (outputDir : Path) (inputs : Inputs)
    (workDir : Path) : Eff (List Image) := do
  let images ← fillStage env openTar tools lock repoRoot stage inputs workDir
  refuseExisting env outputDir
  Py.osReplace env workDir outputDir
  pure images

/-- `build_stage`. -/
def buildStage (lock : Items) (cacheRoot repoRoot : Path) (stage : Items) (outputDir : Path) :
    Eff (List Image) := do
  refuseExisting env outputDir
  let inputs ← checkInputs urlparse env lock cacheRoot stage
  checkTemplates env repoRoot
  Py.mkdirs env outputDir.dropLast
  Py.withTemporaryDirectory env outputDir.dropLast ("." ++ outputDir.name ++ ".stage-")
    (publish env openTar tools lock repoRoot stage outputDir inputs)

/-! ### All stages -/

/-- The stages of the matrix, or those with the version. -/
def selectStages (lock : Items) (version : Option String) : Except Exc (List Value) :=
  ((Value.dict lock).index "kubernetes_upgrade_matrix").bind fun matrix =>
  matrix.iterate.bind fun stages =>
  match version with
  | none => .ok stages
  | some version =>
    (Py.traverse (fun stage => (stage.index "kubernetes").map fun value =>
      if value.eq (.str version) then [stage] else []) stages).map List.flatten

/-- `output_dir / value`. -/
def stagePath (outputDir : Path) (value : Value) : Except Exc Path :=
  match value.asStr with
  | some text =>
    .ok (if Py.isAbsolute text then Py.pathParts text else outputDir.join text)
  | none => Py.typeError "unsupported operand type(s) for /"

/-- An entry of `outputs`. -/
def stageOutput (stage : Items) (images : List Image) : Except Exc Value :=
  ((Value.dict stage).index "kubernetes").bind fun kubernetes =>
  ((Value.dict stage).index "cri_o").map fun criO =>
    .dict [(.str "kubernetes", kubernetes), (.str "cri_o", criO),
      (.str "images", .list (images.map Image.toValue))]

/-- One round of the loop over the stages. -/
def buildSelected (lock : Items) (cacheRoot repoRoot outputDir : Path) (entry : Value) : Eff Value := do
  let kubernetes ← Eff.lift (entry.index "kubernetes")
  let path ← Eff.lift (stagePath outputDir kubernetes)
  let stage ← Eff.lift entry.items
  let images ← buildStage urlparse env openTar tools lock cacheRoot repoRoot stage path
  Eff.lift (stageOutput stage images)

/-- The manifest over all stages. -/
def stagesManifest (lock : Items) (outputs : List Value) : Except Exc Value :=
  (Artifacts.lockDigest env.depth lock).map fun digest =>
    .dict [(.str "lock_sha256", .str digest), (.str "stages", .list outputs)]

/-- The output directory is made, and must be new. -/
def openOutput (outputDir : Path) : Eff Unit := do
  let present ← Py.inspect env fun fs => .ok (fs.present outputDir)
  if present then
    Eff.throw ⟨.fileExistsError, "refusing to overwrite existing output directory: " ++ outputDir.text⟩
  else Py.makeDirs env outputDir

/-- `build_stages`. -/
def buildStages (lock : Items) (cacheRoot repoRoot outputDir : Path) (version : Option String) :
    Eff (List Value) := do
  let selected ← Eff.lift (selectStages lock version)
  if selected.isEmpty then
    Eff.lift (valueError ("Kubernetes version is not in the upgrade matrix: " ++ version.getD "None"))
  else
    openOutput env outputDir
    let outputs ← Eff.collect
      (buildSelected urlparse env openTar tools lock cacheRoot repoRoot outputDir) selected
    let manifest ← Eff.lift (stagesManifest env lock outputs)
    let bytes ← Eff.lift (manifestBytes env manifest)
    Py.writeFile env (outputDir ++ ["manifest.json"]) bytes
    pure outputs

end Stage

end GuestUpgrade
