import K8Labs.Artifacts.Layout
import K8Labs.Python.Os

/-!
# Populating and validating the cache

The second half of `scripts/cache.py`.  `validateCache` is `validate_cache` on a file system;
`writeMetadata`, `download`, `populateOciImage` and `populate` are effects, and every call they make
may be broken off by the environment.

`populate` is cut in two at the point where the completion marker is gone: `openCache` makes the
directory and removes the marker, `fillCache` does the rest.
-/

namespace Artifacts

open Py (Exc Value Items Path FileSystem Eff Env World valueError)

/-! ### The directory of a lock -/

/-- `canonical_json`. -/
def canonicalJson (depth : ℕ) (lock : Items) : Except Exc ByteArray :=
  (Py.Json.dumps .compact depth (.dict lock)).map fun cs => (String.ofList (cs ++ ['\n'])).toByteArray

/-- `lock_digest`. -/
def lockDigest (depth : ℕ) (lock : Items) : Except Exc String :=
  (canonicalJson depth lock).map Py.sha256

/-- `cache_dir`; the digest is one component. -/
def cacheDir (depth : ℕ) (lock : Items) (root : Path) : Except Exc Path :=
  (lockDigest depth lock).map fun digest => root ++ ["locks", digest]

/-! ### Metadata -/

/-- An entry of `artifacts.json`. -/
def Artifact.toValue (a : Artifact) : Value :=
  .dict [(.str "id", .str a.id), (.str "cache_path", .str a.cachePath), (.str "sha256", .str a.sha256),
    (.str "url", .str a.url)]

/-- An entry of `oci-images.json`. -/
def OciImage.toValue (i : OciImage) : Value :=
  .dict [(.str "id", .str i.id), (.str "cache_path", .str i.cachePath),
    (.str "reference", .str i.reference), (.str "manifest_digest", .str i.manifestDigest),
    (.str "platform", .str i.platform)]

/-- A line of `checksums.txt`. -/
def checksumLine (a : Artifact) : String := a.sha256 ++ "  " ++ a.cachePath

/-- The content of `checksums.txt`. -/
def checksumText (artifacts : List Artifact) : String :=
  String.join (artifacts.map fun a => checksumLine a ++ "\n")

/-- `OCI_LAYOUT_VERSION`. -/
def ociLayoutVersion : ℤ := 1

/-- The content of `complete.json`. -/
def completion (digest : String) (artifacts images : ℕ) : Value :=
  .dict [(.str "schema_version", .int ociLayoutVersion), (.str "lock_sha256", .str digest),
    (.str "artifact_count", .int artifacts), (.str "oci_image_count", .int images)]

/-- The metadata files, in the order in which they are looked for. -/
def metadataNames : List String :=
  ["lock.json", "checksums.txt", "artifacts.json", "oci-images.json", "complete.json"]

/-! ### Validation -/

/-- A metadata document is compared with the value it should have. -/
def checkDocument (depth : ℕ) (fs : FileSystem) (directory : Path) (name : String) (expected : Value)
    (mismatch : String) : Except Exc (List String) :=
  (readJson depth fs (directory ++ [name]) name).map fun (v, problems) =>
    if v.eq expected then problems else problems ++ [mismatch]

/-- The check of one artifact. -/
def artifactProblems (fs : FileSystem) (directory : Path) (a : Artifact) : List String :=
  match fs.fileAt (directory.join a.cachePath) with
  | none => ["missing artifact: " ++ a.id ++ " (" ++ a.cachePath ++ ")"]
  | some bytes =>
    if Py.sha256 bytes ≠ a.sha256 then
      ["checksum mismatch: " ++ a.id ++ " (" ++ a.cachePath ++ ")"]
    else []

/-- `complete.json` describes the lock. -/
def describes (complete : Value) (digest : String) (artifacts images : ℕ) : Bool :=
  match complete.asDict with
  | none => false
  | some items =>
    (items.get "lock_sha256").eq (.str digest) && (items.get "artifact_count").eq (.int artifacts) &&
      (items.get "oci_image_count").eq (.int images)

/-- The metadata that is missing. -/
def missingMetadata (fs : FileSystem) (directory : Path) : List String :=
  (metadataNames.filter fun name => !fs.isFile (directory ++ [name])).map
    ("missing cache metadata: " ++ ·)

section Urls

variable (urlparse : UrlParse)

/-- The checks of `validate_cache` on a directory with all its metadata. -/
def validateContents (depth : ℕ) (fs : FileSystem) (lock : Items) (digest : String)
    (directory : Path) : Except Exc (List String) :=
  (checkDocument depth fs directory "lock.json" (.dict lock)
    "lock.json does not match the active lock").bind fun lockProblems =>
  (inventory urlparse lock).bind fun artifacts =>
  (checkDocument depth fs directory "artifacts.json" (.list (artifacts.map Artifact.toValue))
    "artifacts.json does not match the active lock inventory").bind fun listProblems =>
  (ociInventory lock).bind fun images =>
  (checkDocument depth fs directory "oci-images.json" (.list (images.map OciImage.toValue))
    "oci-images.json does not match the active lock inventory").bind fun imageProblems =>
  ((fs.read (directory ++ ["checksums.txt"])).bind decodeText).bind fun checksums =>
  let checksumProblems :=
    if Py.splitLines (String.ofList checksums) = artifacts.map checksumLine then []
    else ["checksums.txt does not match the active lock inventory"]
  (Py.traverse (fun image : OciImage => validateOciLayout depth fs image
    (directory.join image.cachePath)) images).bind fun layoutProblems =>
  (readJson depth fs (directory ++ ["complete.json"]) "complete.json").map fun (complete, more) =>
    lockProblems ++ listProblems ++ imageProblems ++ checksumProblems ++
      artifacts.flatMap (artifactProblems fs directory) ++ layoutProblems.flatten ++ more ++
      (if describes complete digest artifacts.length images.length then []
        else ["complete.json does not describe the active lock"])

/-- `validate_cache`. -/
def validateCache (depth : ℕ) (lock : Items) (root : Path) (fs : FileSystem) :
    Except Exc (List String) :=
  (lockDigest depth lock).bind fun digest =>
  let directory := root ++ ["locks", digest]
  if fs.isDir directory = false then .ok ["cache directory is missing: " ++ directory.text]
  else if missingMetadata fs directory ≠ [] then .ok (missingMetadata fs directory)
  else validateContents urlparse depth fs lock digest directory

/-! ### Writing the metadata -/

variable (env : Env)

/-- `.NAME.tmp`. -/
def temporaryName (name : String) : String := "." ++ name ++ ".tmp"

/-- A file is written under its temporary name and renamed. -/
def writeAndReplace (directory : Path) (name : String) (bytes : ByteArray) : Eff Unit := do
  Py.writeFile env (directory ++ [temporaryName name]) bytes
  Py.osReplace env (directory ++ [temporaryName name]) (directory ++ [name])

/-- `_write_json`. -/
def writeJson (directory : Path) (name : String) (data : Value) : Eff Unit := do
  let text ← Eff.lift (Py.Json.dumps .indented env.depth data)
  writeAndReplace env directory name (String.ofList (text ++ ['\n'])).toByteArray

/-- `write_metadata`. -/
def writeMetadata (lock : Items) (root : Path) : Eff Path := do
  let directory ← Eff.lift (cacheDir env.depth lock root)
  Py.mkdirs env directory
  let artifacts ← Eff.lift (inventory urlparse lock)
  let images ← Eff.lift (ociInventory lock)
  let canonical ← Eff.lift (canonicalJson env.depth lock)
  writeAndReplace env directory "lock.json" canonical
  writeJson env directory "artifacts.json" (.list (artifacts.map Artifact.toValue))
  writeJson env directory "oci-images.json" (.list (images.map OciImage.toValue))
  writeAndReplace env directory "checksums.txt" (checksumText artifacts).toByteArray
  let digest ← Eff.lift (lockDigest env.depth lock)
  writeJson env directory "complete.json" (completion digest artifacts.length images.length)
  pure directory

/-! ### Downloads -/

/-- `destination.with_name(f".{destination.name}.tmp")`. -/
def temporaryFor (destination : Path) : Path :=
  destination.dropLast ++ [temporaryName (destination.getLastD "")]

/-- The loop that reads chunks until one is empty and writes each to the temporary file. -/
def copyChunks (temporary : Path) : List ByteArray → ByteArray → Eff ByteArray
  | [], done => do
    Py.inspect env fun _ => .ok ()
    pure done
  | chunk :: chunks, done => do
    Py.inspect env fun _ => .ok ()
    if chunk.size = 0 then pure done
    else do
      Py.writeFile env temporary (done ++ chunk)
      copyChunks temporary chunks (done ++ chunk)

/-- The body of the `try` of `_download`: the bytes that were written and hashed. -/
def receive (url : String) (temporary : Path) : Eff ByteArray := do
  let chunks ← Py.urlopen env url
  Py.writeFile env temporary .empty
  copyChunks env temporary chunks .empty

/-- The file is there with the locked digest. -/
def isStored (fs : FileSystem) (destination : Path) (sha256 : String) : Bool :=
  match fs.fileAt destination with
  | some bytes => Py.sha256 bytes == sha256
  | none => false

/-- `_download`. -/
def download (item : Artifact) (directory : Path) : Eff Unit := do
  let destination := directory.join item.cachePath
  let temporary := temporaryFor destination
  let stored ← Py.inspect env fun fs => .ok (isStored fs destination item.sha256)
  if stored then pure ()
  else do
    Py.mkdirs env destination.dropLast
    let bytes ← (receive env item.url temporary).tryCatch fun e =>
      if e.caughtBy [.osError] then do
        Py.unlinkFile env temporary
        Eff.throw ⟨.runtimeError, "failed to download " ++ item.id ++ ": " ++ e.message⟩
      else Eff.throw e
    if Py.sha256 bytes ≠ item.sha256 then do
      Py.unlinkFile env temporary
      Eff.throw ⟨.runtimeError, "checksum mismatch while downloading " ++ item.id⟩
    else Py.osReplace env temporary destination

/-! ### Images -/

/-- `_run`. -/
def runChecked (command : List String) (target : Path) : Eff Unit := do
  match ← Py.runCommand env command target with
  | .success => pure ()
  | .notFound =>
    Eff.throw ⟨.runtimeError, "required command not found: " ++ command.headD ""⟩
  | .failure code stdout stderr =>
    let line := String.intercalate " " command
    let status := "Command '" ++ (Value.list (command.map .str)).repr ++
      "' returned non-zero exit status " ++ toString code ++ "."
    let detail :=
      if Py.strip stderr ≠ "" then Py.strip stderr
      else if Py.strip stdout ≠ "" then Py.strip stdout
      else status
    Eff.throw ⟨.runtimeError, "command failed (" ++ line ++ "): " ++ detail⟩

/-- `platform.split("/", 1)`, unpacked. -/
def splitPlatform (platform : String) : Except Exc (String × String) :=
  match platform.toList.dropWhile (· != '/') with
  | [] => valueError "not enough values to unpack (expected 2, got 1)"
  | _ :: architecture =>
    .ok (String.ofList (platform.toList.takeWhile (· != '/')), String.ofList architecture)

/-- The image is in place: `destination.is_dir() and not validate_oci_layout(item, destination)`. -/
def layoutInPlace (depth : ℕ) (fs : FileSystem) (item : OciImage) (destination : Path) :
    Except Exc Bool :=
  if fs.isDir destination then (validateOciLayout depth fs item destination).map List.isEmpty
  else .ok false

/-- `if destination.exists(): shutil.rmtree(destination)`. -/
def removeExisting (destination : Path) : Eff Unit := do
  let present ← Py.inspect env fun fs => .ok (fs.present destination)
  if present then Py.removeTree env destination else pure ()

/-- The body of the `try` of `populate_oci_image`. -/
def stageImage (item : OciImage) (stage destination : Path) : Eff Unit := do
  let (osName, architecture) ← Eff.lift (splitPlatform item.platform)
  runChecked env
    ["skopeo", "copy", "--override-os", osName, "--override-arch", architecture,
      "docker://" ++ item.reference, "oci:" ++ stage.text ++ ":" ++ item.id] stage
  let problems ← Py.inspect env fun fs => validateOciLayout env.depth fs item stage
  if problems ≠ [] then Eff.throw ⟨.runtimeError, String.intercalate "; " problems⟩
  else do
    removeExisting env destination
    Py.mkdirs env destination.dropLast
    Py.osReplace env stage destination

/-- `populate_oci_image`, after the image was found not to be in place. -/
def fetchOciImage (item : OciImage) (directory : Path) : Eff Unit := do
  Py.mkdirs env (directory ++ [".staging"])
  let temporary ← Py.mkdtemp env (directory ++ [".staging"]) (item.id ++ "-")
  (stageImage env item (temporary ++ ["layout"]) (directory.join item.cachePath)).tryFinally
    (Py.removeTreeQuietly env temporary)

/-- `populate_oci_image`. -/
def populateOciImage (item : OciImage) (directory : Path) : Eff Unit := do
  let inPlace ← Py.inspect env fun fs =>
    layoutInPlace env.depth fs item (directory.join item.cachePath)
  if inPlace then pure () else fetchOciImage env item directory

/-! ### Populating -/

/-- The first steps of `populate`, up to the removal of the completion marker. -/
def openCache (lock : Items) (root : Path) : Eff Path := do
  let directory ← Eff.lift (cacheDir env.depth lock root)
  Py.mkdirs env directory
  Py.unlinkFile env (directory ++ ["complete.json"])
  pure directory

/-- The other steps of `populate`. -/
def fillCache (lock : Items) (root directory : Path) : Eff Path := do
  let artifacts ← Eff.lift (inventory urlparse lock)
  Eff.forEach (fun item => download env item directory) artifacts
  let images ← Eff.lift (ociInventory lock)
  Eff.forEach (fun item => populateOciImage env item directory) images
  writeMetadata urlparse env lock root

/-- `populate`. -/
def populate (lock : Items) (root : Path) : Eff Path := do
  let directory ← openCache env lock root
  fillCache urlparse env lock root directory

end Urls

end Artifacts
