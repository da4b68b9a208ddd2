import K8Labs.Artifacts.Interrupted
import K8Labs.Python.Shutil

/-!
# The cache command

The upgrade artifacts, `prune` and `main` of `scripts/cache.py`.  One run of the command is an
`Invocation`; a `session` is a sequence of runs, each of which begins where the one before it ended,
however it ended.

* `touches_populate`, `touches_prune` : a run writes below the directory of its own lock, and removes
  only directories of other locks.
-/

namespace Artifacts

open Py (Exc Value Items Path FileSystem Eff Env World)

/-! ### Upgrade artifacts -/

/-- The check of one upgrade artifact, under the name that its group has in the message. -/
def upgradeArtifactProblems (group : String) (fs : FileSystem) (directory : Path) (a : Artifact) :
    List String :=
  match fs.fileAt (directory.join a.cachePath) with
  | none => ["missing " ++ group ++ " upgrade artifact: " ++ a.id ++ " (" ++ a.cachePath ++ ")"]
  | some bytes =>
    if Py.sha256 bytes ≠ a.sha256 then
      ["checksum mismatch: " ++ a.id ++ " (" ++ a.cachePath ++ ")"]
    else []

/-- The check of a group of upgrade artifacts. -/
def validateUpgradeGroup (group : String) (artifactsOf : Items → Except Exc (List Artifact))
    (depth : ℕ) (lock : Items) (root : Path) (fs : FileSystem) : Except Exc (List String) :=
  (cacheDir depth lock root).bind fun directory =>
  (artifactsOf lock).map fun artifacts => artifacts.flatMap (upgradeArtifactProblems group fs directory)

/-- The download of a group of upgrade artifacts. -/
def populateUpgradeGroup (env : Env) (artifactsOf : Items → Except Exc (List Artifact)) (lock : Items)
    (root : Path) : Eff Path := do
  let directory ← Eff.lift (cacheDir env.depth lock root)
  let artifacts ← Eff.lift (artifactsOf lock)
  Eff.forEach (fun item => download env item directory) artifacts
  pure directory

section Urls

variable (urlparse : UrlParse)

/-- `validate_guest_upgrade_cache`. -/
def validateGuestUpgradeCache (depth : ℕ) (lock : Items) (root : Path) (fs : FileSystem) :
    Except Exc (List String) :=
  validateUpgradeGroup "guest" (guestUpgradeInventory urlparse) depth lock root fs

/-- `validate_kubernetes_upgrade_cache`. -/
def validateKubernetesUpgradeCache (depth : ℕ) (lock : Items) (root : Path) (fs : FileSystem) :
    Except Exc (List String) :=
  validateUpgradeGroup "Kubernetes" (kubernetesUpgradeInventory urlparse) depth lock root fs

variable (env : Env)

/-- `populate_guest_upgrade_artifacts`. -/
def populateGuestUpgradeArtifacts (lock : Items) (root : Path) : Eff Path :=
  populateUpgradeGroup env (guestUpgradeInventory urlparse) lock root

/-- `populate_kubernetes_upgrade_artifacts`. -/
def populateKubernetesUpgradeArtifacts (lock : Items) (root : Path) : Eff Path :=
  populateUpgradeGroup env (kubernetesUpgradeInventory urlparse) lock root

/-! ### Pruning -/

/-- What stands in a directory, in the order of `path.iterdir()`. -/
abbrev Listing := FileSystem → Path → List String

/-- The loop of `prune` over the names in `locks`. -/
def removeStale (locks : Path) (active : String) : List String → Eff (List Path)
  | [] => pure []
  | name :: names => do
    let stale ← Py.inspect env fun fs => .ok (fs.isDir (locks ++ [name]) && name != active)
    if stale then do
      Py.removeTree env (locks ++ [name])
      let removed ← removeStale locks active names
      pure ((locks ++ [name]) :: removed)
    else removeStale locks active names

/-- `prune`. -/
def prune (listing : Listing) (lock : Items) (root : Path) : Eff (List Path) := do
  let active ← Eff.lift (lockDigest env.depth lock)
  let present ← Py.inspect env fun fs => .ok (fs.isDir (root ++ ["locks"]))
  if present then do
    let names ← Py.inspect env fun fs => .ok (listing fs (root ++ ["locks"]))
    removeStale env (root ++ ["locks"]) active names
  else pure []

/-! ### The command -/

/-- The switches of the command line. -/
structure Options where
  check : Bool
  populate : Bool
  checkUpgradeArtifacts : Bool
  populateUpgradeArtifacts : Bool
  writeMetadata : Bool
  prune : Bool

/-- `normal_check`. -/
def Options.normalCheck (o : Options) : Bool :=
  o.check || !(o.writeMetadata || o.prune || o.populateUpgradeArtifacts || o.checkUpgradeArtifacts)

/-- What a run of the command has printed, and its exit code. -/
structure Report where
  lines : List String
  code : ℕ

/-- `parser.error`. -/
def parserError {α : Type} (message : String) : Eff α := Eff.throw ⟨.systemExit, message⟩

/-- A download that `OFFLINE=1` forbids; its `RuntimeError` is an error of the command. -/
def online (offline : Bool) (forbidden : String) (x : Eff Path) : Eff (List String) :=
  if offline then parserError ("OFFLINE=1 forbids " ++ forbidden)
  else do
    let path ← x.tryCatch fun e =>
      if e.caughtBy [.runtimeError] then parserError e.message else Eff.throw e
    pure [path.text]

/-- A check at the end of the command, made when it was asked for. -/
def checkWhen (asked : Bool) (ready : String) (lock : Items) (root : Path)
    (validate : FileSystem → Except Exc (List String)) : Eff Report :=
  if asked then do
    let problems ← Py.inspect env validate
    if problems ≠ [] then pure ⟨problems.map ("ERROR: " ++ ·), 1⟩
    else do
      let directory ← Eff.lift (cacheDir env.depth lock root)
      pure ⟨[ready ++ directory.text], 0⟩
  else pure ⟨[], 0⟩

/-- The two checks; the second one is made when the first has found nothing. -/
def runChecks (o : Options) (lock : Items) (root : Path) : Eff Report := do
  let normal ← checkWhen env o.normalCheck "artifact cache ready: " lock root
    (validateCache urlparse env.depth lock root)
  if normal.code ≠ 0 then pure normal
  else do
    let upgrades ← checkWhen env o.checkUpgradeArtifacts "guest upgrade artifacts ready: " lock root
      (validateKubernetesUpgradeCache urlparse env.depth lock root)
    pure ⟨normal.lines ++ upgrades.lines, upgrades.code⟩

/-- The first change: the normal artifacts and the images. -/
def runPopulate (offline : Bool) (o : Options) (lock : Items) (root : Path) : Eff (List String) :=
  if o.populate then
    online offline "cache population from the network" (populate urlparse env lock root)
  else pure []

/-- The second change: the upgrade artifacts or else the metadata. -/
def runUpgrades (offline : Bool) (o : Options) (lock : Items) (root : Path) : Eff (List String) :=
  if o.populateUpgradeArtifacts then
    online offline "Kubernetes upgrade artifact downloads"
      (populateKubernetesUpgradeArtifacts urlparse env lock root)
  else if o.writeMetadata then do
    let path ← writeMetadata urlparse env lock root
    pure [path.text]
  else pure []

/-- The last change: the caches of other locks. -/
def runPrune (listing : Listing) (o : Options) (lock : Items) (root : Path) : Eff (List String) :=
  if o.prune then do
    let removed ← prune env listing lock root
    pure (removed.map fun p => "removed " ++ p.text)
  else pure []

/-- The changes that were asked for, and the lines they print. -/
def runChanges (listing : Listing) (offline : Bool) (o : Options) (lock : Items) (root : Path) :
    Eff (List String) := do
  let populated ← runPopulate urlparse env offline o lock root
  let written ← runUpgrades urlparse env offline o lock root
  let removed ← runPrune env listing o lock root
  pure (populated ++ written ++ removed)

/-- `main`, after the lock is loaded. -/
def main (listing : Listing) (offline : Bool) (o : Options) (lock : Items) (root : Path) :
    Eff Report := do
  let lines ← runChanges urlparse env listing offline o lock root
  let report ← runChecks urlparse env o lock root
  pure ⟨lines ++ report.lines, report.code⟩

end Urls

variable {urlparse : UrlParse} {env : Env} {w w' : World} {directory root : Path} {lock : Items}
  {digest : String}

/-! ### What a run touches -/

/-- What belongs to a cache directory: what is below it, and the temporary file of a download that is
to replace the directory itself. -/
def Owned (directory q : Path) : Prop := directory <+: q ∨ temporaryFor directory <+: q

theorem Owned.of_below {q r : Path} (h : Owned directory q) (hr : q <+: r) : Owned directory r :=
  h.imp (·.trans hr) (·.trans hr)

theorem owned_append (directory p : Path) : Owned directory (directory ++ p) :=
  .inl (List.prefix_append _ _)

theorem owned_temporaryFor (directory : Path) (name : String) :
    Owned directory (temporaryFor (directory.join name)) := by
  rw [Path.join]
  cases hparts : Py.pathParts name using List.reverseRecOn with
  | nil =>
    rw [List.append_nil]
    exact .inr List.prefix_rfl
  | append_singleton p last =>
    rw [← List.append_assoc, temporaryFor, List.dropLast_concat, List.append_assoc]
    exact owned_append _ _

theorem touches_download (item : Artifact) (directory : Path) :
    (download env item directory).Touches (Owned directory) (Owned directory) := by
  have hown : ∀ q, q = temporaryFor (directory.join item.cachePath) → Owned directory q := by
    rintro q rfl
    exact owned_temporaryFor _ _
  refine (Py.touches_inspect _).bind fun stored => ?_
  split_ifs
  · exact Eff.touches_pure ()
  refine (Py.touches_mkdirs _).bind fun _ => ?_
  refine Eff.Touches.bind (Eff.Touches.tryCatch ((touches_receive _ _).mono hown hown) fun e => ?_)
    fun bytes => ?_
  · split_ifs
    · exact ((Py.touches_unlinkFile _).mono hown fun _ => False.elim).bind fun _ =>
        Eff.touches_throw _
    · exact Eff.touches_throw e
  · split_ifs
    · exact ((Py.touches_unlinkFile _).mono hown fun _ => False.elim).bind fun _ =>
        Eff.touches_throw _
    · refine (Py.touches_osReplace _ _).mono ?_ fun q hq => (owned_append _ _).of_below hq
      rintro q (hq | hq)
      · exact (owned_temporaryFor _ _).of_below hq
      · exact (owned_append _ _).of_below hq

/-- The id of an image does not lead out of the staging directory. -/
def Stageable (item : OciImage) : Prop := '/' ∉ item.id.toList

theorem touches_runChecked (command : List String) (target : Path) :
    (runChecked env command target).Touches (fun q => target <+: q) (fun q => target <+: q) := by
  refine (Py.touches_runCommand _ _).bind fun exit => ?_
  cases exit with
  | success => exact Eff.touches_pure ()
  | notFound => exact Eff.touches_throw _
  | failure code stdout stderr => exact Eff.touches_throw _

theorem touches_stageImage (item : OciImage) {stage destination : Path}
    (hstage : Owned directory stage) (hdst : Owned directory destination) :
    (stageImage env item stage destination).Touches (Owned directory) (Owned directory) := by
  refine (Eff.touches_lift _).bind fun ⟨osName, architecture⟩ => ?_
  refine ((touches_runChecked _ _).mono (fun q => hstage.of_below) fun q => hstage.of_below).bind
    fun _ => ?_
  refine (Py.touches_inspect _).bind fun problems => ?_
  split_ifs
  · exact Eff.touches_throw _
  refine Eff.Touches.bind ?_ fun _ => (Py.touches_mkdirs _).bind fun _ =>
    (Py.touches_osReplace _ _).mono
      (fun q hq => hq.elim hstage.of_below hdst.of_below) fun q => hdst.of_below
  refine (Py.touches_inspect _).bind fun present => ?_
  split_ifs
  · exact (Py.touches_removeTree _).mono (fun q => hdst.of_below) fun _ => False.elim
  · exact Eff.touches_pure ()

theorem touches_populateOciImage {item : OciImage} (hitem : Stageable item) (directory : Path) :
    (populateOciImage env item directory).Touches (Owned directory) (Owned directory) := by
  refine (Py.touches_inspect _).bind fun inPlace => ?_
  split_ifs
  · exact Eff.touches_pure ()
  refine (Py.touches_mkdirs _).bind fun _ => (Py.touches_mkdtemp _ _).bind_of ?_
  intro w temporary w' hmkdtemp
  have hlabel : '/' ∉ (item.id ++ "-").toList := by
    rw [String.toList_append, List.mem_append, not_or]
    exact ⟨hitem, by decide⟩
  have htemporary : Owned directory temporary := by
    rw [(Py.mkdtemp_eq_ok hmkdtemp).1, Py.temporaryPath_eq hlabel, List.append_assoc]
    exact owned_append _ _
  refine (touches_stageImage item ?_ (owned_append _ _)).tryFinally
    ((Py.touches_removeTreeQuietly _).mono (fun q => htemporary.of_below) fun _ => False.elim)
  exact htemporary.of_below (List.prefix_append _ _)

theorem touches_writeAndReplace (name : String) (bytes : ByteArray) :
    (writeAndReplace env directory name bytes).Touches (Owned directory) (Owned directory) := by
  have hown : ∀ p q : Path, directory ++ p <+: q → Owned directory q := fun p q hq =>
    (owned_append directory p).of_below hq
  refine ((Py.touches_writeFile _ _).mono ?_ ?_).bind fun _ =>
    (Py.touches_osReplace _ _).mono (fun q hq => hq.elim (hown _ q) (hown _ q)) (hown _)
  · rintro q rfl
    exact owned_append _ _
  · rintro q rfl
    exact owned_append _ _

theorem touches_writeJson (name : String) (data : Value) :
    (writeJson env directory name data).Touches (Owned directory) (Owned directory) :=
  (Eff.touches_lift _).bind fun _ => touches_writeAndReplace _ _

/-- What belongs to the cache of a lock. -/
def OwnedBy (depth : ℕ) (lock : Items) (root q : Path) : Prop :=
  ∃ directory, cacheDir depth lock root = .ok directory ∧ Owned directory q

theorem OwnedBy.mk {q : Path} (hdir : cacheDir env.depth lock root = .ok directory)
    (h : Owned directory q) : OwnedBy env.depth lock root q := ⟨directory, hdir, h⟩

/-- An effect on the directory of a lock, once it is known. -/
theorem touches_lift_cacheDir {α : Type} {x : Path → Eff α}
    (h : ∀ directory, cacheDir env.depth lock root = .ok directory →
      (x directory).Touches (OwnedBy env.depth lock root) (OwnedBy env.depth lock root)) :
    (Eff.lift (cacheDir env.depth lock root) >>= x).Touches (OwnedBy env.depth lock root)
      (OwnedBy env.depth lock root) :=
  (Eff.touches_lift _).bind_of fun _ directory _ hdir => h directory (Eff.lift_eq_ok hdir).1

/-- The ids of the images of a lock do not lead out of the staging directory. -/
def StageableImages (lock : Items) : Prop :=
  ∀ images, ociInventory lock = .ok images → ∀ i ∈ images, Stageable i

theorem touches_writeMetadata : (writeMetadata urlparse env lock root).Touches
    (OwnedBy env.depth lock root) (OwnedBy env.depth lock root) := by
  refine touches_lift_cacheDir fun directory hdir => ?_
  refine (?_ : Eff.Touches (Owned directory) (Owned directory) _).mono
    (fun _ => .mk hdir) fun _ => .mk hdir
  exact (Py.touches_mkdirs _).bind fun _ => (Eff.touches_lift _).bind fun _ =>
    (Eff.touches_lift _).bind fun _ => (Eff.touches_lift _).bind fun _ =>
    (touches_writeAndReplace _ _).bind fun _ => (touches_writeJson _ _).bind fun _ =>
    (touches_writeJson _ _).bind fun _ => (touches_writeAndReplace _ _).bind fun _ =>
    (Eff.touches_lift _).bind fun _ => (touches_writeJson _ _).bind fun _ => Eff.touches_pure _

/-- However populating a cache ends, it has written only what belongs to the cache. -/
theorem touches_populate (himages : StageableImages lock) : (populate urlparse env lock root).Touches
    (OwnedBy env.depth lock root) (OwnedBy env.depth lock root) := by
  have hopen : ∀ directory, cacheDir env.depth lock root = .ok directory →
      (do
        Py.mkdirs env directory
        Py.unlinkFile env (directory ++ ["complete.json"])
        pure directory : Eff Path).Touches (OwnedBy env.depth lock root)
          (OwnedBy env.depth lock root) := by
    intro directory hdir
    refine (Py.touches_mkdirs _).bind fun _ => Eff.Touches.bind
      ((Py.touches_unlinkFile _).mono ?_ fun _ => False.elim) fun _ => Eff.touches_pure _
    rintro q rfl
    exact .mk hdir (owned_append _ _)
  refine (touches_lift_cacheDir hopen).bind_of fun w directory w' hopened => ?_
  have hdir : cacheDir env.depth lock root = .ok directory := by
    obtain ⟨directory', hdir, h⟩ := Eff.bind_lift_eq_ok hopened
    obtain ⟨⟨⟩, _, -, h⟩ := Eff.bind_eq_ok h
    obtain ⟨⟨⟩, _, -, h⟩ := Eff.bind_eq_ok h
    obtain ⟨rfl, -⟩ := Eff.pure_eq_ok h
    exact hdir
  have hown : ∀ q, Owned directory q → OwnedBy env.depth lock root q := fun _ => .mk hdir
  refine (Eff.touches_lift _).bind fun artifacts => Eff.Touches.bind (Eff.touches_forEach
    fun item _ => (touches_download item directory).mono hown hown) fun _ => ?_
  refine (Eff.touches_lift _).bind_of fun _ images _ hlist => ?_
  refine Eff.Touches.bind (Eff.touches_forEach fun item hitem => ?_) fun _ => touches_writeMetadata
  exact (touches_populateOciImage (himages images (Eff.lift_eq_ok hlist).1 item hitem)
    directory).mono hown hown

theorem touches_populateUpgradeGroup (artifactsOf : Items → Except Exc (List Artifact)) :
    (populateUpgradeGroup env artifactsOf lock root).Touches (OwnedBy env.depth lock root)
      (OwnedBy env.depth lock root) := by
  refine touches_lift_cacheDir fun directory hdir => (Eff.touches_lift _).bind fun artifacts =>
    Eff.Touches.bind (Eff.touches_forEach fun item _ => ?_) fun _ => Eff.touches_pure _
  exact (touches_download item directory).mono (fun _ => .mk hdir) fun _ => .mk hdir

/-- What belongs to another cache than the active one. -/
def Stale (locks : Path) (active : String) (q : Path) : Prop :=
  ∃ name, name ≠ active ∧ locks ++ [name] <+: q

theorem touches_removeStale (locks : Path) (active : String) (names : List String) :
    (removeStale env locks active names).Touches (Stale locks active) (fun _ => False) := by
  induction names with
  | nil => exact Eff.touches_pure _
  | cons name names ih =>
    refine (Py.touches_inspect _).bind_of fun w stale w' hstale => ?_
    split_ifs with hs
    · have hname : name ≠ active := by
        have := (Except.ok.inj (Py.inspect_eq_ok hstale).1).trans hs
        simp only [Bool.and_eq_true, bne_iff_ne] at this
        exact this.2
      exact ((Py.touches_removeTree _).mono (fun q hq => ⟨name, hname, hq⟩) fun _ => id).bind
        fun _ => ih.bind fun _ => Eff.touches_pure _
    · exact ih

/-- However pruning ends, it has written nothing, and removed nothing of the active cache. -/
theorem touches_prune (listing : Listing) : (prune env listing lock root).Touches
    (fun q => ∃ active, lockDigest env.depth lock = .ok active ∧
      Stale (root ++ ["locks"]) active q) (fun _ => False) := by
  refine (Eff.touches_lift _).bind_of fun _ active _ hactive => ?_
  refine (Py.touches_inspect _).bind fun present => ?_
  split_ifs
  · exact (Py.touches_inspect _).bind fun names => (touches_removeStale _ _ names).mono
      (fun q hq => ⟨active, (Eff.lift_eq_ok hactive).1, hq⟩) fun _ => id
  · exact Eff.touches_pure _

/-! ### A session -/

/-- One run of the command: what the program does not determine, the options and the lock. -/
structure Invocation where
  env : Env
  listing : Listing
  offline : Bool
  options : Options
  lock : Items

/-- The run. -/
def Invocation.run (urlparse : UrlParse) (root : Path) (v : Invocation) : Eff Report :=
  main urlparse v.env v.listing v.offline v.options v.lock root

/-- The world after a sequence of runs, each of which begins where the last one ended. -/
def session (urlparse : UrlParse) (root : Path) : List Invocation → World → World
  | [], w => w
  | v :: vs, w => session urlparse root vs (v.run urlparse root w).2

/-- The run was not asked to change the cache of its own lock. -/
def Options.keepsOwn (o : Options) : Bool :=
  !(o.populate || o.populateUpgradeArtifacts || o.writeMetadata)

/-- A run that has nothing to do with the cache with a digest: it is for another lock and does not
prune, or it is for this lock and does not populate or write. -/
def Spares (digest : String) (v : Invocation) : Prop :=
  (lockDigest v.env.depth v.lock ≠ .ok digest ∧ v.options.prune = false ∧ StageableImages v.lock) ∨
    (lockDigest v.env.depth v.lock = .ok digest ∧ v.options.keepsOwn = true)

theorem touches_online {lost new : Path → Prop} {x : Eff Path} (hx : x.Touches lost new)
    (offline : Bool) (forbidden : String) : (online offline forbidden x).Touches lost new := by
  unfold online
  split_ifs
  · exact Eff.touches_throw _
  · refine (hx.tryCatch fun e => ?_).bind fun _ => Eff.touches_pure _
    split_ifs
    · exact Eff.touches_throw _
    · exact Eff.touches_throw e

theorem touches_checkWhen {lost new : Path → Prop} (asked : Bool) (ready : String)
    (validate : FileSystem → Except Exc (List String)) :
    (checkWhen env asked ready lock root validate).Touches lost new := by
  unfold checkWhen
  split_ifs
  · refine (Py.touches_inspect _).bind fun problems => ?_
    split_ifs
    · exact Eff.touches_pure _
    · exact (Eff.touches_lift _).bind fun _ => Eff.touches_pure _
  · exact Eff.touches_pure _

/-- What a run touches is touched by the changes it was asked for. -/
theorem touches_main {lost new : Path → Prop} {listing : Listing} {offline : Bool} {o : Options}
    (hchanges : (runChanges urlparse env listing offline o lock root).Touches lost new) :
    (main urlparse env listing offline o lock root).Touches lost new := by
  refine hchanges.bind fun lines => Eff.Touches.bind ?_ fun _ => Eff.touches_pure _
  refine (touches_checkWhen _ _ _).bind fun normal => ?_
  split_ifs
  · exact Eff.touches_pure _
  · exact (touches_checkWhen _ _ _).bind fun _ => Eff.touches_pure _

theorem length_of_lockDigest {depth : ℕ} (h : lockDigest depth lock = .ok digest) :
    digest.toList.length = 64 := by
  obtain ⟨bytes, -, rfl⟩ := Py.map_eq_ok.1 h
  exact Py.length_sha256 bytes

theorem length_temporaryName (name : String) :
    (temporaryName name).toList.length = name.toList.length + 5 := by
  have hdot : ".".toList.length = 1 := rfl
  have htmp : ".tmp".toList.length = 4 := rfl
  rw [temporaryName, String.toList_append, String.toList_append, List.length_append,
    List.length_append, hdot, htmp]
  omega

/-- What belongs to the cache of another lock is not below the directory with the digest. -/
theorem not_below_of_ownedBy {depth depth' : ℕ} {lock' : Items} {q : Path}
    (hdigest : lockDigest depth lock = .ok digest) (hne : lockDigest depth' lock' ≠ .ok digest)
    (howned : OwnedBy depth' lock' root q) : ¬ root ++ ["locks", digest] <+: q := by
  intro hbelow
  obtain ⟨directory, hdir, howned⟩ := howned
  obtain ⟨other, hother, rfl⟩ := Py.map_eq_ok.1 hdir
  have hparent : ∀ name : String, root ++ ["locks", name] = root ++ ["locks"] ++ [name] := by simp
  rw [hparent] at hbelow
  rcases howned with h | h
  · rw [hparent] at h
    exact hne (Py.eq_of_below_both h hbelow ▸ hother)
  · rw [hparent, temporaryFor, List.dropLast_concat, List.getLastD_concat] at h
    -- the temporary name is longer than any digest
    have hlength := length_temporaryName other
    rw [Py.eq_of_below_both h hbelow, length_of_lockDigest hdigest, length_of_lockDigest hother]
      at hlength
    omega

/-- A run that spares a cache touches nothing in it. -/
theorem touches_run {depth : ℕ} {v : Invocation} (hdigest : lockDigest depth lock = .ok digest)
    (h : Spares digest v) : (v.run urlparse root).Touches
      (fun q => ¬ root ++ ["locks", digest] <+: q) (fun q => ¬ root ++ ["locks", digest] <+: q) := by
  refine touches_main ?_
  rcases h with ⟨hother, hprune, himages⟩ | ⟨hown, hkeeps⟩
  · have hout : ∀ q, OwnedBy v.env.depth v.lock root q → ¬ root ++ ["locks", digest] <+: q :=
      fun q => not_below_of_ownedBy hdigest hother
    refine Eff.Touches.bind ?_ fun populated => Eff.Touches.bind ?_ fun written =>
      Eff.Touches.bind ?_ fun removed => Eff.touches_pure _
    · unfold runPopulate
      split_ifs
      · exact touches_online ((touches_populate himages).mono hout hout) _ _
      · exact Eff.touches_pure _
    · unfold runUpgrades
      split_ifs
      · exact touches_online ((touches_populateUpgradeGroup _).mono hout hout) _ _
      · exact (touches_writeMetadata.mono hout hout).bind fun _ => Eff.touches_pure _
      · exact Eff.touches_pure _
    · rw [runPrune, hprune]
      exact Eff.touches_pure _
  · simp only [Options.keepsOwn, Bool.not_eq_true', Bool.or_eq_false_iff] at hkeeps
    obtain ⟨⟨hpopulate, hupgrades⟩, hwrite⟩ := hkeeps
    rw [runChanges, runPopulate, runUpgrades, hpopulate, hupgrades, hwrite]
    refine (Eff.touches_pure _).bind fun populated => (Eff.touches_pure _).bind fun written =>
      Eff.Touches.bind ?_ fun removed => Eff.touches_pure _
    unfold runPrune
    split_ifs
    · refine ((touches_prune v.listing).mono ?_ fun _ => False.elim).bind fun _ =>
        Eff.touches_pure _
      rintro q ⟨active, hactive, name, hname, hq⟩ hbelow
      obtain rfl := Except.ok.inj (hactive.symm.trans hown)
      have hbelow : root ++ ["locks"] ++ [active] <+: q := by simpa using hbelow
      exact hname (Py.eq_of_below_both hq hbelow)
    · exact Eff.touches_pure _

/-- The files of a layout that are looked at. -/
def IsLayoutFile (r : Path) : Prop :=
  r = ["oci-layout"] ∨ r = ["index.json"] ∨ ∃ digits, r = blobPath digits

/-- A cache stays complete when the files that are looked at stay. -/
theorem CacheComplete.of_kept {depth : ℕ} {fs fs' : FileSystem} {artifacts : List Artifact}
    {images : List OciImage} (h : CacheComplete depth fs lock digest directory artifacts images)
    (hmetadata : ∀ name ∈ metadataNames, ∀ b, fs.fileAt (directory ++ [name]) = some b →
      fs'.fileAt (directory ++ [name]) = some b)
    (hstored : ∀ a ∈ artifacts, Stored fs (directory.join a.cachePath) a.sha256 →
      Stored fs' (directory.join a.cachePath) a.sha256)
    (hlayouts : ∀ i ∈ images, ∀ r b, IsLayoutFile r →
      fs.fileAt (directory.join i.cachePath ++ r) = some b →
      fs'.fileAt (directory.join i.cachePath ++ r) = some b) :
    CacheComplete depth fs' lock digest directory artifacts images := by
  have hdocument : ∀ name ∈ metadataNames, ∀ expected,
      DocumentIs depth fs (directory ++ [name]) expected →
      DocumentIs depth fs' (directory ++ [name]) expected := by
    rintro name hname expected ⟨bytes, v, hfile, hload, heq⟩
    exact ⟨bytes, v, hmetadata name hname _ hfile, hload, heq⟩
  exact
    { lock_json := hdocument _ (by decide) _ h.lock_json
      artifacts_json := hdocument _ (by decide) _ h.artifacts_json
      images_json := hdocument _ (by decide) _ h.images_json
      checksums := by
        obtain ⟨bytes, text, hfile, hdecode, hlines⟩ := h.checksums
        exact ⟨bytes, text, hmetadata _ (by decide) _ hfile, hdecode, hlines⟩
      stored := fun a ha => hstored a ha (h.stored a ha)
      layouts := fun i hi => (h.layouts i hi).of_keeps fun r b hr hb => hlayouts i hi r b hr hb
      complete := by
        obtain ⟨bytes, v, hfile, hload, hdescribes⟩ := h.complete
        exact ⟨bytes, v, hmetadata _ (by decide) _ hfile, hload, hdescribes⟩ }

/-- A complete cache has its directory and its metadata. -/
theorem CacheComplete.validates {depth : ℕ} {fs : FileSystem} {artifacts : List Artifact}
    {images : List OciImage} (hdigest : lockDigest depth lock = .ok digest)
    (hartifacts : inventory urlparse lock = .ok artifacts) (himages : ociInventory lock = .ok images)
    (h : CacheComplete depth fs lock digest (root ++ ["locks", digest]) artifacts images) :
    validateCache urlparse depth lock root fs = .ok [] := by
  have hfiles : ∀ name ∈ metadataNames, ∃ bytes,
      fs.fileAt (root ++ ["locks", digest] ++ [name]) = some bytes := by
    obtain ⟨b₁, _, h₁, -⟩ := h.lock_json
    obtain ⟨b₂, _, h₂, -⟩ := h.checksums
    obtain ⟨b₃, _, h₃, -⟩ := h.artifacts_json
    obtain ⟨b₄, _, h₄, -⟩ := h.images_json
    obtain ⟨b₅, _, h₅, -⟩ := h.complete
    simp only [metadataNames, List.forall_mem_cons, List.not_mem_nil, false_implies, implies_true,
      and_true]
    exact ⟨⟨b₁, h₁⟩, ⟨b₂, h₂⟩, ⟨b₃, h₃⟩, ⟨b₄, h₄⟩, ⟨b₅, h₅⟩⟩
  have hdirectory : fs.isDir (root ++ ["locks", digest]) = true := by
    obtain ⟨bytes, hbytes⟩ := hfiles "lock.json" (by decide)
    refine FileSystem.isDir_iff.2 (fs.parent_dir _ "lock.json" ?_)
    rw [FileSystem.fileAt_eq_some.1 hbytes]
    simp
  exact validateCache_eq_nil_iff.2 ⟨digest, hdigest, hdirectory,
    fun name hname => FileSystem.isFile_iff.2 (hfiles name hname), artifacts, images, hartifacts,
    himages, h⟩

/-- A cache that `validate_cache` has no problem with is judged by the files below its directory. -/
theorem validateCache_of_keeps {depth : ℕ} {fs fs' : FileSystem}
    (hdigest : lockDigest depth lock = .ok digest)
    (hkeeps : FileSystem.Keeps (fun q => ¬ root ++ ["locks", digest] <+: q) fs fs')
    (h : validateCache urlparse depth lock root fs = .ok []) :
    validateCache urlparse depth lock root fs' = .ok [] := by
  obtain ⟨digest', hdigest', -, -, artifacts, images, hartifacts, himages, hc⟩ :=
    validateCache_eq_nil_iff.1 h
  obtain rfl := Except.ok.inj (hdigest.symm.trans hdigest')
  have hkept : ∀ p b, fs.fileAt (root ++ ["locks", digest] ++ p) = some b →
      fs'.fileAt (root ++ ["locks", digest] ++ p) = some b :=
    fun p b hb => hkeeps _ b hb (not_not.2 (List.prefix_append _ p))
  refine (hc.of_kept (fun name _ b => hkept [name] b) ?_ ?_).validates hdigest hartifacts himages
  · rintro a - ⟨bytes, hfile, hsha⟩
    exact ⟨bytes, hkept _ _ hfile, hsha⟩
  · intro i _ r b _ hb
    rw [Path.join, List.append_assoc] at hb ⊢
    exact hkept _ b hb

/-- **Caches are apart.**  Through every sequence of runs, whatever is broken off in them, a cache
that each run spares keeps all its files byte for byte and gets no new one; if it was valid, it is. -/
theorem session_spares {depth : ℕ} {vs : List Invocation}
    (hdigest : lockDigest depth lock = .ok digest) (hspares : ∀ v ∈ vs, Spares digest v) (w : World) :
    (∀ p, (session urlparse root vs w).fs.fileAt (root ++ ["locks", digest] ++ p) =
        w.fs.fileAt (root ++ ["locks", digest] ++ p)) ∧
      (validateCache urlparse depth lock root w.fs = .ok [] →
        validateCache urlparse depth lock root (session urlparse root vs w).fs = .ok []) := by
  have hchanges : FileSystem.Changes (fun q => ¬ root ++ ["locks", digest] <+: q)
      (fun q => ¬ root ++ ["locks", digest] <+: q) w.fs (session urlparse root vs w).fs := by
    induction vs generalizing w with
    | nil => exact .refl _
    | cons v vs ih =>
      exact (touches_run hdigest (hspares v List.mem_cons_self) w).trans
        (ih (fun v hv => hspares v (List.mem_cons_of_mem _ hv)) _)
  refine ⟨fun p => Option.ext fun b => ?_, validateCache_of_keeps hdigest hchanges.keeps⟩
  have hbelow : ¬¬ root ++ ["locks", digest] <+: root ++ ["locks", digest] ++ p :=
    not_not.2 (List.prefix_append _ p)
  exact ⟨fun h => hchanges.creates _ b h hbelow, fun h => hchanges.keeps _ b h hbelow⟩

/-- A lock that says nothing. -/
def emptyLock : Items := []

/-- The digest of the empty lock. -/
def emptyLockDigest : String := "ca3d163bab055381827226140568f3bef7eaac187cebd76878e0b63e9e442356"

/-- A lock with a version only. -/
def versionLock : Items := [(.str "schema_version", .int 2)]

theorem lockDigest_emptyLock : lockDigest 900 emptyLock = .ok emptyLockDigest :=
  Py.eq_of_okAnd (by decide +kernel)

theorem lockDigest_versionLock :
    ∃ digest, lockDigest 900 versionLock = .ok digest ∧ digest ≠ emptyLockDigest := by
  have h : Py.okAnd (lockDigest 900 versionLock) (fun digest => digest ≠ emptyLockDigest) = true := by
    decide +kernel
  obtain ⟨digest, hdigest, hne⟩ := Py.okAnd_eq_true.1 h
  exact ⟨digest, hdigest, of_decide_eq_true hne⟩

/-- The empty lock is populated, then the caches of other locks than the one with a version are
pruned. -/
def populateThenPrune (env : Env) : List Invocation :=
  [{ env := env, listing := fun _ _ => [emptyLockDigest], offline := false, lock := emptyLock,
     options := ⟨true, true, false, true, false, false⟩ },
   { env := env, listing := fun _ _ => [emptyLockDigest], offline := true, lock := versionLock,
     options := ⟨false, false, false, false, false, true⟩ }]

theorem session_spares_versionLock :
    ∃ digest, lockDigest 900 versionLock = .ok digest ∧
      (∀ p, (session httpsParse [] (populateThenPrune servingEnv) ⟨emptyIndexCache, 0⟩).fs.fileAt
          ([] ++ ["locks", digest] ++ p) = emptyIndexCache.fileAt ([] ++ ["locks", digest] ++ p)) ∧
      (validateCache httpsParse 900 versionLock [] emptyIndexCache = .ok [] →
        validateCache httpsParse 900 versionLock []
          (session httpsParse [] (populateThenPrune servingEnv) ⟨emptyIndexCache, 0⟩).fs = .ok []) := by
  obtain ⟨digest, hdigest, hne⟩ := lockDigest_versionLock
  refine ⟨digest, hdigest, session_spares hdigest ?_ ⟨emptyIndexCache, 0⟩⟩
  simp only [populateThenPrune, List.forall_mem_cons, List.not_mem_nil, false_implies, implies_true,
    and_true]
  refine ⟨.inl ⟨fun h => hne ?_, rfl, fun images himages => ?_⟩, .inr ⟨hdigest, rfl⟩⟩
  · exact Except.ok.inj (h.symm.trans lockDigest_emptyLock)
  · obtain rfl : [] = images := Except.ok.inj himages
    simp

/-! ### What pruning leaves -/

/-- The loop removes the directories with a name in the list, the active one apart, and nothing
else. -/
theorem removeStale_eq_ok {locks : Path} {active : String} {names : List String} {removed : List Path}
    (h : removeStale env locks active names w = (.ok removed, w')) :
    (∀ p, p ∈ removed ↔ ∃ name ∈ names, p = locks ++ [name] ∧ name ≠ active ∧ w.fs.isDir p = true) ∧
      (∀ p ∈ removed, w'.fs.node p = none) ∧
      ∀ q, (∀ p ∈ removed, ¬ p <+: q) → w'.fs.node q = w.fs.node q := by
  induction names generalizing w removed with
  | nil =>
    obtain ⟨rfl, rfl⟩ := Eff.pure_eq_ok h
    simp
  | cons name names ih =>
    obtain ⟨stale, w₁, hstale, h⟩ := Eff.bind_eq_ok h
    obtain ⟨hstale, hfs₁⟩ := Py.inspect_eq_ok hstale
    obtain rfl := Except.ok.inj hstale
    split_ifs at h with hs
    · obtain ⟨⟨⟩, w₂, hremove, h⟩ := Eff.bind_eq_ok h
      obtain ⟨later, w₃, hlater, h⟩ := Eff.bind_eq_ok h
      obtain ⟨rfl, rfl⟩ := Eff.pure_eq_ok h
      obtain ⟨-, hfs₂⟩ := FileSystem.rmtree_eq_ok (Py.change_eq_ok hremove)
      rw [hfs₁] at hfs₂
      simp only [Bool.and_eq_true, bne_iff_ne] at hs
      obtain ⟨hmem, hgone, hsame⟩ := ih hlater
      have hhead : w₂.fs.node (locks ++ [name]) = none := by
        rw [hfs₂, FileSystem.node_place_empty List.prefix_rfl]
      have hside : ∀ other, other ≠ name →
          w₂.fs.isDir (locks ++ [other]) = w.fs.isDir (locks ++ [other]) := by
        intro other hne
        rw [FileSystem.isDir, hfs₂, FileSystem.node_place_outside fun hp =>
          hne (Py.eq_of_below_both List.prefix_rfl hp), ← FileSystem.isDir]
      have hother : ∀ p ∈ later, ∃ other, p = locks ++ [other] ∧ other ≠ name := by
        intro p hp
        obtain ⟨other, -, rfl, -, hdir⟩ := (hmem p).1 hp
        refine ⟨other, rfl, ?_⟩
        rintro rfl
        rw [FileSystem.isDir_iff, hhead] at hdir
        cases hdir
      refine ⟨fun p => ?_, ?_, fun q hq => ?_⟩
      · rw [List.mem_cons, hmem]
        constructor
        · rintro (rfl | hp)
          · exact ⟨name, List.mem_cons_self, rfl, hs.2, hs.1⟩
          · obtain ⟨other, rfl, hne⟩ := hother p ((hmem p).2 hp)
            obtain ⟨name', hname', heq, hactive, hdir⟩ := hp
            rw [hside other hne] at hdir
            exact ⟨name', List.mem_cons_of_mem _ hname', heq, hactive, hdir⟩
        · rintro ⟨name', hname', rfl, hactive, hdir⟩
          by_cases hne : name' = name
          · exact .inl (by rw [hne])
          · rw [← hside name' hne] at hdir
            exact .inr ⟨name', (List.mem_cons.1 hname').resolve_left hne, rfl, hactive, hdir⟩
      · refine List.forall_mem_cons.2 ⟨?_, hgone⟩
        rw [hsame _ fun p hp hbelow => ?_, hhead]
        obtain ⟨other, rfl, hne⟩ := hother p hp
        exact hne (Py.eq_of_below_both hbelow List.prefix_rfl)
      · obtain ⟨hq, hlater⟩ := List.forall_mem_cons.1 hq
        rw [hsame q hlater, hfs₂, FileSystem.node_place_outside hq]
    · obtain ⟨hmem, hgone, hsame⟩ := ih h
      rw [hfs₁] at hmem hsame
      refine ⟨fun p => ?_, hgone, hsame⟩
      rw [hmem]
      constructor
      · rintro ⟨name', hname', hrest⟩
        exact ⟨name', List.mem_cons_of_mem _ hname', hrest⟩
      · rintro ⟨name', hname', rfl, hactive, hdir⟩
        refine ⟨name', (List.mem_cons.1 hname').resolve_left ?_, rfl, hactive, hdir⟩
        rintro rfl
        exact hs (by simp [hdir, hactive])

/-- A pruning that returns has removed the directories of other locks that were listed, and nothing
else. -/
theorem prune_eq_ok {listing : Listing} {removed : List Path}
    (h : prune env listing lock root w = (.ok removed, w')) :
    ∃ active, lockDigest env.depth lock = .ok active ∧
      (∀ p, p ∈ removed ↔ ∃ name ∈ listing w.fs (root ++ ["locks"]),
        p = root ++ ["locks"] ++ [name] ∧ name ≠ active ∧ w.fs.isDir p = true) ∧
      (∀ p ∈ removed, w'.fs.node p = none) ∧
      ∀ q, (∀ p ∈ removed, ¬ p <+: q) → w'.fs.node q = w.fs.node q := by
  obtain ⟨active, hactive, h⟩ := Eff.bind_lift_eq_ok h
  obtain ⟨present, w₁, hpresent, h⟩ := Eff.bind_eq_ok h
  obtain ⟨hpresent, hfs₁⟩ := Py.inspect_eq_ok hpresent
  obtain rfl := Except.ok.inj hpresent
  refine ⟨active, hactive, ?_⟩
  split_ifs at h with hp
  · obtain ⟨names, w₂, hnames, h⟩ := Eff.bind_eq_ok h
    obtain ⟨hnames, hfs₂⟩ := Py.inspect_eq_ok hnames
    obtain rfl := Except.ok.inj hnames
    have hremove := removeStale_eq_ok h
    rwa [hfs₂, hfs₁] at hremove
  · obtain ⟨rfl, rfl⟩ := Eff.pure_eq_ok h
    rw [hfs₁]
    refine ⟨fun p => ⟨fun hmem => absurd hmem List.not_mem_nil, ?_⟩, by simp, fun q _ => rfl⟩
    rintro ⟨name, -, rfl, -, hdir⟩
    exact absurd (FileSystem.isDir_iff.2 (w.fs.parent_dir _ name
      (by rw [FileSystem.isDir_iff.1 hdir]; simp))) hp

/-- The listing of a directory names all that stands in it. -/
def ListsAll (listing : Listing) (fs : FileSystem) (p : Path) : Prop :=
  ∀ name, fs.node (p ++ [name]) ≠ none → name ∈ listing fs p

/-- **What pruning leaves.**  A pruning that returns has removed the directories in `locks` except that
of the active lock, and reports them: nothing is left below them, and all that is not below them, the
directory of the active lock with it, is as it was.  Whoever prunes again for the lock, and returns,
removes nothing. -/
theorem prune_leaves {listing : Listing} {removed : List Path}
    (hlists : ListsAll listing w.fs (root ++ ["locks"]))
    (h : prune env listing lock root w = (.ok removed, w')) :
    ∃ active, lockDigest env.depth lock = .ok active ∧
      (∀ p, p ∈ removed ↔
        ∃ name, p = root ++ ["locks", name] ∧ name ≠ active ∧ w.fs.isDir p = true) ∧
      (∀ p ∈ removed, ∀ q, p <+: q → w'.fs.node q = none) ∧
      (∀ q, (∀ p ∈ removed, ¬ p <+: q) → w'.fs.node q = w.fs.node q) ∧
      (∀ q, root ++ ["locks", active] <+: q → w'.fs.node q = w.fs.node q) ∧
      ∀ (env' : Env) (listing' : Listing) (clock : ℕ) (removed' : List Path) (w'' : World),
        env'.depth = env.depth →
        prune env' listing' lock root ⟨w'.fs, clock⟩ = (.ok removed', w'') →
        removed' = [] ∧ w''.fs.node = w'.fs.node := by
  obtain ⟨active, hactive, hmem, hgone, hsame⟩ := prune_eq_ok h
  have hparent : ∀ name : String, root ++ ["locks", name] = root ++ ["locks"] ++ [name] := by simp
  have hremoved : ∀ p, p ∈ removed ↔
      ∃ name, p = root ++ ["locks", name] ∧ name ≠ active ∧ w.fs.isDir p = true := by
    intro p
    rw [hmem]
    constructor
    · rintro ⟨name, -, rfl, hne, hdir⟩
      exact ⟨name, (hparent name).symm, hne, hdir⟩
    · rintro ⟨name, rfl, hne, hdir⟩
      refine ⟨name, hlists name ?_, hparent name, hne, hdir⟩
      rw [← hparent, FileSystem.isDir_iff.1 hdir]
      simp
  have hown : ∀ q, root ++ ["locks", active] <+: q → ∀ p ∈ removed, ¬ p <+: q := by
    intro q hq p hp hbelow
    obtain ⟨name, rfl, hne, -⟩ := (hremoved p).1 hp
    rw [hparent] at hq hbelow
    exact hne (Py.eq_of_below_both hbelow hq)
  refine ⟨active, hactive, hremoved, fun p hp q hq => FileSystem.node_eq_none_below (hgone p hp) hq,
    hsame, fun q hq => hsame q (hown q hq), ?_⟩
  intro env' listing' clock removed' w'' hdepth h'
  obtain ⟨active', hactive', hmem', -, hsame'⟩ := prune_eq_ok h'
  obtain rfl := Except.ok.inj (hactive.symm.trans (hdepth ▸ hactive'))
  have hnil : removed' = [] := by
    refine List.eq_nil_iff_forall_not_mem.2 fun p hp => ?_
    obtain ⟨name, -, rfl, hne, hdir⟩ := (hmem' p).1 hp
    -- a directory of another lock that is still there would have been removed
    have hleft : root ++ ["locks"] ++ [name] ∉ removed := by
      intro hmem
      rw [FileSystem.isDir_iff, hgone _ hmem] at hdir
      cases hdir
    have hnode := hsame (root ++ ["locks"] ++ [name]) fun p hp hbelow => hleft (by
      obtain ⟨name', rfl, -⟩ := (hremoved p).1 hp
      rw [hparent] at hbelow hp
      rwa [Py.eq_of_below_both hbelow List.prefix_rfl] at hp)
    refine hleft ((hremoved _).2 ⟨name, (hparent name).symm, hne, ?_⟩)
    rwa [FileSystem.isDir_iff, ← hnode, ← FileSystem.isDir_iff]
  subst hnil
  exact ⟨rfl, funext fun q => hsame' q (by simp)⟩

/-- A cache root with the directories of two locks, and a file in each. -/
def twoCaches : FileSystem :=
  .ofLists [[], ["locks"], ["locks", "old"], ["locks", "old", "images"], ["locks", emptyLockDigest]]
    [(["locks", "old", "images", "kind"], ⟨#[1]⟩), (["locks", emptyLockDigest, "lock.json"], ⟨#[2]⟩)]
    (by decide)

/-- What stands in `locks`. -/
def twoListing : Listing := fun _ _ => [emptyLockDigest, "old"]

theorem prune_leaves_twoCaches :
    ∃ removed w', prune servingEnv twoListing emptyLock [] ⟨twoCaches, 0⟩ = (.ok removed, w') ∧
      ["locks", "old"] ∈ removed ∧ (∀ q, ["locks", "old"] <+: q → w'.fs.node q = none) ∧
      ∀ q, ["locks", emptyLockDigest] <+: q → w'.fs.node q = twoCaches.node q := by
  have hdir : twoCaches.isDir ([] ++ ["locks"]) = true := by decide
  have hstale : twoCaches.isDir ([] ++ ["locks"] ++ ["old"]) = true := by decide
  have hreturns : (prune servingEnv twoListing emptyLock []).Returns ⟨twoCaches, 0⟩
      fun _ _ => True := by
    refine Eff.returns_bind_lift lockDigest_emptyLock ?_
    refine Eff.returns_bind_of_ok (Py.inspect_of_ok (servingEnv_calm _) rfl) ?_
    rw [if_pos hdir]
    refine Eff.returns_bind_of_ok (Py.inspect_of_ok (servingEnv_calm _) rfl) ?_
    -- the directory of the lock itself is passed over
    refine Eff.returns_bind_of_ok (Py.inspect_of_ok (servingEnv_calm _) rfl) ?_
    rw [if_neg (by simp)]
    refine Eff.returns_bind_of_ok (Py.inspect_of_ok (servingEnv_calm _) rfl) ?_
    rw [if_pos (by rw [Bool.and_eq_true]; exact ⟨hstale, by decide⟩)]
    have hremove : twoCaches.rmtree ([] ++ ["locks"] ++ ["old"]) =
        .ok (twoCaches.place ([] ++ ["locks"] ++ ["old"]) .empty) := by
      rw [FileSystem.rmtree, FileSystem.isDir_iff.1 hstale]
    refine Eff.returns_bind_of_ok (Py.change_of_ok (servingEnv_calm _) hremove) ?_
    exact ⟨_, _, rfl, trivial⟩
  obtain ⟨removed, w', hrun, -⟩ := hreturns
  have hlists : ListsAll twoListing twoCaches ([] ++ ["locks"]) := by
    intro name hname
    by_contra hnot
    simp only [twoListing, List.mem_cons, List.not_mem_nil, or_false, not_or] at hnot
    exact hname (by simp [twoCaches, FileSystem.ofLists, List.lookup_cons, hnot])
  obtain ⟨active, hactive, hremoved, hgone, -, hown, -⟩ := prune_leaves hlists hrun
  obtain rfl := Except.ok.inj (lockDigest_emptyLock.symm.trans hactive)
  have hold : ["locks", "old"] ∈ removed := (hremoved _).2 ⟨"old", rfl, by decide, hstale⟩
  exact ⟨removed, w', hrun, hold, hgone _ hold, hown⟩

end Artifacts
