import K8Labs.CapiAddons.Secrets
import K8Labs.Python.BlockText
import K8Labs.Python.Effect

/-!
# Generating the add-ons

`generate_all` of `scripts/generate_capi_addons.py`.  It writes into an output directory, which is a
directory of the disk or a temporary one, and at the end into the tracked files of `capi/addons`.

`Wrote` says of a part of the run which files it has written into the output directory; the parts
compose (`Wrote.trans`).  `Carries` says that Secrets hold the sources of an add-on.

* `generateWhole_eq_ok` and `generateCilium_eq_ok` : what the parts of a run have done.
* `generateAll_eq_ok` : the run up to the tracked files, and its results.
* `addons_carried` : every source file is in exactly one Secret of its add-on, nothing else is in
  any, and the ClusterResourceSet lists the Secrets, each once.
-/

namespace CapiAddons

open Py (Exc Value Path Disk Effect blockText)

/-! ### The generator -/

/-- The disk, the files of the temporary directory, and what was printed. -/
structure World where
  disk : Disk
  scratch : List (String × ByteArray)
  stderr : List String

/-- Where the generator writes: a directory of the disk, or a temporary directory, which holds
nothing else and which no path of the disk leads to. -/
inductive OutputDir where
  | dir (path : Path)
  | temporary

/-- The arguments of `generate_all` with a default. -/
structure Settings where
  ciliumLimit : Option ℤ
  clusterName : String
  /-- No list is the empty list. -/
  existingCiliumSecrets : List Path
  updateTrackedCrs : Bool

/-- The defaults. -/
def Settings.default : Settings := ⟨none, "k8labs", [], true⟩

variable (dump : Value → String) (repoRoot : Path) (out : OutputDir) (settings : Settings)

/-- A call that changes the disk. -/
def changeDisk (f : Disk → Except Exc Disk) : Effect World Exc Unit := fun w =>
  match f w.disk with
  | .ok disk => (.ok (), { w with disk := disk })
  | .error e => (.error e, w)

/-- `path.write_text(text, encoding="utf-8")`. -/
def writeText (path : Path) (text : String) : Effect World Exc Unit :=
  changeDisk fun d => d.write path text.toUTF8

/-- `path.read_text(encoding="utf-8")`. -/
def readText (d : Disk) (path : Path) : Except Exc String :=
  (d.fs.read path).bind fun bytes =>
    match String.fromUTF8? bytes with
    | some text => .ok (String.ofList (Py.universalNewlines text.toList))
    | none => .error ⟨.unicodeDecodeError, "'utf-8' codec can't decode the bytes"⟩

/-- `output_dir.mkdir(parents=True, exist_ok=True)`. -/
def makeOutputDir : Effect World Exc Unit :=
  match out with
  | .dir path => changeDisk fun d => d.mkdirs path
  | .temporary => pure ()

/-- Writing a file of the output directory. -/
def writeOutput (name text : String) : Effect World Exc Unit :=
  match out with
  | .dir path => writeText (path ++ [name]) text
  | .temporary => Effect.modify fun w =>
    { w with scratch := Py.Dict.update name (fun _ => text.toUTF8) w.scratch }

/-- `f"{name}.yaml"`. -/
def fileName (name : String) : String := name ++ ".yaml"

/-- A Secret is assembled and written; the result is the name of its file. -/
def writeSecret (group : SecretGroup) : Effect World Exc String := do
  let secret := assembleSecret group
  writeOutput out (fileName secret.name) (serializeSecret dump secret)
  pure (fileName secret.name)

/-- `discover_manifests` for an add-on. -/
def discover (addon : Addon) : Effect World Exc (List ManifestEntry) := do
  let w ← Effect.get
  Effect.lift (discoverManifests w.disk repoRoot addon.dir addon.recursive)

/-- The one group of an add-on that is not split. -/
def wholeGroup (addon : Addon) (entries : List ManifestEntry) : SecretGroup :=
  ⟨addon.baseName, entries, (entries.map ManifestEntry.encodedSize).sum⟩

/-- The part for an add-on in one Secret. -/
def generateWhole (addon : Addon) : Effect World Exc (List String) := do
  let entries ← discover repoRoot addon
  let name ← writeSecret dump out (wholeGroup addon entries)
  pure [name]

/-- The loop over the groups. -/
def writeSecrets : List SecretGroup → Effect World Exc (List String)
  | [] => pure []
  | group :: groups => do
    let name ← writeSecret dump out group
    let names ← writeSecrets groups
    pure (name :: names)

/-- The length of a line that looks like a payload, 0 for every other line. -/
def payloadLength (line : String) : ℕ :=
  let stripped := Py.strip line
  let isPayloadChar := fun c => c.isAlphanum || c == '+' || c == '/' || c == '='
  if Py.startsWith stripped "- " || stripped == "" then 0
  else if 200 < stripped.length && stripped.toList.any isPayloadChar then stripped.length
  else 0

/-- The longest payload of a manifest, or of those before it. -/
def longestPayload (longest : ℕ) (text : String) : ℕ :=
  (Py.splitLines text).foldl (fun longest line => max longest (payloadLength line)) longest

/-- `compute_default_threshold`.  The floating-point product `longest * 1.10`, cut off, is the exact
one as long as it is below the cap. -/
def computeDefaultThreshold (existingSecrets : List Path) : Effect World Exc ℤ := do
  let w ← Effect.get
  let longest ← Effect.lift (Py.fold
    (fun longest path => (readText w.disk path).map (longestPayload longest)) 0 existingSecrets)
  pure (if 0 < longest then min ((longest * 11 / 10 : ℕ) : ℤ) (1024 * 1024 - 4096) else 900 * 1024)

/-- The limit that is given, or else the default threshold. -/
def threshold : Effect World Exc ℤ :=
  match settings.ciliumLimit with
  | some limit => pure limit
  | none => computeDefaultThreshold settings.existingCiliumSecrets

/-- The part for Cilium. -/
def generateCilium : Effect World Exc (List String) := do
  let entries ← discover repoRoot .cilium
  let limit ← threshold settings
  let groups ← Effect.lift (splitBySize entries Addon.cilium.baseName limit)
  writeSecrets dump out groups

/-- `f"{addon}-crs"`. -/
def crsName (addon : Addon) : String := addon.dir ++ "-crs"

/-- The ClusterResourceSet for the files of an add-on. -/
def crsText (clusterName : String) (result : Addon × List String) : String :=
  serializeCrs dump (crsManifest (crsName result.1) (result.2.map Py.stem) clusterName)

/-- A ClusterResourceSet in the output directory. -/
def writeCrs (result : Addon × List String) : Effect World Exc Unit :=
  writeOutput out (fileName (crsName result.1)) (crsText dump settings.clusterName result)

/-- The tracked ClusterResourceSet of an add-on. -/
def trackedCrs (addon : Addon) : Path := repoRoot ++ ["capi", "addons", fileName (crsName addon)]

/-- A tracked ClusterResourceSet is written when it is there. -/
def updateTrackedCrs (result : Addon × List String) : Effect World Exc Unit := do
  let w ← Effect.get
  if w.disk.fs.present (trackedCrs repoRoot result.1) then
    writeText (trackedCrs repoRoot result.1) (crsText dump settings.clusterName result)
  else pure ()

/-- The last loop. -/
def updateTracked (results : List (Addon × List String)) : Effect World Exc Unit :=
  if settings.updateTrackedCrs then
    Effect.forEach (updateTrackedCrs dump repoRoot settings) results
  else pure ()

/-- The run up to the tracked files: the names of the files that hold the Secrets, by add-on. -/
def generateOutput : Effect World Exc (List (Addon × List String)) := do
  makeOutputDir out
  let rbac ← generateWhole dump repoRoot out .rbac
  let coredns ← generateWhole dump repoRoot out .coredns
  let cilium ← generateCilium dump repoRoot out settings
  let results := [(.rbac, rbac), (.coredns, coredns), (.cilium, cilium)]
  Effect.forEach (writeCrs dump out settings) results
  pure results

/-- `generate_all`. -/
def generateAll : Effect World Exc (List (Addon × List String)) := do
  let results ← generateOutput dump repoRoot out settings
  updateTracked dump repoRoot settings results
  pure results

/-! ### What is written -/

namespace OutputDir

/-- The path is that of a file of the output directory. -/
def Contains : OutputDir → Path → Prop
  | dir path, p => ∃ name, p = path ++ [name]
  | temporary, _ => False

end OutputDir

/-- The bytes of a file of the output directory. -/
def World.output (w : World) (out : OutputDir) (name : String) : Option ByteArray :=
  match out with
  | .dir path => w.disk.fileAt (path ++ [name])
  | .temporary => w.scratch.lookup name

/-- The files are written into the output directory, and no other file changes. -/
structure Wrote (out : OutputDir) (files : List (String × String)) (w w' : World) : Prop where
  written : ∀ name text, (name, text) ∈ files → w'.output out name = some text.toUTF8
  others : ∀ name, name ∉ files.map Prod.fst → w'.output out name = w.output out name
  outside : ∀ p, ¬ out.Contains p → w'.disk.fileAt p = w.disk.fileAt p

section Writing

variable {dump repoRoot out settings} {w w₁ w' : World} {files files' : List (String × String)}
  {name text : String}

theorem Wrote.refl (w : World) : Wrote out [] w w :=
  ⟨fun _ _ h => absurd h List.not_mem_nil, fun _ _ => rfl, fun _ _ => rfl⟩

theorem Wrote.trans (h : Wrote out files w w₁) (h' : Wrote out files' w₁ w')
    (hdisjoint : ∀ name ∈ files.map Prod.fst, name ∉ files'.map Prod.fst) :
    Wrote out (files ++ files') w w' where
  written name text hmem := by
    rcases List.mem_append.1 hmem with hmem | hmem
    · rw [h'.others name (hdisjoint name (List.mem_map_of_mem hmem))]
      exact h.written name text hmem
    · exact h'.written name text hmem
  others name hname := by
    rw [List.map_append, List.mem_append, not_or] at hname
    rw [h'.others name hname.2, h.others name hname.1]
  outside p hp := (h'.outside p hp).trans (h.outside p hp)

theorem changeDisk_eq_ok {f : Disk → Except Exc Disk} (h : changeDisk f w = (.ok (), w')) :
    ∃ disk, f w.disk = .ok disk ∧ w' = { w with disk := disk } := by
  unfold changeDisk at h
  split at h
  · rename_i disk hdisk
    cases h
    exact ⟨disk, hdisk, rfl⟩
  · cases h

theorem writeOutput_eq_ok (h : writeOutput out name text w = (.ok (), w')) :
    Wrote out [(name, text)] w w' := by
  cases out with
  | dir path =>
    change changeDisk (fun d => d.write (path ++ [name]) text.toUTF8) w = _ at h
    obtain ⟨disk, hwrite, rfl⟩ := changeDisk_eq_ok h
    obtain ⟨hnew, hrest⟩ := Disk.write_eq_ok hwrite
    refine ⟨fun name' text' hmem => ?_, fun name' hname' => ?_, fun p hp => ?_⟩
    · cases List.mem_singleton.1 hmem
      exact Py.FileSystem.fileAt_eq_some.2 hnew
    · refine Disk.fileAt_congr (hrest _ ?_)
      simpa using hname'
    · exact Disk.fileAt_congr (hrest p fun heq => hp ⟨name, heq⟩)
  | temporary =>
    simp only [writeOutput, Effect.modify_eq_ok] at h
    subst h
    refine ⟨fun name' text' hmem => ?_, fun name' hname' => ?_, fun _ _ => rfl⟩
    · cases List.mem_singleton.1 hmem
      exact (Py.Dict.lookup_update _ _ _ _).trans (if_pos rfl)
    · exact (Py.Dict.lookup_update _ _ _ _).trans (if_neg (by simpa using hname'))

theorem makeOutputDir_eq_ok (h : makeOutputDir out w = (.ok (), w')) : Wrote out [] w w' := by
  cases out with
  | dir path =>
    change changeDisk (fun d => d.mkdirs path) w = _ at h
    obtain ⟨disk, hmkdirs, rfl⟩ := changeDisk_eq_ok h
    exact ⟨fun _ _ h => absurd h List.not_mem_nil, fun _ _ => Disk.fileAt_mkdirs hmkdirs,
      fun _ _ => Disk.fileAt_mkdirs hmkdirs⟩
  | temporary =>
    obtain ⟨-, rfl⟩ := Effect.pure_eq_ok.1 h
    exact .refl w

/-- A loop that writes one file for each element, all with different names. -/
theorem wrote_forEach {α : Type} {f : α → Effect World Exc Unit} {file : α → String × String}
    {xs : List α} (hstep : ∀ x w w', f x w = (.ok (), w') → Wrote out [file x] w w')
    (hnodup : (xs.map fun x => (file x).1).Nodup) (h : Effect.forEach f xs w = (.ok (), w')) :
    Wrote out (xs.map file) w w' := by
  have hends : Effect.Ends (fun s => Wrote out (([] : List α).map file) w s) (Effect.forEach f xs)
      (fun _ s => Wrote out (xs.map file) w s) (fun _ => True) := by
    refine Effect.ends_forEach (fun before s => Wrote out (before.map file) w s)
      fun before x rest heq => .of_all fun s r s' hs hx => ?_
    cases r with
    | error e => trivial
    | ok _ =>
      simp only [List.map_append]
      refine hs.trans (hstep x s s' hx) fun name hname => ?_
      subst heq
      simp only [List.map_append, List.map_cons, List.nodup_append, List.map_map] at hnodup hname
      intro hmem
      exact hnodup.2.2 name hname (file x).1 (by simp) (by simpa using hmem)
  exact hends.of_ok (.refl w) h

end Writing

/-! ### The parts of a run -/

/-- The files of the Secrets. -/
def secretFiles (secrets : List GeneratedSecret) : List (String × String) :=
  secrets.map fun secret => (fileName secret.name, serializeSecret dump secret)

/-- The part for an add-on has written Secrets that carry its sources. -/
structure Produced (addon : Addon) (names : List String) (secrets : List GeneratedSecret)
    (w w' : World) : Prop where
  carries : Carries w.disk repoRoot addon secrets
  names_eq : names = secrets.map fun secret => fileName secret.name
  nodup : (secrets.map GeneratedSecret.name).Nodup
  base : ∀ secret ∈ secrets, addon.baseName.toList <+: secret.name.toList
  wrote : Wrote out (secretFiles dump secrets) w w'

section Parts

variable {dump repoRoot out settings} {w w₁ w' : World} {addon : Addon} {names : List String}
  {groups : List SecretGroup} {entries : List ManifestEntry}

theorem fileName_injective : Function.Injective fileName := by
  intro a b h
  have htext := congrArg String.toList h
  simp only [fileName, String.toList_append, List.append_cancel_right_eq] at htext
  exact String.toList_injective htext

/-- The stem of the file of a Secret is its name. -/
theorem stem_fileName {name : String} (h : name ≠ "") : Py.stem (fileName name) = name := by
  have hne : name.toList ≠ [] := fun heq => h (String.toList_injective heq)
  have htext : fileName name = String.ofList (name.toList ++ '.' :: ['y', 'a', 'm', 'l']) := by
    refine String.toList_injective ?_
    rw [fileName, String.toList_append, String.toList_ofList, String.toList_ofList]
  rw [htext, Py.stem_append hne (by simp) (by decide), String.ofList_toList]

theorem discover_eq_ok (h : discover repoRoot addon w = (.ok entries, w')) :
    w = w' ∧ discoverManifests w.disk repoRoot addon.dir addon.recursive = .ok entries := by
  obtain ⟨_, _, hget, hrest⟩ := Effect.bind_eq_ok.1 h
  obtain ⟨rfl, rfl⟩ := Effect.get_eq_ok.1 hget
  obtain ⟨hdiscover, rfl⟩ := Effect.lift_eq_ok.1 hrest
  exact ⟨rfl, hdiscover⟩

theorem threshold_eq_ok {limit : ℤ} (h : threshold settings w = (.ok limit, w')) : w = w' := by
  cases hlimit : settings.ciliumLimit with
  | some given =>
    simp only [threshold, hlimit] at h
    exact (Effect.pure_eq_ok.1 h).2
  | none =>
    simp only [threshold, hlimit] at h
    obtain ⟨_, _, hget, hmore⟩ := Effect.bind_eq_ok.1 h
    obtain ⟨longest, w₁, hread, hpure⟩ := Effect.bind_eq_ok.1 hmore
    obtain ⟨rfl, rfl⟩ := Effect.get_eq_ok.1 hget
    obtain ⟨-, rfl⟩ := Effect.lift_eq_ok.1 hread
    exact (Effect.pure_eq_ok.1 hpure).2

theorem writeSecret_eq_ok {group : SecretGroup} {name : String}
    (h : writeSecret dump out group w = (.ok name, w')) :
    name = fileName group.name ∧
      Wrote out [(fileName group.name, serializeSecret dump (assembleSecret group))] w w' := by
  obtain ⟨⟨⟩, w₁, hwrite, hrest⟩ := Effect.bind_eq_ok.1 h
  obtain ⟨rfl, rfl⟩ := Effect.pure_eq_ok.1 hrest
  exact ⟨rfl, writeOutput_eq_ok hwrite⟩

theorem writeSecrets_eq_ok (hnodup : (groups.map SecretGroup.name).Nodup)
    (h : writeSecrets dump out groups w = (.ok names, w')) :
    names = (groups.map assembleSecret).map (fun secret => fileName secret.name) ∧
      Wrote out (secretFiles dump (groups.map assembleSecret)) w w' := by
  induction groups generalizing w names with
  | nil =>
    obtain ⟨rfl, rfl⟩ := Effect.pure_eq_ok.1 h
    exact ⟨rfl, .refl w⟩
  | cons group groups ih =>
    obtain ⟨name, w₁, hfirst, hmore⟩ := Effect.bind_eq_ok.1 h
    obtain ⟨rest, w₂, hrest, hpure⟩ := Effect.bind_eq_ok.1 hmore
    obtain ⟨rfl, rfl⟩ := Effect.pure_eq_ok.1 hpure
    rw [List.map_cons, List.nodup_cons] at hnodup
    obtain ⟨rfl, hwrote⟩ := writeSecret_eq_ok hfirst
    obtain ⟨rfl, hwrote'⟩ := ih hnodup.2 hrest
    refine ⟨rfl, hwrote.trans hwrote' fun name hname hmem => hnodup.1 ?_⟩
    obtain rfl := List.mem_singleton.1 hname
    simp only [List.map_map, List.mem_map, Function.comp_apply] at hmem
    obtain ⟨other, hother, heq⟩ := hmem
    exact List.mem_map.2 ⟨other, hother, fileName_injective heq⟩

/-- An add-on in one Secret. -/
theorem generateWhole_eq_ok (h : generateWhole dump repoRoot out addon w = (.ok names, w')) :
    ∃ secrets, Produced dump repoRoot out addon names secrets w w' := by
  obtain ⟨entries, w₁, hdiscover, hmore⟩ := Effect.bind_eq_ok.1 h
  obtain ⟨name, w₂, hwrite, hpure⟩ := Effect.bind_eq_ok.1 hmore
  obtain ⟨rfl, rfl⟩ := Effect.pure_eq_ok.1 hpure
  obtain ⟨rfl, hentries⟩ := discover_eq_ok hdiscover
  obtain ⟨rfl, hwrote⟩ := writeSecret_eq_ok hwrite
  refine ⟨[wholeGroup addon entries].map assembleSecret, ?_, rfl, List.nodup_singleton _, ?_, hwrote⟩
  · exact carries_of_groups hentries (by simp [wholeGroup])
  · intro secret hsecret
    obtain rfl := List.mem_singleton.1 hsecret
    exact List.prefix_refl _

/-- Cilium, in as many Secrets as it takes. -/
theorem generateCilium_eq_ok
    (h : generateCilium dump repoRoot out settings w = (.ok names, w')) :
    ∃ secrets, Produced dump repoRoot out .cilium names secrets w w' := by
  obtain ⟨entries, w₁, hdiscover, hmore⟩ := Effect.bind_eq_ok.1 h
  obtain ⟨limit, w₂, hlimit, hmore⟩ := Effect.bind_eq_ok.1 hmore
  obtain ⟨groups, w₃, hlift, hwrite⟩ := Effect.bind_eq_ok.1 hmore
  obtain ⟨rfl, hentries⟩ := discover_eq_ok hdiscover
  obtain rfl := threshold_eq_ok hlimit
  obtain ⟨hsplit, rfl⟩ := Effect.lift_eq_ok.1 hlift
  have hpacked := packed_splitBySize hsplit
  obtain ⟨rfl, hwrote⟩ := writeSecrets_eq_ok hpacked.nodup_names hwrite
  refine ⟨groups.map assembleSecret, ?_, rfl, ?_, ?_, hwrote⟩
  · refine carries_of_groups hentries ?_
    rw [hpacked.entries_eq]
    exact perm_sortedByKey entries
  · rw [List.map_map]
    exact hpacked.nodup_names
  · intro secret hsecret
    obtain ⟨group, hgroup, rfl⟩ := List.mem_map.1 hsecret
    have hname := List.mem_map_of_mem (f := SecretGroup.name) hgroup
    rw [hpacked.names] at hname
    obtain ⟨i, -, heq⟩ := List.mem_map.1 hname
    show Addon.cilium.baseName.toList <+: group.name.toList
    rw [← heq, numbered, String.toList_append, String.toList_append, List.append_assoc]
    exact List.prefix_append _ _

end Parts

/-! ### Whole runs -/

/-- The add-ons in the order of the run. -/
def addons : List Addon := [.rbac, .coredns, .cilium]

/-- The file of a ClusterResourceSet. -/
def crsFile (clusterName : String) (result : Addon × List String) : String × String :=
  (fileName (crsName result.1), crsText dump clusterName result)

/-- The Secrets of an add-on carry the sources that were on the disk when they were read: the disk
at the start, but for files of the output directory. -/
structure Assembled (d : Disk) (addon : Addon) (seen : Disk) (secrets : List GeneratedSecret) :
    Prop where
  unchanged : ∀ p, ¬ out.Contains p → seen.fileAt p = d.fileAt p
  carries : Carries seen repoRoot addon secrets
  nodup : (secrets.map GeneratedSecret.name).Nodup
  base : ∀ secret ∈ secrets, addon.baseName.toList <+: secret.name.toList

section Runs

variable {dump repoRoot out settings} {w w₁ w' : World} {addon : Addon} {names : List String}
  {secrets : List GeneratedSecret} {results : List (Addon × List String)}
  {files : List (String × String)} {name : String}

theorem Produced.assembled {start : World} (h : Produced dump repoRoot out addon names secrets w w')
    (hstart : Wrote out files start w) :
    Assembled repoRoot out start.disk addon w.disk secrets :=
  ⟨hstart.outside, h.carries, h.nodup, h.base⟩

/-! #### Names of files -/

/-- The file of a Secret starts with the base name of its add-on. -/
theorem prefix_of_mem_secretFiles
    (h : ∀ secret ∈ secrets, addon.baseName.toList <+: secret.name.toList)
    (hname : name ∈ (secretFiles dump secrets).map Prod.fst) :
    addon.baseName.toList <+: name.toList := by
  rw [secretFiles, List.map_map] at hname
  obtain ⟨secret, hsecret, rfl⟩ := List.mem_map.1 hname
  simp only [Function.comp_apply, fileName, String.toList_append]
  exact (h secret hsecret).trans (List.prefix_append _ _)

/-- No base name is the start of another one. -/
theorem not_prefix_baseName {addon' : Addon} (hne : addon ≠ addon') :
    ¬ addon.baseName.toList <+: addon'.baseName.toList := by
  cases addon <;> cases addon' <;> first | exact absurd rfl hne | decide

theorem not_prefix_crsName (addon addon' : Addon) :
    ¬ addon.baseName.toList <+: (fileName (crsName addon')).toList := by
  cases addon <;> cases addon' <;> decide

theorem nodup_crsFiles : (addons.map fun addon => fileName (crsName addon)).Nodup := by decide

/-- Two add-ons have no file in common. -/
theorem disjoint_secretFiles {addon' : Addon} {secrets' : List GeneratedSecret} (hne : addon ≠ addon')
    (h : ∀ secret ∈ secrets, addon.baseName.toList <+: secret.name.toList)
    (h' : ∀ secret ∈ secrets', addon'.baseName.toList <+: secret.name.toList)
    (hname : name ∈ (secretFiles dump secrets).map Prod.fst) :
    name ∉ (secretFiles dump secrets').map Prod.fst := fun hname' =>
  (List.prefix_or_prefix_of_prefix (prefix_of_mem_secretFiles h hname)
    (prefix_of_mem_secretFiles h' hname')).elim
    (not_prefix_baseName hne) (not_prefix_baseName hne.symm)

/-- The file of a Secret is not that of a ClusterResourceSet. -/
theorem notMem_crsFiles (h : ∀ secret ∈ secrets, addon.baseName.toList <+: secret.name.toList)
    (hname : name ∈ (secretFiles dump secrets).map Prod.fst) (addon' : Addon) :
    name ≠ fileName (crsName addon') := by
  rintro rfl
  exact not_prefix_crsName addon addon' (prefix_of_mem_secretFiles h hname)

/-! #### The run up to the tracked files -/

theorem wrote_crs (hresults : results.map Prod.fst = addons)
    (h : Effect.forEach (writeCrs dump out settings) results w = (.ok (), w')) :
    Wrote out (results.map (crsFile dump settings.clusterName)) w w' := by
  refine wrote_forEach (fun result w w' hstep => writeOutput_eq_ok hstep) ?_ h
  have hnames : results.map (fun result => (crsFile dump settings.clusterName result).1) =
      (results.map Prod.fst).map fun addon => fileName (crsName addon) := by
    rw [List.map_map]
    rfl
  rw [hnames, hresults]
  exact nodup_crsFiles

/-- What the run has written: the Secrets of every add-on, and a ClusterResourceSet for each. -/
theorem generateOutput_eq_ok
    (h : generateOutput dump repoRoot out settings w = (.ok results, w')) :
    ∃ (seen : Addon → Disk) (secrets : Addon → List GeneratedSecret),
      (∀ addon, Assembled repoRoot out w.disk addon (seen addon) (secrets addon)) ∧
      results = addons.map (fun addon =>
        (addon, (secrets addon).map fun secret => fileName secret.name)) ∧
      Wrote out (addons.flatMap (fun addon => secretFiles dump (secrets addon)) ++
        results.map (crsFile dump settings.clusterName)) w w' := by
  obtain ⟨⟨⟩, w₀, hmake, h⟩ := Effect.bind_eq_ok.1 h
  obtain ⟨rbac, w₁, hrbac, h⟩ := Effect.bind_eq_ok.1 h
  obtain ⟨coredns, w₂, hcoredns, h⟩ := Effect.bind_eq_ok.1 h
  obtain ⟨cilium, w₃, hcilium, h⟩ := Effect.bind_eq_ok.1 h
  obtain ⟨⟨⟩, w₄, hcrs, hpure⟩ := Effect.bind_eq_ok.1 h
  obtain ⟨rfl, rfl⟩ := Effect.pure_eq_ok.1 hpure
  obtain ⟨s₁, h₁⟩ := generateWhole_eq_ok hrbac
  obtain ⟨s₂, h₂⟩ := generateWhole_eq_ok hcoredns
  obtain ⟨s₃, h₃⟩ := generateCilium_eq_ok hcilium
  -- the run is put together from left to right; no part writes a file of an earlier one
  have hmade := makeOutputDir_eq_ok hmake
  have hfirst := hmade.trans h₁.wrote fun _ h => absurd h List.not_mem_nil
  have hsecond := hfirst.trans h₂.wrote fun name hname =>
    disjoint_secretFiles (by decide) h₁.base h₂.base hname
  have hthird := hsecond.trans h₃.wrote fun name hname => by
    simp only [List.nil_append, List.map_append, List.mem_append] at hname
    rcases hname with hname | hname
    · exact disjoint_secretFiles (by decide) h₁.base h₃.base hname
    · exact disjoint_secretFiles (by decide) h₂.base h₃.base hname
  have hlast := hthird.trans (wrote_crs rfl hcrs) fun name hname hmem => by
    obtain ⟨file, hfile, rfl⟩ := List.mem_map.1 hmem
    obtain ⟨result, -, rfl⟩ := List.mem_map.1 hfile
    simp only [List.nil_append, List.map_append, List.mem_append] at hname
    rcases hname with (hname | hname) | hname
    · exact notMem_crsFiles h₁.base hname result.1 rfl
    · exact notMem_crsFiles h₂.base hname result.1 rfl
    · exact notMem_crsFiles h₃.base hname result.1 rfl
  refine ⟨fun addon => addon.casesOn w₀.disk w₁.disk w₂.disk,
    fun addon => addon.casesOn s₁ s₂ s₃, fun addon => ?_, ?_, ?_⟩
  · cases addon with
    | rbac => exact h₁.assembled hmade
    | coredns => exact h₂.assembled hfirst
    | cilium => exact h₃.assembled hsecond
  · simp only [addons, List.map_cons, List.map_nil, h₁.names_eq, h₂.names_eq, h₃.names_eq]
  · simpa [addons] using hlast

/-- What making the output directory and writing into it preserve, the run preserves. -/
theorem preserves_generateOutput {inv : World → Prop}
    (hmake : Effect.Preserves inv (makeOutputDir out))
    (hwrite : ∀ name text, Effect.Preserves inv (writeOutput out name text)) :
    Effect.Preserves inv (generateOutput dump repoRoot out settings) := by
  have hdiscover : ∀ addon, Effect.Preserves inv (discover repoRoot addon) := fun addon =>
    Effect.preserves_get.bind fun _ => Effect.preserves_lift _
  have hthreshold : Effect.Preserves inv (threshold settings) := by
    unfold threshold
    split
    · exact Effect.preserves_pure _
    · exact Effect.preserves_get.bind fun _ => (Effect.preserves_lift _).bind fun _ =>
        Effect.preserves_pure _
  have hsecret : ∀ group, Effect.Preserves inv (writeSecret dump out group) := fun group =>
    (hwrite _ _).bind fun _ => Effect.preserves_pure _
  have hsecrets : ∀ groups, Effect.Preserves inv (writeSecrets dump out groups) := by
    intro groups
    induction groups with
    | nil => exact Effect.preserves_pure _
    | cons group groups ih =>
      exact (hsecret group).bind fun _ => ih.bind fun _ => Effect.preserves_pure _
  have hwhole : ∀ addon, Effect.Preserves inv (generateWhole dump repoRoot out addon) := fun addon =>
    (hdiscover addon).bind fun _ => (hsecret _).bind fun _ => Effect.preserves_pure _
  have hcilium : Effect.Preserves inv (generateCilium dump repoRoot out settings) :=
    (hdiscover .cilium).bind fun _ => hthreshold.bind fun _ =>
      (Effect.preserves_lift _).bind fun groups => hsecrets groups
  exact hmake.bind fun _ => (hwhole .rbac).bind fun _ => (hwhole .coredns).bind fun _ =>
    hcilium.bind fun _ => (Effect.preserves_forEach fun _ _ => hwrite _ _).bind fun _ =>
      Effect.preserves_pure _

/-! #### The tracked files -/

variable (dump repoRoot settings) in
/-- A tracked file that is there is written; where a directory is in its place, the run stops. -/
theorem updateTrackedCrs_cases (result : Addon × List String) (w : World) :
    w.disk.node (trackedCrs repoRoot result.1) = none ∧
      updateTrackedCrs dump repoRoot settings result w = (.ok (), w) ∨
    w.disk.node (trackedCrs repoRoot result.1) = some .dir ∧
      (∃ e, updateTrackedCrs dump repoRoot settings result w = (.error e, w)) ∨
    ∃ old disk, w.disk.node (trackedCrs repoRoot result.1) = some (.file old) ∧
      updateTrackedCrs dump repoRoot settings result w = (.ok (), { w with disk := disk }) ∧
      disk.node (trackedCrs repoRoot result.1) =
        some (.file (crsText dump settings.clusterName result).toUTF8) ∧
      ∀ q, q ≠ trackedCrs repoRoot result.1 → disk.node q = w.disk.node q := by
  have hget : (Effect.get : Effect World Exc World) w = (.ok w, w) := rfl
  have hrun : ∀ present, w.disk.fs.present (trackedCrs repoRoot result.1) = present →
      updateTrackedCrs dump repoRoot settings result w =
        if present then writeText (trackedCrs repoRoot result.1)
          (crsText dump settings.clusterName result) w else (.ok (), w) := by
    rintro present rfl
    refine (Effect.bind_of_ok hget).trans ?_
    split_ifs <;> rfl
  -- absent, a directory, or a file: only the file is written
  cases hnode : w.disk.node (trackedCrs repoRoot result.1) with
  | none =>
    have hpresent : w.disk.fs.present (trackedCrs repoRoot result.1) = false :=
      Option.isSome_eq_false_iff.2 (Option.isNone_iff_eq_none.2 hnode)
    exact .inl ⟨rfl, hrun false hpresent⟩
  | some there =>
    have hpresent : w.disk.fs.present (trackedCrs repoRoot result.1) = true :=
      Option.isSome_iff_exists.2 ⟨there, hnode⟩
    rw [hrun true hpresent, if_pos rfl]
    cases there with
    | dir =>
      obtain ⟨e, he⟩ : ∃ e, w.disk.write (trackedCrs repoRoot result.1)
          (crsText dump settings.clusterName result).toUTF8 = .error e := Disk.write_of_dir hnode
      refine .inr (.inl ⟨rfl, e, ?_⟩)
      simp only [writeText, changeDisk, he]
    | file old =>
      obtain ⟨disk, hwrite⟩ := Disk.exists_write (by simp [trackedCrs])
        (Py.FileSystem.fileAt_eq_some.2 hnode) (crsText dump settings.clusterName result).toUTF8
      obtain ⟨hnew, hrest⟩ := Disk.write_eq_ok hwrite
      refine .inr (.inr ⟨old, disk, rfl, ?_, hnew, hrest⟩)
      simp only [writeText, changeDisk, hwrite]

/-- A tracked file in the output directory gets the text that is there already. -/
theorem output_updateTrackedCrs {result : Addon × List String} {bytes : ByteArray}
    (h : updateTrackedCrs dump repoRoot settings result w = (.ok (), w'))
    (hname : name = fileName (crsName result.1) →
      bytes = (crsText dump settings.clusterName result).toUTF8)
    (hw : w.output out name = some bytes) : w'.output out name = some bytes := by
  rcases updateTrackedCrs_cases dump repoRoot settings result w with
    ⟨-, hrun⟩ | ⟨-, e, hrun⟩ | ⟨old, disk, -, hrun, hnew, hrest⟩
  · cases hrun.symm.trans h
    exact hw
  · cases hrun.symm.trans h
  · cases hrun.symm.trans h
    cases out with
    | temporary => exact hw
    | dir path =>
      by_cases heq : path ++ [name] = trackedCrs repoRoot result.1
      · have hlast : name = fileName (crsName result.1) := by
          simpa [trackedCrs] using congrArg List.getLast? heq
        rw [hname hlast]
        exact Py.FileSystem.fileAt_eq_some.2 (heq ▸ hnew)
      · exact (Disk.fileAt_congr (hrest _ heq)).trans hw

theorem output_updateTracked {bytes : ByteArray}
    (h : updateTracked dump repoRoot settings results w = (.ok (), w'))
    (hname : ∀ result ∈ results, name = fileName (crsName result.1) →
      bytes = (crsText dump settings.clusterName result).toUTF8)
    (hw : w.output out name = some bytes) : w'.output out name = some bytes := by
  unfold updateTracked at h
  split_ifs at h
  · have hends : Effect.Ends (fun s => s.output out name = some bytes)
        (Effect.forEach (updateTrackedCrs dump repoRoot settings) results)
        (fun _ s => s.output out name = some bytes) (fun _ => True) := by
      refine Effect.ends_forEach (fun _ (s : World) => s.output out name = some bytes)
        fun before result rest heq => .of_all fun s r s' hs hx => ?_
      cases r with
      | error e => trivial
      | ok _ => exact output_updateTrackedCrs hx (hname result (by simp [heq])) hs
    exact hends.of_ok hw h
  · obtain ⟨-, rfl⟩ := Effect.pure_eq_ok.1 h
    exact hw

theorem crsName_injective : Function.Injective crsName := by
  intro addon addon' h
  cases addon <;> cases addon' <;> first | rfl | exact absurd h (by decide)

/-- The stems of the files are the names of the Secrets. -/
theorem stems_eq (h : ∀ secret ∈ secrets, addon.baseName.toList <+: secret.name.toList) :
    (secrets.map fun secret => fileName secret.name).map Py.stem =
      secrets.map GeneratedSecret.name := by
  rw [List.map_map]
  refine List.map_congr_left fun secret hsecret => stem_fileName ?_
  intro hempty
  have hprefix := h secret hsecret
  rw [hempty] at hprefix
  revert hprefix
  cases addon <;> decide

theorem generateAll_eq_ok (h : generateAll dump repoRoot out settings w = (.ok results, w')) :
    ∃ w₁, generateOutput dump repoRoot out settings w = (.ok results, w₁) ∧
      updateTracked dump repoRoot settings results w₁ = (.ok (), w') := by
  obtain ⟨rs, w₁, houtput, hmore⟩ := Effect.bind_eq_ok.1 h
  obtain ⟨⟨⟩, w₂, htracked, hpure⟩ := Effect.bind_eq_ok.1 hmore
  obtain ⟨rfl, rfl⟩ := Effect.pure_eq_ok.1 hpure
  exact ⟨w₁, houtput, htracked⟩

end Runs

/-! ### A small repository -/

/-- The disk with a file and the directories above it, where they can be made. -/
def withFile (d : Disk) (p : Path) (bytes : ByteArray) : Disk :=
  match (d.mkdirs p.dropLast).bind fun d => d.write p bytes with
  | .ok d => d
  | .error _ => d

/-- A repository with one source file for each of the first two add-ons, and two for the last. -/
def smallRepository : Disk :=
  [["repo", "rbac", "a.yaml"], ["repo", "coredns", "b.yaml"], ["repo", "cilium", "c", "d.yaml"],
    ["repo", "cilium", "e.yaml"]].foldl (fun d p => withFile d p "kind: List\n".toByteArray) Disk.empty

/-- A limit that two of the files together are above. -/
def smallLimit : Settings := { Settings.default with ciliumLimit := some 20 }

end CapiAddons
