import K8Labs.CapiAddons.Generate
import Mathlib

/-!
# Checking generated add-ons

`check` of `scripts/generate_capi_addons.py`: the add-ons are generated into a temporary directory,
and every YAML file of the compared directory is compared with the generated one of its name.

The loop is over the files of the compared directory, so that a generated file that it lacks goes
unnoticed; and the generator that `check` runs rewrites the tracked files of `capi/addons`.

* `agrees_check_iff` : when the result is right.
* `unchanged_check_iff` : when the run leaves the disk as it was.
-/

namespace CapiAddons

open Py (Exc Value Path Disk Effect blockText)

/-! ### The program -/

variable (dump : Value → String) (repoRoot out : Path)

/-- `print(line, file=sys.stderr)`. -/
def printError (line : String) : Effect World Exc Unit :=
  Effect.modify fun w => { w with stderr := w.stderr ++ [line] }

/-- One file of the compared directory. -/
def compareFile (f : Path) : Effect World Exc Bool := do
  let w ← Effect.get
  match w.scratch.lookup f.name with
  | none => do
    printError ("FAIL: missing generated file: " ++ f.name)
    pure false
  | some expected => do
    let bytes ← Effect.lift (w.disk.fs.read f)
    if bytes = expected then pure true
    else do
      printError ("FAIL: content mismatch: " ++ f.name)
      pure false

/-- The loop over the compared directory; it ends with the first difference. -/
def compareFiles : List Path → Effect World Exc Bool
  | [] => pure true
  | f :: fs => do
    let same ← compareFile f
    if same then compareFiles fs else pure false

/-- `with tempfile.TemporaryDirectory()`. -/
def withTemporaryDirectory {α : Type} (body : Effect World Exc α) : Effect World Exc α := fun w =>
  let (r, w') := body { w with scratch := [] }
  (r, { w' with scratch := [] })

/-- The body of the `with` statement. -/
def checkGenerated : Effect World Exc Bool := do
  let _ ← generateAll dump repoRoot .temporary .default
  let w ← Effect.get
  compareFiles (w.disk.glob out ".yaml")

/-- `check`. -/
def check : Effect World Exc Bool := withTemporaryDirectory (checkGenerated dump repoRoot out)

/-! ### What is compared -/

/-- A run of the program with nothing but the disk. -/
def World.start (d : Disk) : World := ⟨d, [], []⟩

/-- The files that a generator writes into the temporary directory. -/
def filesOf {α : Type} (generator : Effect World Exc α) (d : Disk) :
    Except Exc (List (String × ByteArray)) :=
  match generator (.start d) with
  | (.ok _, w) => .ok w.scratch
  | (.error e, _) => .error e

/-- The files that `generate_all` would write. -/
def generated (d : Disk) : Except Exc (List (String × ByteArray)) :=
  filesOf (generateAll dump repoRoot .temporary .default) d

/-- The name is that of a YAML file. -/
def IsYaml (name : String) : Prop := Py.endsWith name ".yaml" = true

/-- The YAML files of the directory, names and bytes, are those that would be generated. -/
def Agrees (d : Disk) : Prop :=
  ∃ files, generated dump repoRoot d = .ok files ∧
    (∀ name there, IsYaml name → d.node (out ++ [name]) = some there →
      ∃ bytes, files.lookup name = some bytes ∧ there = .file bytes) ∧
    ∀ name bytes, files.lookup name = some bytes → d.node (out ++ [name]) = some (.file bytes)

/-- An entry of the directory with the name of a YAML file that is not a generated file with its
bytes. -/
def Differs (files : List (String × ByteArray)) (d : Disk) (name : String) : Prop :=
  IsYaml name ∧ d.node (out ++ [name]) ≠ none ∧ d.node (out ++ [name]) ≠ (files.lookup name).map .file

/-- When `check` can tell: an entry differs that the generator does not rewrite in the run; or no
generated file is missing, and no tracked file that is in the directory differs. -/
def Noticed (d : Disk) : Prop :=
  ∀ files, generated dump repoRoot d = .ok files →
    (∃ name, Differs out files d name ∧ ∀ addon, out ++ [name] ≠ trackedCrs repoRoot addon) ∨
    (∀ name, files.lookup name ≠ none → d.node (out ++ [name]) ≠ none) ∧
      ∀ addon name, out ++ [name] = trackedCrs repoRoot addon → ¬ Differs out files d name

section Runs

variable {dump repoRoot out} {w w' : World} {d : Disk} {results : List (Addon × List String)}
  {α : Type} {generator : Effect World Exc α} {files : List (String × ByteArray)}
  {settings : Settings}

theorem filesOf_eq_ok (h : filesOf generator d = .ok files) :
    ∃ a w, generator (.start d) = (.ok a, w) ∧ files = w.scratch := by
  unfold filesOf at h
  split at h
  · rename_i a w hrun
    cases h
    exact ⟨a, w, hrun, rfl⟩
  · cases h

theorem filesOf_of_ok {a : α} (h : generator (.start d) = (.ok a, w)) :
    filesOf generator d = .ok w.scratch := by
  rw [filesOf, h]

/-! ### The comparison -/

/-- The bytes of the file are those of the generated file with its name. -/
def Passes (w : World) (f : Path) : Prop :=
  ∃ bytes, w.scratch.lookup f.name = some bytes ∧ w.disk.node f = some (.file bytes)

/-- The world after a difference was reported. -/
def reported (w : World) (line : String) : World := { w with stderr := w.stderr ++ [line] }

theorem compareFile_eq (f : Path) (w : World) : compareFile f w =
    match w.scratch.lookup f.name with
    | none => (.ok false, reported w ("FAIL: missing generated file: " ++ f.name))
    | some expected =>
      match w.disk.fs.read f with
      | .error e => (.error e, w)
      | .ok bytes =>
        if bytes = expected then (.ok true, w)
        else (.ok false, reported w ("FAIL: content mismatch: " ++ f.name)) := by
  have hget : (Effect.get : Effect World Exc World) w = (.ok w, w) := rfl
  refine (Effect.bind_of_ok hget).trans ?_
  cases w.scratch.lookup f.name with
  | none => rfl
  | some expected =>
    cases hread : w.disk.fs.read f with
    | error e => rfl
    | ok bytes =>
      refine (Effect.bind_of_ok rfl).trans ?_
      by_cases heq : bytes = expected
      · rw [if_pos heq]
        exact (if_pos heq).symm
      · rw [if_neg heq]
        exact (if_neg heq).symm

/-- A file that passes changes nothing, and nothing else passes. -/
theorem compareFile_cases (f : Path) (w : World) :
    Passes w f ∧ compareFile f w = (.ok true, w) ∨
    ¬ Passes w f ∧ (∀ w', compareFile f w ≠ (.ok true, w')) ∧ (compareFile f w).2.disk = w.disk := by
  rw [compareFile_eq]
  unfold Passes
  cases w.scratch.lookup f.name with
  | none => exact .inr ⟨by simp, by simp, rfl⟩
  | some expected =>
    cases hread : w.disk.fs.read f with
    | error e =>
      refine .inr ⟨?_, by simp, rfl⟩
      rintro ⟨bytes, -, hnode⟩
      rw [Py.FileSystem.read_eq_ok.2 (Py.FileSystem.fileAt_eq_some.2 hnode)] at hread
      cases hread
    | ok bytes =>
      have hnode := Py.FileSystem.fileAt_eq_some.1 (Py.FileSystem.read_eq_ok.1 hread)
      by_cases heq : bytes = expected
      · exact .inl ⟨⟨bytes, by rw [heq], hnode⟩, if_pos heq⟩
      · simp only [if_neg heq]
        refine .inr ⟨?_, by simp, rfl⟩
        rintro ⟨other, hother, hfile⟩
        cases hother
        cases hnode.symm.trans hfile
        exact heq rfl

/-- The comparison succeeds when every file passes. -/
theorem compareFiles_iff {fs : List Path} :
    (compareFiles fs w).1 = .ok true ↔ ∀ f ∈ fs, Passes w f := by
  induction fs with
  | nil => exact ⟨fun _ _ h => absurd h List.not_mem_nil, fun _ => rfl⟩
  | cons f fs ih =>
    rw [List.forall_mem_cons]
    rcases compareFile_cases f w with ⟨hpass, hrun⟩ | ⟨hfail, hrun, -⟩
    · rw [compareFiles, Effect.bind_of_ok hrun, if_pos rfl, ih]
      exact ⟨fun h => ⟨hpass, h⟩, And.right⟩
    · refine ⟨fun h => ?_, fun h => absurd h.1 hfail⟩
      obtain ⟨same, w₁, hfirst, hrest⟩ := Effect.bind_eq_ok.1 (Prod.ext h rfl)
      cases same with
      | true => exact absurd hfirst (hrun w₁)
      | false => cases (Effect.pure_eq_ok.1 hrest).1

/-- The comparison does not write to the disk. -/
theorem disk_compareFiles (fs : List Path) (w : World) :
    (compareFiles fs w).2.disk = w.disk := by
  induction fs with
  | nil => rfl
  | cons f fs ih =>
    rcases compareFile_cases f w with ⟨-, hrun⟩ | ⟨-, hrun, hdisk⟩
    · rw [compareFiles, Effect.bind_of_ok hrun, if_pos rfl, ih]
    · obtain ⟨r, w₁, hfirst⟩ : ∃ r w₁, compareFile f w = (r, w₁) := ⟨_, _, rfl⟩
      rw [hfirst] at hdisk
      rw [compareFiles]
      cases r with
      | error e => rwa [Effect.bind_of_error hfirst]
      | ok same =>
        rw [Effect.bind_of_ok hfirst]
        cases same with
        | true => exact absurd hfirst (hrun w₁)
        | false => exact hdisk

/-! ### The tracked files -/

theorem trackedCrs_injective (repoRoot : Path) : Function.Injective (trackedCrs repoRoot) := by
  intro addon addon' h
  have hlast : fileName (crsName addon) = fileName (crsName addon') := by
    simpa [trackedCrs] using congrArg List.getLast? h
  exact crsName_injective (fileName_injective hlast)

/-- A run into the temporary directory does not write to the disk, up to the tracked files. -/
theorem disk_generateOutput :
    (generateOutput dump repoRoot .temporary settings w).2.disk = w.disk := by
  have h : Effect.Preserves (fun s : World => s.disk = w.disk)
      (generateOutput dump repoRoot .temporary settings) :=
    preserves_generateOutput (Effect.preserves_pure ()) fun _ _ => Effect.preserves_modify fun _ hs => hs
  exact h.after rfl

variable (dump repoRoot settings) in
/-- The update of a tracked file changes that file only. -/
theorem preserves_updateTrackedCrs {result : Addon × List String} {p : Path} {there : Option Py.Node}
    (hp : p ≠ trackedCrs repoRoot result.1) :
    Effect.Preserves (fun s : World => s.disk.node p = there)
      (updateTrackedCrs dump repoRoot settings result) := by
  intro s hs
  rcases updateTrackedCrs_cases dump repoRoot settings result s with
    ⟨-, hrun⟩ | ⟨-, e, hrun⟩ | ⟨old, disk, -, hrun, -, hrest⟩
  · rwa [hrun]
  · rwa [hrun]
  · rw [hrun]
    exact (hrest p hp).trans hs

/-- The loop changes tracked files only. -/
theorem node_forEach {p : Path} (hp : ∀ result ∈ results, p ≠ trackedCrs repoRoot result.1) :
    (Effect.forEach (updateTrackedCrs dump repoRoot settings) results w).2.disk.node p =
      w.disk.node p := by
  have h : Effect.Preserves (fun s : World => s.disk.node p = w.disk.node p)
      (Effect.forEach (updateTrackedCrs dump repoRoot settings) results) :=
    Effect.preserves_forEach fun result hresult =>
      preserves_updateTrackedCrs dump repoRoot settings (hp result hresult)
  exact h.after rfl

theorem scratch_forEach :
    (Effect.forEach (updateTrackedCrs dump repoRoot settings) results w).2.scratch = w.scratch := by
  have h : Effect.Preserves (fun s : World => s.scratch = w.scratch)
      (Effect.forEach (updateTrackedCrs dump repoRoot settings) results) := by
    refine Effect.preserves_forEach fun result _ s hs => ?_
    rcases updateTrackedCrs_cases dump repoRoot settings result s with
      ⟨-, hrun⟩ | ⟨-, e, hrun⟩ | ⟨old, disk, -, hrun, -⟩ <;> rwa [hrun]
  exact h.after rfl

/-- The other tracked files are not those of the rest. -/
theorem ne_trackedCrs {result other : Addon × List String}
    (hnodup : result.1 ∉ results.map Prod.fst) (hother : other ∈ results) :
    trackedCrs repoRoot result.1 ≠ trackedCrs repoRoot other.1 := fun heq =>
  hnodup (List.mem_map.2 ⟨other, hother, (trackedCrs_injective repoRoot heq).symm⟩)

/-- After the loop a tracked file is still missing, or it has the text that was generated. -/
theorem tracked_forEach (hnodup : (results.map Prod.fst).Nodup)
    (h : Effect.forEach (updateTrackedCrs dump repoRoot settings) results w = (.ok (), w')) :
    ∀ result ∈ results,
      w.disk.node (trackedCrs repoRoot result.1) = none ∧
        w'.disk.node (trackedCrs repoRoot result.1) = none ∨
      w.disk.node (trackedCrs repoRoot result.1) ≠ none ∧
        w'.disk.node (trackedCrs repoRoot result.1) =
          some (.file (crsText dump settings.clusterName result).toUTF8) := by
  induction results generalizing w with
  | nil => exact fun _ h => absurd h List.not_mem_nil
  | cons result results ih =>
    obtain ⟨⟨⟩, w₁, hstep, hrest⟩ := Effect.bind_eq_ok.1 h
    rw [List.map_cons, List.nodup_cons] at hnodup
    -- what the first step leaves, the rest of the loop does not touch
    have hkept : w'.disk.node (trackedCrs repoRoot result.1) =
        w₁.disk.node (trackedCrs repoRoot result.1) := by
      have hafter : (Effect.forEach (updateTrackedCrs dump repoRoot settings) results
          w₁).2.disk.node (trackedCrs repoRoot result.1) =
          w₁.disk.node (trackedCrs repoRoot result.1) :=
        node_forEach fun other hother => ne_trackedCrs hnodup.1 hother
      rwa [hrest] at hafter
    have hother : ∀ other ∈ results, w₁.disk.node (trackedCrs repoRoot other.1) =
        w.disk.node (trackedCrs repoRoot other.1) := by
      intro other hother
      have := (preserves_updateTrackedCrs dump repoRoot settings
        (ne_trackedCrs hnodup.1 hother).symm).after (s := w) rfl
      rwa [hstep] at this
    refine List.forall_mem_cons.2 ⟨?_, fun other hmem => ?_⟩
    · rw [hkept]
      rcases updateTrackedCrs_cases dump repoRoot settings result w with
        ⟨hnone, hrun⟩ | ⟨-, e, hrun⟩ | ⟨old, disk, hold, hrun, hnew, -⟩
      · cases hrun.symm.trans hstep
        exact .inl ⟨hnone, hnone⟩
      · cases hrun.symm.trans hstep
      · cases hrun.symm.trans hstep
        exact .inr ⟨by simp [hold], hnew⟩
    · rw [← hother other hmem]
      exact ih hnodup.2 hrest other hmem

/-! ### Runs of the generator -/

/-- The bytes of a generated ClusterResourceSet. -/
theorem lookup_crsFile
    (h : generateOutput dump repoRoot .temporary settings w = (.ok results, w'))
    {result : Addon × List String} (hresult : result ∈ results) :
    w'.scratch.lookup (fileName (crsName result.1)) =
      some (crsText dump settings.clusterName result).toUTF8 := by
  obtain ⟨seen, secrets, -, rfl, hwrote⟩ := generateOutput_eq_ok h
  exact hwrote.written _ _ (List.mem_append_right _ (List.mem_map_of_mem hresult))

theorem addons_of_generateOutput {out : OutputDir}
    (h : generateOutput dump repoRoot out settings w = (.ok results, w')) :
    results.map Prod.fst = addons := by
  obtain ⟨seen, secrets, -, rfl, -⟩ := generateOutput_eq_ok h
  rfl

theorem isYaml_fileName (name : String) : IsYaml (fileName name) := by
  rw [IsYaml, Py.endsWith, fileName, String.toList_append]
  exact List.isSuffixOf_iff_suffix.2 (List.suffix_append _ _)

/-- Everything generated is a YAML file. -/
theorem isYaml_of_lookup
    (h : generateOutput dump repoRoot .temporary settings (.start d) = (.ok results, w'))
    {name : String} (hname : w'.scratch.lookup name ≠ none) : IsYaml name := by
  obtain ⟨seen, secrets, -, rfl, hwrote⟩ := generateOutput_eq_ok h
  by_contra hnot
  refine hname ((hwrote.others name fun hmem => hnot ?_).trans rfl)
  rw [List.map_append, List.mem_append] at hmem
  rcases hmem with hmem | hmem
  · obtain ⟨file, hfile, rfl⟩ := List.mem_map.1 hmem
    obtain ⟨addon, -, hfile⟩ := List.mem_flatMap.1 hfile
    obtain ⟨secret, -, rfl⟩ := List.mem_map.1 hfile
    exact isYaml_fileName _
  · obtain ⟨file, hfile, rfl⟩ := List.mem_map.1 hmem
    obtain ⟨result, -, rfl⟩ := List.mem_map.1 hfile
    exact isYaml_fileName _

/-- What a run of the generator in `check` leaves: the generated files, and on the disk nothing has
changed but the tracked files, which have the text that was generated. -/
structure Left (dump : Value → String) (repoRoot : Path) (d : Disk)
    (files : List (String × ByteArray)) (w : World) : Prop where
  scratch : w.scratch = files
  yaml : ∀ name, files.lookup name ≠ none → IsYaml name
  crs : ∀ addon, files.lookup (fileName (crsName addon)) ≠ none
  untracked : ∀ p, (∀ addon, p ≠ trackedCrs repoRoot addon) → w.disk.node p = d.node p
  tracked : ∀ addon,
    d.node (trackedCrs repoRoot addon) = none ∧ w.disk.node (trackedCrs repoRoot addon) = none ∨
    d.node (trackedCrs repoRoot addon) ≠ none ∧ w.disk.node (trackedCrs repoRoot addon) =
      (files.lookup (fileName (crsName addon))).map .file

theorem mem_addons (addon : Addon) : addon ∈ addons := by cases addon <;> decide

theorem left_of_generateAll
    (h : generateAll dump repoRoot .temporary .default (.start d) = (.ok results, w')) :
    Left dump repoRoot d w'.scratch w' := by
  obtain ⟨w₁, houtput, htracked⟩ := generateAll_eq_ok h
  have hdisk : w₁.disk = d := by
    have hafter : (generateOutput dump repoRoot .temporary .default (.start d)).2.disk = d :=
      disk_generateOutput
    rwa [houtput] at hafter
  have hresults := addons_of_generateOutput houtput
  have hloop : Effect.forEach (updateTrackedCrs dump repoRoot .default) results w₁ = (.ok (), w') :=
    htracked
  have hscratch : w'.scratch = w₁.scratch := by
    have hafter : (Effect.forEach (updateTrackedCrs dump repoRoot .default) results w₁).2.scratch =
        w₁.scratch := scratch_forEach
    rwa [hloop] at hafter
  have hmem : ∀ addon, ∃ result ∈ results, result.1 = addon := fun addon =>
    List.mem_map.1 (by rw [hresults]; exact mem_addons addon)
  rw [hscratch]
  refine ⟨hscratch, fun name => isYaml_of_lookup houtput, fun addon => ?_, fun p hp => ?_,
    fun addon => ?_⟩
  · obtain ⟨result, hresult, rfl⟩ := hmem addon
    rw [lookup_crsFile houtput hresult]
    simp
  · have hafter : (Effect.forEach (updateTrackedCrs dump repoRoot .default) results
        w₁).2.disk.node p = w₁.disk.node p := node_forEach fun result _ => hp result.1
    rwa [hloop, hdisk] at hafter
  · obtain ⟨result, hresult, rfl⟩ := hmem addon
    rw [lookup_crsFile houtput hresult, ← hdisk]
    exact tracked_forEach (by rw [hresults]; decide) hloop result hresult

/-! ### The result -/

theorem check_of_ok
    (h : generateAll dump repoRoot .temporary .default (.start d) = (.ok results, w')) :
    (check dump repoRoot out (.start d)).1 = (compareFiles (w'.disk.glob out ".yaml") w').1 ∧
      (check dump repoRoot out (.start d)).2.disk = w'.disk := by
  have hget : (Effect.get : Effect World Exc World) w' = (.ok w', w') := rfl
  have hrun : checkGenerated dump repoRoot out (.start d) =
      compareFiles (w'.disk.glob out ".yaml") w' :=
    (Effect.bind_of_ok h).trans (Effect.bind_of_ok hget)
  change (checkGenerated dump repoRoot out (.start d)).1 = _ ∧
    (checkGenerated dump repoRoot out (.start d)).2.disk = _
  rw [hrun]
  exact ⟨rfl, disk_compareFiles _ w'⟩

theorem check_of_error {e : Exc}
    (h : generateAll dump repoRoot .temporary .default (.start d) = (.error e, w')) :
    (check dump repoRoot out (.start d)).1 = .error e ∧
      (check dump repoRoot out (.start d)).2.disk = w'.disk := by
  have hrun : checkGenerated dump repoRoot out (.start d) = (.error e, w') := Effect.bind_of_error h
  change (checkGenerated dump repoRoot out (.start d)).1 = _ ∧
    (checkGenerated dump repoRoot out (.start d)).2.disk = _
  rw [hrun]
  exact ⟨rfl, rfl⟩

theorem passes_iff {name : String} :
    Passes w (out ++ [name]) ↔ w.disk.node (out ++ [name]) ≠ none ∧
      w.disk.node (out ++ [name]) = (w.scratch.lookup name).map .file := by
  rw [Passes, Path.name_concat]
  constructor
  · rintro ⟨bytes, hbytes, hnode⟩
    rw [hnode, hbytes]
    exact ⟨by simp, rfl⟩
  · rintro ⟨hthere, hsame⟩
    cases hlookup : w.scratch.lookup name with
    | none =>
      rw [hlookup] at hsame
      exact absurd hsame hthere
    | some bytes =>
      rw [hlookup] at hsame
      exact ⟨bytes, rfl, hsame⟩

/-- The result in terms of the directory before the run. -/
theorem check_true_iff {files : List (String × ByteArray)} (hfiles : generated dump repoRoot d = .ok files) :
    (check dump repoRoot out (.start d)).1 = .ok true ↔
      ∀ name, Differs out files d name → ∃ addon, out ++ [name] = trackedCrs repoRoot addon := by
  obtain ⟨results, w', hrun, rfl⟩ := filesOf_eq_ok hfiles
  have hleft := left_of_generateAll hrun
  rw [(check_of_ok hrun).1, compareFiles_iff]
  constructor
  · rintro h name ⟨hyaml, hthere, hdiffers⟩
    by_contra hnot
    have hsame := hleft.untracked (out ++ [name]) fun addon heq => hnot ⟨addon, heq⟩
    have hpass := passes_iff.1 (h (out ++ [name])
      (Disk.mem_glob.2 ⟨name, rfl, by rwa [hsame], hyaml⟩))
    exact hdiffers (hsame.symm.trans hpass.2)
  · intro h f hf
    obtain ⟨name, rfl, hthere, hyaml⟩ := Disk.mem_glob.1 hf
    refine passes_iff.2 ⟨hthere, ?_⟩
    by_cases htracked : ∃ addon, out ++ [name] = trackedCrs repoRoot addon
    · -- a tracked file that is there has just been written
      obtain ⟨addon, heq⟩ := htracked
      have hname : name = fileName (crsName addon) := by
        simpa [trackedCrs] using congrArg List.getLast? heq
      rw [heq] at hthere ⊢
      rw [hname]
      exact ((hleft.tracked addon).resolve_left fun hnone => hthere hnone.2).2
    · have hsame := hleft.untracked (out ++ [name]) fun addon heq => htracked ⟨addon, heq⟩
      rw [hsame] at hthere ⊢
      by_contra hdiffers
      exact htracked (h name ⟨hyaml, hthere, hdiffers⟩)

theorem not_check_of_error {e : Exc} (hfiles : generated dump repoRoot d = .error e) :
    (check dump repoRoot out (.start d)).1 ≠ .ok true := by
  obtain ⟨r, w', hrun⟩ : ∃ r w', generateAll dump repoRoot .temporary .default (.start d) = (r, w') :=
    ⟨_, _, rfl⟩
  cases r with
  | ok results =>
    rw [generated, filesOf_of_ok hrun] at hfiles
    cases hfiles
  | error e =>
    rw [(check_of_error hrun).1]
    simp

/-- The directory agrees when no entry differs and none is missing. -/
theorem agrees_iff {files : List (String × ByteArray)} (hfiles : generated dump repoRoot d = .ok files) :
    Agrees dump repoRoot out d ↔ (∀ name, ¬ Differs out files d name) ∧
      ∀ name, files.lookup name ≠ none → d.node (out ++ [name]) ≠ none := by
  constructor
  · rintro ⟨files', hok, hentries, hpresent⟩
    cases hfiles.symm.trans hok
    refine ⟨fun name ⟨hyaml, hthere, hdiffers⟩ => ?_, fun name hname => ?_⟩
    · obtain ⟨there, hnode⟩ := Option.ne_none_iff_exists'.1 hthere
      obtain ⟨bytes, hbytes, rfl⟩ := hentries name there hyaml hnode
      exact hdiffers (by rw [hnode, hbytes]; rfl)
    · obtain ⟨bytes, hbytes⟩ := Option.ne_none_iff_exists'.1 hname
      rw [hpresent name bytes hbytes]
      simp
  · rintro ⟨hsame, hpresent⟩
    obtain ⟨results, w', hrun, rfl⟩ := filesOf_eq_ok hfiles
    have hequal : ∀ name, IsYaml name → d.node (out ++ [name]) ≠ none →
        d.node (out ++ [name]) = (w'.scratch.lookup name).map .file := fun name hyaml hthere =>
      not_not.1 fun hdiffers => hsame name ⟨hyaml, hthere, hdiffers⟩
    refine ⟨w'.scratch, hfiles, fun name there hyaml hnode => ?_, fun name bytes hbytes => ?_⟩
    · have heq := hequal name hyaml (by simp [hnode])
      rw [hnode] at heq
      obtain ⟨bytes, hbytes, rfl⟩ := Option.map_eq_some_iff.1 heq.symm
      exact ⟨bytes, hbytes, rfl⟩
    · have hname : w'.scratch.lookup name ≠ none := by simp [hbytes]
      rw [hequal name ((left_of_generateAll hrun).yaml name hname) (hpresent name hname), hbytes]
      rfl

/-- **When the result is right.**  The check succeeds exactly when the directory agrees, if and only
if an entry differs that the generator does not rewrite, or no generated file is missing and no
tracked file in the directory differs. -/
theorem agrees_check_iff :
    ((check dump repoRoot out (.start d)).1 = .ok true ↔ Agrees dump repoRoot out d) ↔
      Noticed dump repoRoot out d := by
  cases hfiles : generated dump repoRoot d with
  | error e =>
    have hagrees : ¬ Agrees dump repoRoot out d := by
      rintro ⟨files, hok, -⟩
      rw [hfiles] at hok
      cases hok
    refine iff_of_true (iff_of_false (not_check_of_error hfiles) hagrees) fun files hok => ?_
    rw [hfiles] at hok
    cases hok
  | ok files =>
    rw [check_true_iff hfiles, agrees_iff hfiles]
    constructor
    · intro h files' hok
      cases hfiles.symm.trans hok
      by_cases hother : ∃ name, Differs out files d name ∧
          ∀ addon, out ++ [name] ≠ trackedCrs repoRoot addon
      · exact .inl hother
      · -- nothing that differs is noticed, so nothing may differ and nothing may be missing
        have hsuccess : ∀ name, Differs out files d name →
            ∃ addon, out ++ [name] = trackedCrs repoRoot addon := fun name hname => by
          by_contra hnot
          exact hother ⟨name, hname, fun addon heq => hnot ⟨addon, heq⟩⟩
        obtain ⟨hsame, hpresent⟩ := h.1 hsuccess
        exact .inr ⟨hpresent, fun _ name _ => hsame name⟩
    · intro h
      rcases h files hfiles with ⟨name, hdiffers, hnot⟩ | ⟨hpresent, htracked⟩
      · refine iff_of_false (fun hsuccess => ?_) fun hagrees => hagrees.1 name hdiffers
        obtain ⟨addon, heq⟩ := hsuccess name hdiffers
        exact hnot addon heq
      · refine ⟨fun hsuccess => ⟨fun name hdiffers => ?_, hpresent⟩,
          fun hagrees name hdiffers => absurd hdiffers (hagrees.1 name)⟩
        obtain ⟨addon, heq⟩ := hsuccess name hdiffers
        exact htracked addon name heq hdiffers

/-! ### What is changed -/

/-- The comparison and the temporary directory leave the disk alone. -/
theorem disk_check : (check dump repoRoot out (.start d)).2.disk =
    (generateAll dump repoRoot .temporary .default (.start d)).2.disk := by
  obtain ⟨r, w', hrun⟩ : ∃ r w', generateAll dump repoRoot .temporary .default (.start d) = (r, w') :=
    ⟨_, _, rfl⟩
  rw [hrun]
  cases r with
  | ok results => exact (check_of_ok hrun).2
  | error e => exact (check_of_error hrun).2

/-- A run that ends before the tracked files leaves the disk as it was. -/
theorem disk_generateAll_of_error {e : Exc}
    (h : generateOutput dump repoRoot .temporary .default (.start d) = (.error e, w)) :
    (generateAll dump repoRoot .temporary .default (.start d)).2.disk = d := by
  have hdisk : (generateOutput dump repoRoot .temporary .default (.start d)).2.disk = d :=
    disk_generateOutput
  rw [h] at hdisk
  rw [generateAll, Effect.bind_of_error h]
  exact hdisk

/-- From there on only the loop over the tracked files writes to the disk. -/
theorem disk_generateAll_of_ok
    (h : generateOutput dump repoRoot .temporary .default (.start d) = (.ok results, w)) :
    w.disk = d ∧ (generateAll dump repoRoot .temporary .default (.start d)).2.disk =
      (Effect.forEach (updateTrackedCrs dump repoRoot .default) results w).2.disk := by
  have hdisk : (generateOutput dump repoRoot .temporary .default (.start d)).2.disk = d :=
    disk_generateOutput
  rw [h] at hdisk
  refine ⟨hdisk, ?_⟩
  obtain ⟨r, w', hloop⟩ : ∃ r w', Effect.forEach (updateTrackedCrs dump repoRoot .default) results w =
    (r, w') := ⟨_, _, rfl⟩
  have htracked : updateTracked dump repoRoot .default results w = (r, w') := hloop
  rw [generateAll, Effect.bind_of_ok h, hloop]
  cases r with
  | ok _ =>
    rw [Effect.bind_of_ok htracked]
    rfl
  | error e => rw [Effect.bind_of_error htracked]

end Runs

/-- The files that `generate_all` would write into its output directory, whatever is tracked. -/
def planned (d : Disk) : Except Exc (List (String × ByteArray)) :=
  filesOf (generateOutput dump repoRoot .temporary .default) d

/-- The tracked files, up to the first that is a directory, hold what would be generated. -/
def TrackedUpToDate (files : List (String × ByteArray)) (d : Disk) : List Addon → Prop
  | [] => True
  | addon :: rest =>
    match d.node (trackedCrs repoRoot addon) with
    | none => TrackedUpToDate files d rest
    | some .dir => True
    | some (.file bytes) =>
      files.lookup (fileName (crsName addon)) = some bytes ∧ TrackedUpToDate files d rest

section Unchanged

variable {dump repoRoot out} {w : World} {d d' : Disk} {results : List (Addon × List String)}
  {files : List (String × ByteArray)} {settings : Settings}

theorem trackedUpToDate_congr {rest : List Addon} (h : ∀ p, d.node p = d'.node p) :
    TrackedUpToDate repoRoot files d rest ↔ TrackedUpToDate repoRoot files d' rest := by
  induction rest with
  | nil => exact Iff.rfl
  | cons addon rest ih =>
    rw [TrackedUpToDate, TrackedUpToDate, h]
    cases d'.node (trackedCrs repoRoot addon) with
    | none => exact ih
    | some there =>
      cases there with
      | dir => exact Iff.rfl
      | file bytes => exact and_congr_right fun _ => ih

/-- The loop leaves the disk as it was when the tracked files are up to date. -/
theorem unchanged_forEach_iff (hnodup : (results.map Prod.fst).Nodup)
    (hfiles : ∀ result ∈ results, files.lookup (fileName (crsName result.1)) =
      some (crsText dump settings.clusterName result).toUTF8) :
    (∀ p, (Effect.forEach (updateTrackedCrs dump repoRoot settings) results w).2.disk.node p =
      w.disk.node p) ↔ TrackedUpToDate repoRoot files w.disk (results.map Prod.fst) := by
  induction results generalizing w with
  | nil => exact ⟨fun _ => trivial, fun _ _ => rfl⟩
  | cons result results ih =>
    rw [List.map_cons, List.nodup_cons] at hnodup
    rw [List.forall_mem_cons] at hfiles
    rw [List.map_cons, TrackedUpToDate]
    rcases updateTrackedCrs_cases dump repoRoot settings result w with
      ⟨hnone, hrun⟩ | ⟨hdir, e, hrun⟩ | ⟨old, disk, hold, hrun, hnew, hrest⟩
    · rw [hnone, Effect.forEach, Effect.bind_of_ok hrun]
      exact ih hnodup.2 hfiles.2
    · rw [hdir, Effect.forEach, Effect.bind_of_error hrun]
      exact ⟨fun _ => trivial, fun _ _ => rfl⟩
    · rw [hold, Effect.forEach, Effect.bind_of_ok hrun]
      simp only [hfiles.1, Option.some.injEq]
      by_cases hsame : (crsText dump settings.clusterName result).toUTF8 = old
      · -- the same bytes are written again
        have hnode : ∀ p, disk.node p = w.disk.node p := by
          intro p
          by_cases hp : p = trackedCrs repoRoot result.1
          · rw [hp, hnew, hold, hsame]
          · exact hrest p hp
        rw [and_iff_right hsame, ← trackedUpToDate_congr hnode,
          ← ih (w := { w with disk := disk }) hnodup.2 hfiles.2]
        exact forall_congr' fun p => by rw [hnode p]
      · refine iff_of_false (fun h => hsame ?_) fun h => hsame h.1
        have hafter := h (trackedCrs repoRoot result.1)
        rw [node_forEach fun other hother => ne_trackedCrs hnodup.1 hother, hold] at hafter
        exact Py.Node.file.inj (Option.some.inj (hnew.symm.trans hafter))

/-- **When a check leaves the disk as it was.**  However it ends, nothing has changed if and only if
nothing can be generated, or the tracked files, up to the first that is a directory, hold what is
generated. -/
theorem unchanged_check_iff :
    (∀ p, (check dump repoRoot out (.start d)).2.disk.node p = d.node p) ↔
      ∀ files, planned dump repoRoot d = .ok files → TrackedUpToDate repoRoot files d addons := by
  rw [disk_check]
  obtain ⟨r, w₁, hrun⟩ : ∃ r w₁, generateOutput dump repoRoot .temporary .default (.start d) =
    (r, w₁) := ⟨_, _, rfl⟩
  cases r with
  | error e =>
    refine iff_of_true (fun p => by rw [disk_generateAll_of_error hrun]) fun files hfiles => ?_
    obtain ⟨results, w, hok, -⟩ := filesOf_eq_ok hfiles
    rw [hrun] at hok
    cases hok
  | ok results =>
    obtain ⟨rfl, hdisk⟩ := disk_generateAll_of_ok hrun
    have hresults := addons_of_generateOutput hrun
    have hplanned : planned dump repoRoot w₁.disk = .ok w₁.scratch := filesOf_of_ok hrun
    have hloop : (∀ p, (Effect.forEach (updateTrackedCrs dump repoRoot .default) results
        w₁).2.disk.node p = w₁.disk.node p) ↔
        TrackedUpToDate repoRoot w₁.scratch w₁.disk (results.map Prod.fst) :=
      unchanged_forEach_iff (by rw [hresults]; decide) fun result hresult =>
        lookup_crsFile hrun hresult
    rw [hdisk, hloop, hresults, hplanned]
    exact ⟨fun h files hfiles => by cases hfiles; exact h, fun h => h _ rfl⟩

end Unchanged

/-! ### Two repositories -/

/-- A repository and an empty directory for the generated files. -/
def emptyOutput : Disk :=
  match smallRepository.mkdirs ["out"] with
  | .ok d => d
  | .error _ => smallRepository

/-- A repository with a tracked ClusterResourceSet that is not up to date. -/
def staleRepository : Disk :=
  withFile smallRepository ["repo", "capi", "addons", "rbac-crs.yaml"] ⟨#[98]⟩

/-- An empty directory passes the check. -/
theorem not_agrees_emptyOutput : ¬ ∀ (dump : Value → String) (repoRoot out : Path) (d : Disk),
    (check dump repoRoot out (.start d)).1 = .ok true ↔ Agrees dump repoRoot out d := by
  intro h
  have hfacts : Py.okAnd (check blockText ["repo"] ["out"] (.start emptyOutput)).1 id = true ∧
      emptyOutput.fs.present ["out", "rbac-crs.yaml"] = false := by decide +kernel
  obtain ⟨result, hresult, htrue⟩ := Py.okAnd_eq_true.1 hfacts.1
  rw [show result = true from htrue] at hresult
  obtain ⟨files, hfiles, -, hpresent⟩ := (h _ _ _ _).1 hresult
  obtain ⟨results, w, hrun, rfl⟩ := filesOf_eq_ok hfiles
  obtain ⟨bytes, hbytes⟩ := Option.ne_none_iff_exists'.1 ((left_of_generateAll hrun).crs .rbac)
  have hthere : emptyOutput.fs.present ["out", "rbac-crs.yaml"] = true :=
    Option.isSome_iff_exists.2 ⟨_, hpresent _ bytes hbytes⟩
  rw [hfacts.2] at hthere
  cases hthere

/-- A tracked file is rewritten by a check. -/
theorem not_unchanged_staleRepository :
    ¬ ∀ (dump : Value → String) (repoRoot out : Path) (d : Disk) (p : Path),
      (check dump repoRoot out (.start d)).2.disk.node p = d.node p := by
  intro h
  have hfacts : (check blockText ["repo"] ["out"] (.start staleRepository)).2.disk.fileAt
      ["repo", "capi", "addons", "rbac-crs.yaml"] ≠
      staleRepository.fileAt ["repo", "capi", "addons", "rbac-crs.yaml"] := by decide +kernel
  exact hfacts (Disk.fileAt_congr (h _ _ _ _ _))

end CapiAddons
