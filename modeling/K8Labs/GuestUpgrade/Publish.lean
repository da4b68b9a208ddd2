import K8Labs.GuestUpgrade.Images

/-!
# A stage is published whole or not at all

* `PublishedAs` : the tree of a stage that was built from the locked artifacts and the templates of a
  file system.
* `buildStage_publishes` : **however `build_stage` ends, what was there before is as it was, and the
  output is absent or such a tree**; when it returns, no temporary directory is left.
-/

namespace GuestUpgrade

open Py (Exc Items Value Path FileSystem Eff Env World)
open Artifacts (UrlParse)

section Stage

variable {urlparse : UrlParse} {env : Env} {openTar : OpenTar} {tools : Tools} {lock stage : Items}
  {cacheRoot repoRoot outputDir workDir : Path} {w w' : World}

/-! ### Before anything is written -/

/-- The artifact that the stage names is in the cache with the digest of the lock. -/
structure Locked (urlparse : UrlParse) (depth : ℕ) (lock : Items) (cacheRoot : Path) (stage : Items)
    (fs : FileSystem) (extension : Extension) (id : Value) (bytes : ByteArray) : Prop where
  named : (Value.dict stage).index extension.field = .ok id
  stored : ∃ inventory item directory,
    Artifacts.kubernetesUpgradeInventory urlparse lock = .ok inventory ∧
    findArtifact inventory id = .ok item ∧ Artifacts.cacheDir depth lock cacheRoot = .ok directory ∧
    fs.fileAt (directory.join item.cachePath) = some bytes ∧ Py.sha256 bytes = item.sha256

theorem confined_lockedArtifact {inventory : List Artifacts.Artifact} {id : Value} :
    (lockedArtifact env lock cacheRoot inventory id).Confined fun _ => False := by
  refine (Eff.confined_lift _).bind fun item => (Eff.confined_lift _).bind fun directory =>
    (Py.confined_inspect _).bind fun isFile => ?_
  split_ifs
  · refine (Py.confined_inspect _).bind fun digest => ?_
    split_ifs
    · exact Eff.confined_lift _
    · exact Eff.confined_pure _
  · exact Eff.confined_throw _

theorem lockedArtifact_eq_ok {inventory : List Artifacts.Artifact} {id : Value} {path : Path}
    (h : lockedArtifact env lock cacheRoot inventory id w = (.ok path, w')) :
    ∃ item directory bytes, findArtifact inventory id = .ok item ∧
      Artifacts.cacheDir env.depth lock cacheRoot = .ok directory ∧
      path = directory.join item.cachePath ∧ w.fs.fileAt path = some bytes ∧
      Py.sha256 bytes = item.sha256 := by
  obtain ⟨item, hitem, h⟩ := Eff.bind_lift_eq_ok h
  obtain ⟨directory, hdir, h⟩ := Eff.bind_lift_eq_ok h
  obtain ⟨isFile, w₁, hisFile, h⟩ := Eff.bind_eq_ok h
  obtain ⟨-, hfs₁⟩ := Py.inspect_eq_ok hisFile
  split_ifs at h
  · obtain ⟨digest, w₂, hdigest, h⟩ := Eff.bind_eq_ok h
    obtain ⟨hdigest, -⟩ := Py.inspect_eq_ok hdigest
    obtain ⟨bytes, hread, rfl⟩ := Py.map_eq_ok.1 hdigest
    split_ifs at h with hsame
    · cases h
    · obtain ⟨rfl, -⟩ := Eff.pure_eq_ok h
      exact ⟨item, directory, bytes, hitem, hdir, rfl, hfs₁ ▸ FileSystem.read_eq_ok.1 hread,
        not_not.1 hsame⟩
  · cases h

theorem confined_checkInputs :
    (checkInputs urlparse env lock cacheRoot stage).Confined fun _ => False :=
  (Eff.confined_lift _).bind fun _ => (Eff.confined_lift _).bind fun _ =>
    (Eff.confined_lift _).bind fun _ => (Eff.confined_lift _).bind fun _ =>
      confined_lockedArtifact.bind fun _ => confined_lockedArtifact.bind fun _ =>
        confined_lockedArtifact.bind fun _ => Eff.confined_pure _

theorem checkInputs_eq_ok {inputs : Inputs}
    (h : checkInputs urlparse env lock cacheRoot stage w = (.ok inputs, w')) :
    ∃ artifact : Extension → ByteArray, ∀ extension,
      Locked urlparse env.depth lock cacheRoot stage w.fs extension (inputs.ids extension)
        (artifact extension) ∧
      w.fs.fileAt (inputs.paths extension) = some (artifact extension) := by
  obtain ⟨kubelet, hkubelet, h⟩ := Eff.bind_lift_eq_ok h
  obtain ⟨controlPlane, hcontrolPlane, h⟩ := Eff.bind_lift_eq_ok h
  obtain ⟨criO, hcriO, h⟩ := Eff.bind_lift_eq_ok h
  obtain ⟨inventory, hinventory, h⟩ := Eff.bind_lift_eq_ok h
  obtain ⟨path₁, w₁, hpath₁, h⟩ := Eff.bind_eq_ok h
  obtain ⟨path₂, w₂, hpath₂, h⟩ := Eff.bind_eq_ok h
  obtain ⟨path₃, w₃, hpath₃, h⟩ := Eff.bind_eq_ok h
  obtain ⟨rfl, -⟩ := Eff.pure_eq_ok h
  have hfs₁ := confined_lockedArtifact.eq hpath₁
  have hfs₂ := (confined_lockedArtifact.eq hpath₂).trans hfs₁
  obtain ⟨item₁, directory₁, bytes₁, hitem₁, hdir₁, rfl, hfile₁, hsha₁⟩ := lockedArtifact_eq_ok hpath₁
  obtain ⟨item₂, directory₂, bytes₂, hitem₂, hdir₂, rfl, hfile₂, hsha₂⟩ := lockedArtifact_eq_ok hpath₂
  obtain ⟨item₃, directory₃, bytes₃, hitem₃, hdir₃, rfl, hfile₃, hsha₃⟩ := lockedArtifact_eq_ok hpath₃
  rw [hfs₁] at hfile₂
  rw [hfs₂] at hfile₃
  refine ⟨perExtension bytes₁ bytes₂ bytes₃, ?_⟩
  rintro (_ | _ | _)
  · exact ⟨⟨hkubelet, _, _, _, hinventory, hitem₁, hdir₁, hfile₁, hsha₁⟩, hfile₁⟩
  · exact ⟨⟨hcontrolPlane, _, _, _, hinventory, hitem₂, hdir₂, hfile₂, hsha₂⟩, hfile₂⟩
  · exact ⟨⟨hcriO, _, _, _, hinventory, hitem₃, hdir₃, hfile₃, hsha₃⟩, hfile₃⟩

theorem confined_checkTemplates : (checkTemplates env repoRoot).Confined fun _ => False := by
  refine (Py.confined_inspect _).bind fun isFile => ?_
  split_ifs
  · refine Eff.confined_forEach fun extension _ => (Py.confined_inspect _).bind fun isDir => ?_
    split_ifs
    · exact Eff.confined_pure ()
    · exact Eff.confined_throw _
  · exact Eff.confined_throw _

theorem checkTemplates_eq_ok (h : checkTemplates env repoRoot w = (.ok (), w')) (extension : Extension) :
    w.fs.isDir (templateOf repoRoot extension) = true := by
  obtain ⟨isFile, w₁, hisFile, h⟩ := Eff.bind_eq_ok h
  obtain ⟨-, hfs₁⟩ := Py.inspect_eq_ok hisFile
  have hstep : ∀ other : Extension, ∀ w₂ w₃ : World, w₂.fs = w.fs → (do
      let isDir ← Py.inspect env fun fs => .ok (fs.isDir (templateOf repoRoot other))
      if isDir then pure () else Eff.throw (missingTemplate (templateOf repoRoot other))) w₂ =
        ((.ok (), w₃) : Except Exc Unit × World) →
      w₃.fs = w.fs ∧ w.fs.isDir (templateOf repoRoot other) = true := by
    intro other w₂ w₃ hfs hrun
    obtain ⟨isDir, w₄, hisDir, hrun⟩ := Eff.bind_eq_ok hrun
    obtain ⟨hvalue, hfs₄⟩ := Py.inspect_eq_ok hisDir
    split_ifs at hrun with hyes
    · obtain ⟨-, rfl⟩ := Eff.pure_eq_ok hrun
      rw [← Except.ok.inj hvalue, hfs] at hyes
      exact ⟨hfs₄.trans hfs, hyes⟩
    · cases hrun
  split_ifs at h
  · exact Eff.forEach_establishes_under (R := fun _ _ => True) (I := fun w₂ => w₂.fs = w.fs)
      (P := fun other _ => w.fs.isDir (templateOf repoRoot other) = true)
      (List.pairwise_of_forall fun _ _ => trivial)
      (fun other _ w₂ w₃ hfs hrun => (hstep other w₂ w₃ hfs hrun).1)
      (fun other _ w₂ w₃ hfs hrun => (hstep other w₂ w₃ hfs hrun).2)
      (fun _ _ _ _ _ _ hold _ => hold) h hfs₁ extension (mem_extensions extension)
  · cases h

theorem confined_refuseExisting : (refuseExisting env outputDir).Confined fun _ => False := by
  refine (Py.confined_inspect _).bind fun present => ?_
  split_ifs
  · exact Eff.confined_throw _
  · exact Eff.confined_pure ()

theorem refuseExisting_eq_ok (h : refuseExisting env outputDir w = (.ok (), w')) :
    w.fs.node outputDir = none := by
  obtain ⟨present, w₁, hpresent, h⟩ := Eff.bind_eq_ok h
  obtain ⟨hpresent, -⟩ := Py.inspect_eq_ok hpresent
  split_ifs at h with hyes
  · cases h
  · rw [← Except.ok.inj hpresent, FileSystem.present] at hyes
    simpa using hyes

/-! ### In the temporary directory -/

theorem within_fillStage {inputs : Inputs} :
    (fillStage env openTar tools lock repoRoot stage inputs workDir).Within workDir
      ["images", "manifest.json", "sources", "builder"] :=
  (within_prepareSources.mono (by simp)).bind fun _ =>
    (within_buildImages.mono (by simp)).bind fun _ =>
      within_finishStage.bind fun _ => Eff.within_pure _

/-- The tree of a stage, built from the artifacts and templates of a file system. -/
def PublishedAs (urlparse : UrlParse) (env : Env) (openTar : OpenTar) (tools : Tools) (lock : Items)
    (cacheRoot repoRoot : Path) (stage : Items) (fs : FileSystem) (images : List Image)
    (tree : FileSystem) : Prop :=
  ∃ (ids : Extension → Value) (artifact : Extension → ByteArray)
    (files : Extension → List (String × ByteArray)) (raw : Extension → ByteArray) (manifest : Value)
    (bytes : ByteArray),
    (∀ extension, Locked urlparse env.depth lock cacheRoot stage fs extension (ids extension)
      (artifact extension)) ∧
    (∀ extension, Holds openTar (artifact extension) (files extension) extension) ∧
    (∀ extension, (raw extension).size ≠ 0 ∧ Packs tools
      (sourceTree (fs.subtree (templateOf repoRoot extension)) extension (files extension))
      (raw extension)) ∧
    images = extensions.map (imageOf raw) ∧ stageManifest env lock stage ids images = .ok manifest ∧
    manifestBytes env manifest = .ok bytes ∧ tree = stageTree bytes raw

/-- The working directory is filled from the artifacts and templates as they were before it was
made. -/
theorem fillStage_eq_ok {inputs : Inputs} {images : List Image} {artifact : Extension → ByteArray}
    {fs : FileSystem}
    (hfresh : w.fs.subtree workDir = .single .dir)
    (hapart : ∀ extension, Apart workDir (templateOf repoRoot extension))
    (htemplate : ∀ extension, w.fs.isDir (templateOf repoRoot extension) = true)
    (hsame : ∀ extension, w.fs.subtree (templateOf repoRoot extension) =
      fs.subtree (templateOf repoRoot extension))
    (hlocked : ∀ extension, Locked urlparse env.depth lock cacheRoot stage fs extension
      (inputs.ids extension) (artifact extension))
    (hartifact : ∀ extension, w.fs.fileAt (inputs.paths extension) = some (artifact extension))
    (h : fillStage env openTar tools lock repoRoot stage inputs workDir w = (.ok images, w')) :
    PublishedAs urlparse env openTar tools lock cacheRoot repoRoot stage fs images
      (w'.fs.subtree workDir) := by
  have hdir : w.fs.isDir workDir = true := by
    rw [FileSystem.isDir_iff]
    exact (congrArg w.fs.node (List.append_nil workDir)).symm.trans
      (congrArg (FileSystem.node · []) hfresh)
  have hempty : ∀ r, r ≠ [] → w.fs.node (workDir ++ r) = none := fun r hr =>
    (congrArg (FileSystem.node · r) hfresh).trans (if_neg hr)
  have houtside : ∀ extension, ¬ workDir <+: inputs.paths extension := by
    rintro extension ⟨r, hr⟩
    have hfile := hartifact extension
    rw [← hr] at hfile
    by_cases hnil : r = []
    · rw [hnil, List.append_nil, FileSystem.fileAt_eq_none_of_isDir hdir] at hfile
      cases hfile
    · rw [FileSystem.fileAt, hempty r hnil] at hfile
      cases hfile
  obtain ⟨⟨⟩, w₁, hprepare, h⟩ := Eff.bind_eq_ok h
  obtain ⟨images', w₂, hbuild, h⟩ := Eff.bind_eq_ok h
  obtain ⟨⟨⟩, w₃, hfinish, h⟩ := Eff.bind_eq_ok h
  obtain ⟨rfl, rfl⟩ := Eff.pure_eq_ok h
  have hdir₁ := within_prepareSources.isDir hdir hprepare
  have hdir₂ := within_buildImages.isDir hdir₁ hbuild
  obtain ⟨files, hholds, hsources⟩ :=
    prepareSources_eq_ok hdir hapart htemplate hartifact houtside hprepare
  obtain ⟨raw, rfl, hraw⟩ := buildImages_eq_ok hdir₁ hbuild
  -- the steps so far have written below `sources` and `builder` only
  have honly : ∀ q, workDir <+: q → q ≠ workDir → ¬ workDir ++ ["sources"] <+: q →
      ¬ workDir ++ ["builder"] <+: q → w₂.fs.node q = none := by
    rintro q ⟨r, rfl⟩ hne hnotSources hnotBuilder
    rw [within_buildImages.same hdir₁ hbuild _ (by simpa using hnotBuilder),
      within_prepareSources.same hdir hprepare _ (by simpa using hnotSources)]
    exact hempty r (by simpa using hne)
  obtain ⟨manifest, bytes, hmanifest, hbytes, htree⟩ :=
    finishStage_eq_ok hdir₂ (fun extension => (hraw extension).2.2) honly hfinish
  exact ⟨inputs.ids, artifact, files, raw, manifest, bytes, hlocked, hholds,
    fun extension => ⟨(hraw extension).1, hsame extension ▸ hsources extension ▸ (hraw extension).2.1⟩,
    rfl, hmanifest, hbytes, htree⟩

/-! ### However it ends -/

/-- Where the temporary directories of an output are. -/
def Staging (outputDir q : Path) : Prop :=
  ∃ text, outputDir.dropLast ++ ["." ++ outputDir.name ++ ".stage-" ++ text] <+: q

/-- What is true when `build_stage` has ended. -/
structure Outcome (urlparse : UrlParse) (env : Env) (openTar : OpenTar) (tools : Tools) (lock : Items)
    (cacheRoot repoRoot : Path) (stage : Items) (outputDir : Path) (fs fs' : FileSystem)
    (r : Except Exc (List Image)) : Prop where
  /-- What was there before is as it was: the templates, the cache, and an older output. -/
  kept : fs.Extends fs'
  refused : fs.node outputDir ≠ none → fs' = fs
  /-- All that is new are directories above the output, the output, and a temporary directory. -/
  new : ∀ q, fs.node q = none → fs'.node q ≠ none →
    q <+: outputDir ∨ outputDir <+: q ∨ Staging outputDir q
  whole : fs.node outputDir = none → fs'.node outputDir = none ∨ ∃ images,
    PublishedAs urlparse env openTar tools lock cacheRoot repoRoot stage fs images
      (fs'.subtree outputDir)
  returned : ∀ images, r = .ok images → fs.node outputDir = none ∧
    PublishedAs urlparse env openTar tools lock cacheRoot repoRoot stage fs images
      (fs'.subtree outputDir) ∧ ∀ q, Staging outputDir q → fs'.node q = fs.node q

theorem not_staging_self {q : Path} (hq : q <+: outputDir) : ¬ Staging outputDir q := by
  rintro ⟨text, hle⟩
  have hle := hle.trans hq
  have hne : outputDir ≠ [] := by
    rintro rfl
    simp at hle
  have heq := hle.eq_of_length (by simpa using Nat.sub_add_cancel (List.length_pos_iff.2 hne))
  have hlast := congrArg (fun p : Path => p.name.length) heq
  have hdot : ".".length = 1 := rfl
  simp only [Path.name_concat, String.length_append] at hlast
  omega

/-- Without a rename the output is as it was. -/
theorem Outcome.of_error {fs fs' : FileSystem} {r : Except Exc (List Image)} (hkept : fs.Extends fs')
    (hrefused : fs.node outputDir ≠ none → fs' = fs)
    (hnew : ∀ q, fs.node q = none → fs'.node q ≠ none →
      (q <+: outputDir.dropLast ∧ q ≠ []) ∨ Staging outputDir q)
    (hr : ∀ images, r ≠ .ok images) :
    Outcome urlparse env openTar tools lock cacheRoot repoRoot stage outputDir fs fs' r := by
  refine ⟨hkept, hrefused, fun q hq hq' => ?_, fun hnone => .inl ?_, fun images h => absurd h (hr images)⟩
  · rcases hnew q hq hq' with ⟨hle, -⟩ | hstaging
    · exact .inl (hle.trans (List.dropLast_prefix _))
    · exact .inr (.inr hstaging)
  · by_contra hpresent
    rcases hnew outputDir hnone hpresent with ⟨hle, hne⟩ | hstaging
    · have hlength := hle.length_le
      have hpos := List.length_pos_iff.2 hne
      rw [List.length_dropLast] at hlength
      omega
    · exact not_staging_self (List.prefix_refl _) hstaging

/-- The working directory is filled and renamed, or nothing outside it has changed. -/
theorem publish_cases {inputs : Inputs} {r : Except Exc (List Image)} (hdir : w.fs.isDir workDir = true)
    (h : publish env openTar tools lock repoRoot stage outputDir inputs workDir w = (r, w')) :
    ((∀ images, r ≠ .ok images) ∧ w.fs.SameOutside (workDir <+: ·) w'.fs) ∨
    ∃ images w₁, r = .ok images ∧
      fillStage env openTar tools lock repoRoot stage inputs workDir w = (.ok images, w₁) ∧
      w₁.fs.replace workDir outputDir = .ok w'.fs := by
  have hfill : ∀ {r₁ w₁}, fillStage env openTar tools lock repoRoot stage inputs workDir w = (r₁, w₁) →
      w.fs.SameOutside (workDir <+: ·) w₁.fs := fun hrun =>
    (within_fillStage.same hdir hrun).mono fun q ⟨name, _, hle⟩ => (List.prefix_append _ _).trans hle
  obtain ⟨r₁, w₁, hfirst⟩ : ∃ r w₁, fillStage env openTar tools lock repoRoot stage inputs workDir w =
    (r, w₁) := ⟨_, _, rfl⟩
  unfold publish at h
  cases r₁ with
  | error e =>
    rw [Eff.bind_of_error hfirst] at h
    cases h
    exact .inl ⟨by simp, hfill hfirst⟩
  | ok images =>
    rw [Eff.bind_of_ok hfirst] at h
    obtain ⟨r₂, w₂, hsecond⟩ : ∃ r w₂, refuseExisting env outputDir w₁ = (r, w₂) := ⟨_, _, rfl⟩
    have hfs₂ := confined_refuseExisting.eq hsecond
    cases r₂ with
    | error e =>
      rw [Eff.bind_of_error hsecond] at h
      cases h
      exact .inl ⟨by simp, hfs₂ ▸ hfill hfirst⟩
    | ok _ =>
      rw [Eff.bind_of_ok hsecond] at h
      obtain ⟨r₃, w₃, hthird⟩ : ∃ r w₃, Py.osReplace env workDir outputDir w₂ = (r, w₃) :=
        ⟨_, _, rfl⟩
      cases r₃ with
      | error e =>
        rw [Eff.bind_of_error hthird] at h
        cases h
        have hfs₃ := Py.change_eq_error hthird
        exact .inl ⟨by simp, by rw [hfs₃, hfs₂]; exact hfill hfirst⟩
      | ok _ =>
        rw [Eff.bind_of_ok hthird] at h
        cases h
        exact .inr ⟨images, w₁, rfl, hfirst, hfs₂ ▸ Py.change_eq_ok hthird⟩

/-! ### The temporary directory -/

/-- The directories above the output are made, and in them a temporary directory, which is empty. -/
structure Opened (outputDir p : Path) (fs fs₁ fs₂ : FileSystem) : Prop where
  label : ∃ text, p = outputDir.dropLast ++ ["." ++ outputDir.name ++ ".stage-" ++ text]
  extends₁ : fs.Extends fs₁
  above : fs.SameOutside (fun q => q <+: outputDir.dropLast ∧ q ≠ []) fs₁
  missing : fs₁.node p = none
  empty : fs₂.subtree p = .single .dir
  off : fs₁.SameOutside (p <+: ·) fs₂

namespace Opened

variable {p : Path} {fs fs₁ fs₂ fs' : FileSystem}

theorem staging (h : Opened outputDir p fs fs₁ fs₂) {q : Path} (hq : p <+: q) : Staging outputDir q := by
  obtain ⟨text, rfl⟩ := h.label
  exact ⟨text, hq⟩

theorem isDir (h : Opened outputDir p fs fs₁ fs₂) : fs₂.isDir p = true := by
  have hroot := congrArg (FileSystem.node · []) h.empty
  rw [FileSystem.isDir_iff, ← List.append_nil p]
  exact hroot

theorem new (h : Opened outputDir p fs fs₁ fs₂) {q : Path} (hq : fs.node q = none)
    (hq' : fs₁.node q ≠ none) : q <+: outputDir.dropLast ∧ q ≠ [] := by
  by_contra hnot
  exact hq' ((h.above q hnot).trans hq)

/-- Nothing of what was there before is below the temporary directory. -/
theorem not_below (h : Opened outputDir p fs fs₁ fs₂) {q : Path} (hq : fs.node q ≠ none) :
    ¬ p <+: q := by
  intro hle
  obtain ⟨n, hn⟩ := Option.ne_none_iff_exists'.1 hq
  have hbelow := FileSystem.node_eq_none_below h.missing hle
  rw [h.extends₁ q n hn] at hbelow
  cases hbelow

theorem extends₂ (h : Opened outputDir p fs fs₁ fs₂) : fs.Extends fs₂ := by
  intro q n hn
  rw [h.off q (h.not_below (by rw [hn]; simp))]
  exact h.extends₁ q n hn

/-- A directory that is not above the output is apart from the temporary directory. -/
theorem apart (h : Opened outputDir p fs fs₁ fs₂) {q : Path} (hdir : fs.isDir q = true)
    (hq : ¬ q <+: outputDir) : Apart p q := by
  have hbelow : ¬ p <+: q := h.not_below (by rw [FileSystem.isDir_iff.1 hdir]; simp)
  refine ⟨hbelow, fun hle => ?_⟩
  obtain ⟨text, rfl⟩ := h.label
  rcases List.prefix_concat_iff.1 hle with heq | hle
  · exact hbelow ⟨[], by rw [List.append_nil, heq]⟩
  · exact hq (hle.trans (List.dropLast_prefix _))

theorem subtree (h : Opened outputDir p fs fs₁ fs₂) {q : Path} (hdir : fs.isDir q = true)
    (hq : ¬ q <+: outputDir) : fs₂.subtree q = fs.subtree q := by
  refine FileSystem.ext_node fun s => ?_
  have hs := List.prefix_append q s
  have hout : ¬ p <+: q ++ s := fun hle =>
    (List.prefix_or_prefix_of_prefix hle hs).elim (h.apart hdir hq).1 (h.apart hdir hq).2
  refine (h.off _ hout).trans (h.above _ fun ⟨hle, _⟩ => ?_)
  exact hq ((hs.trans hle).trans (List.dropLast_prefix _))

theorem ne (h : Opened outputDir p fs fs₁ fs₂) : p ≠ outputDir := by
  rintro rfl
  exact not_staging_self (List.prefix_refl _) (h.staging (List.prefix_refl _))

/-- What is in a temporary directory, and not in this one, was there before. -/
theorem staging_same (h : Opened outputDir p fs fs₁ fs₂) {q : Path} (hq : Staging outputDir q) :
    fs₁.node q = fs.node q := by
  obtain ⟨text, htext⟩ := hq
  refine h.above q fun ⟨hle, _⟩ => ?_
  simpa using (htext.trans hle).length_le

end Opened

/-- A temporary directory of an output is not below the output. -/
theorem not_below_of_staging {q : Path} (hne : outputDir ≠ []) (hq : Staging outputDir q) :
    ¬ outputDir <+: q := by
  intro hle
  obtain ⟨text, htext⟩ := hq
  rcases List.prefix_or_prefix_of_prefix hle htext with h | h
  · rcases List.prefix_concat_iff.1 h with heq | hup
    · exact not_staging_self (List.prefix_refl outputDir) ⟨text, heq ▸ List.prefix_refl _⟩
    · have hlength := hup.length_le
      have hpos := List.length_pos_iff.2 hne
      rw [List.length_dropLast] at hlength
      omega
  · exact not_staging_self (List.prefix_refl outputDir) ⟨text, h⟩

/-- Where nothing outside the temporary directory has changed, the output is missing. -/
theorem outcome_of_failed {p : Path} {fs fs₁ fs₂ fs' : FileSystem} {r : Except Exc (List Image)}
    (hopened : Opened outputDir p fs fs₁ fs₂) (hnone : fs.node outputDir = none)
    (hsame : fs₁.SameOutside (p <+: ·) fs') (hr : ∀ images, r ≠ .ok images) :
    Outcome urlparse env openTar tools lock cacheRoot repoRoot stage outputDir fs fs' r := by
  refine .of_error (fun q n hn => ?_) (fun h => absurd hnone h) (fun q hq hq' => ?_) hr
  · rw [hsame q (hopened.not_below (by rw [hn]; simp))]
    exact hopened.extends₁ q n hn
  · by_cases hle : p <+: q
    · exact .inr (hopened.staging hle)
    · exact .inl (hopened.new hq (hsame q hle ▸ hq'))

/-- Where the temporary directory has been renamed, the output is what was in it. -/
theorem outcome_of_replaced {p : Path} {fs fs₁ fs₂ fs₃ fs' : FileSystem} {images : List Image}
    {r : Except Exc (List Image)} (hopened : Opened outputDir p fs fs₁ fs₂)
    (hnone : fs.node outputDir = none) (hfill : fs₂.SameOutside (p <+: ·) fs₃)
    (hreplace : fs₃.replace p outputDir = .ok fs')
    (hpublished : PublishedAs urlparse env openTar tools lock cacheRoot repoRoot stage fs images
      (fs₃.subtree p)) (hr : ∀ images', r = .ok images' → images' = images) :
    Outcome urlparse env openTar tools lock cacheRoot repoRoot stage outputDir fs fs' r := by
  obtain ⟨-, hpo, hop, -, hmoved, hgone, hrest⟩ := FileSystem.replace_eq_ok hreplace hopened.ne
  have hsame : ∀ q, ¬ p <+: q → ¬ outputDir <+: q → fs'.node q = fs₁.node q :=
    fun q hq hq' => by rw [hrest q hq hq', hfill q hq, hopened.off q hq]
  have htree : fs'.subtree outputDir = fs₃.subtree p := FileSystem.ext_node hmoved
  rw [← htree] at hpublished
  refine ⟨fun q n hn => ?_, fun h => absurd hnone h, fun q hq hq' => ?_,
    fun _ => .inr ⟨images, hpublished⟩, fun images' hok => ⟨hnone, ?_, fun q hq => ?_⟩⟩
  · have hq : fs.node q ≠ none := by rw [hn]; simp
    rw [hsame q (hopened.not_below hq) fun hle => hq (FileSystem.node_eq_none_below hnone hle)]
    exact hopened.extends₁ q n hn
  · by_cases hout : outputDir <+: q
    · exact .inr (.inl hout)
    by_cases hle : p <+: q
    · exact .inr (.inr (hopened.staging hle))
    · exact .inl ((hopened.new hq (hsame q hle hout ▸ hq')).1.trans (List.dropLast_prefix _))
  · exact hr images' hok ▸ hpublished
  · by_cases hle : p <+: q
    · rw [hgone q hle]
      by_contra hpresent
      exact hopened.not_below (Ne.symm hpresent) hle
    · have hne : outputDir ≠ [] := by
        rintro rfl
        exact hop (List.nil_prefix)
      rw [hsame q hle (not_below_of_staging hne hq)]
      exact hopened.staging_same hq

/-- The part after the checks, from a file system in which the output is missing. -/
theorem outcome_of_staged {inputs : Inputs} {artifact : Extension → ByteArray} {w₁ : World}
    {r : Except Exc (List Image)} (hname : '/' ∉ outputDir.name.toList)
    (hapart : ∀ extension, ¬ templateOf repoRoot extension <+: outputDir)
    (hnone : w.fs.node outputDir = none)
    (htemplate : ∀ extension, w.fs.isDir (templateOf repoRoot extension) = true)
    (hlocked : ∀ extension, Locked urlparse env.depth lock cacheRoot stage w.fs extension
      (inputs.ids extension) (artifact extension))
    (hartifact : ∀ extension, w.fs.fileAt (inputs.paths extension) = some (artifact extension))
    (hmkdirs : Py.mkdirs env outputDir.dropLast w = (.ok (), w₁))
    (h : Py.withTemporaryDirectory env outputDir.dropLast ("." ++ outputDir.name ++ ".stage-")
      (publish env openTar tools lock repoRoot stage outputDir inputs) w₁ = (r, w')) :
    Outcome urlparse env openTar tools lock cacheRoot repoRoot stage outputDir w.fs w'.fs r := by
  have hext₁ : w.fs.Extends w₁.fs := (Py.adds_mkdirs _).extends hmkdirs
  have hsame₁ := (Py.confined_mkdirs _).same hmkdirs
  rcases Py.withTemporaryDirectory_cases h with ⟨hr, hfs⟩ |
    ⟨token, w₂, r₁, w₃, r₂, hmkdir, hbody, hclean, hr⟩
  · rw [hfs]
    refine .of_error hext₁ (fun h => absurd hnone h) (fun q hq hq' => .inl ?_) hr
    by_contra hnot
    exact hq' ((hsame₁ q hnot).trans hq)
  have hlabel : '/' ∉ ("." ++ outputDir.name ++ ".stage-").toList := by
    simp only [String.toList_append, List.mem_append, not_or]
    exact ⟨⟨by decide, hname⟩, by decide⟩
  rw [Py.temporaryPath_eq hlabel] at hmkdir hbody hclean
  set p := outputDir.dropLast ++ ["." ++ outputDir.name ++ ".stage-" ++ token.text]
  obtain ⟨hmissing, -, -, hsame₂⟩ := FileSystem.mkdir_eq_ok hmkdir
  have hopened : Opened outputDir p w.fs w₁.fs w₂.fs :=
    ⟨⟨token.text, rfl⟩, hext₁, hsame₁, hmissing, FileSystem.subtree_of_mkdir hmkdir,
      fun q hq => hsame₂ q fun heq => hq (heq ▸ List.prefix_refl p)⟩
  have hend := (Py.confined_cleanup p).same hclean
  rcases publish_cases hopened.isDir hbody with
    ⟨hfailed, hinside⟩ | ⟨images, w₄, rfl, hfill, hreplace⟩
  · exact outcome_of_failed hopened hnone ((hopened.off.trans hinside).trans hend)
      fun images hok => hfailed images (hr images hok).1
  · have hpublished := fillStage_eq_ok hopened.empty
      (fun extension => hopened.apart (htemplate extension) (hapart extension))
      (fun extension => FileSystem.isDir_iff.2
        (hopened.extends₂ _ _ (FileSystem.isDir_iff.1 (htemplate extension))))
      (fun extension => hopened.subtree (htemplate extension) (hapart extension)) hlocked
      (fun extension => FileSystem.fileAt_eq_some.2
        (hopened.extends₂ _ _ (FileSystem.fileAt_eq_some.1 (hartifact extension)))) hfill
    have hinside : w₂.fs.SameOutside (p <+: ·) w₄.fs :=
      (within_fillStage.same hopened.isDir hfill).mono
        fun q ⟨name, _, hle⟩ => (List.prefix_append _ _).trans hle
    -- the directory has been renamed, so there is nothing to clean up
    have hclean' : w'.fs = w₃.fs := by
      have hgone := (FileSystem.replace_eq_ok hreplace hopened.ne).2.2.2.2.2.1
      exact Py.cleanup_of_missing (hgone p (List.prefix_refl p)) hclean
    rw [hclean']
    exact outcome_of_replaced hopened hnone hinside hreplace hpublished
      fun images' hok => (Except.ok.inj (hr images' hok).1).symm

/-- **However `build_stage` ends**, what was there before is as it was, and the output is absent or
the whole stage. -/
theorem buildStage_publishes {r : Except Exc (List Image)} (hname : '/' ∉ outputDir.name.toList)
    (hapart : ∀ extension, ¬ templateOf repoRoot extension <+: outputDir)
    (h : buildStage urlparse env openTar tools lock cacheRoot repoRoot stage outputDir w = (r, w')) :
    Outcome urlparse env openTar tools lock cacheRoot repoRoot stage outputDir w.fs w'.fs r := by
  have hsame : ∀ {fs' : FileSystem} {e : Exc}, fs' = w.fs →
      Outcome urlparse env openTar tools lock cacheRoot repoRoot stage outputDir w.fs fs'
        (.error e) := by
    rintro _ e rfl
    exact .of_error (.refl _) (fun _ => rfl) (fun q hq hq' => absurd hq hq') (by simp)
  unfold buildStage at h
  obtain ⟨r₁, w₁, hfirst⟩ : ∃ r w₁, refuseExisting env outputDir w = (r, w₁) := ⟨_, _, rfl⟩
  have hfs₁ := confined_refuseExisting.eq hfirst
  cases r₁ with
  | error e =>
    rw [Eff.bind_of_error hfirst] at h
    cases h
    exact hsame hfs₁
  | ok _ =>
  rw [Eff.bind_of_ok hfirst] at h
  obtain ⟨r₂, w₂, hsecond⟩ : ∃ r w₂, checkInputs urlparse env lock cacheRoot stage w₁ = (r, w₂) :=
    ⟨_, _, rfl⟩
  have hfs₂ := (confined_checkInputs.eq hsecond).trans hfs₁
  cases r₂ with
  | error e =>
    rw [Eff.bind_of_error hsecond] at h
    cases h
    exact hsame hfs₂
  | ok inputs =>
  rw [Eff.bind_of_ok hsecond] at h
  obtain ⟨r₃, w₃, hthird⟩ : ∃ r w₃, checkTemplates env repoRoot w₂ = (r, w₃) := ⟨_, _, rfl⟩
  have hfs₃ := (confined_checkTemplates.eq hthird).trans hfs₂
  cases r₃ with
  | error e =>
    rw [Eff.bind_of_error hthird] at h
    cases h
    exact hsame hfs₃
  | ok _ =>
  rw [Eff.bind_of_ok hthird] at h
  obtain ⟨r₄, w₄, hfourth⟩ : ∃ r w₄, Py.mkdirs env outputDir.dropLast w₃ = (r, w₄) := ⟨_, _, rfl⟩
  have hnone : w.fs.node outputDir = none := refuseExisting_eq_ok hfirst
  cases r₄ with
  | error e =>
    rw [Eff.bind_of_error hfourth] at h
    cases h
    have hextends := (Py.adds_mkdirs _).extends hfourth
    have hconfined := (Py.confined_mkdirs _).same hfourth
    rw [hfs₃] at hextends hconfined
    refine .of_error hextends (fun h => absurd hnone h) (fun q hq hq' => .inl ?_) (by simp)
    by_contra hnot
    exact hq' ((hconfined q hnot).trans hq)
  | ok _ =>
  rw [Eff.bind_of_ok hfourth] at h
  obtain ⟨artifact, hinputs⟩ := checkInputs_eq_ok hsecond
  rw [hfs₁] at hinputs
  rw [← hfs₃] at hinputs hnone ⊢
  refine outcome_of_staged hname hapart hnone (fun extension => ?_)
    (fun extension => (hinputs extension).1) (fun extension => (hinputs extension).2) hfourth h
  rw [hfs₃, ← hfs₂]
  exact checkTemplates_eq_ok hthird extension

end Stage

/-! ### Two stages that can be built -/

/-- An archive with all binaries, each of one byte. -/
def binariesArchive : ByteArray :=
  ⟨#[
    0x1f, 0x8b, 0x08, 0x00, 0x00, 0x00, 0x00, 0x00, 0x02, 0x03, 0xed, 0xd8, 0xd1, 0x0a, 0xc2, 0x20,
    0x18, 0x86, 0x61, 0x2f, 0xa5, 0x1b, 0x18, 0x69, 0xa6, 0x5e, 0x8f, 0x33, 0x29, 0xc9, 0x74, 0xe8,
    0xd6, 0xf5, 0x27, 0x41, 0x10, 0x9d, 0x19, 0x53, 0x06, 0xfb, 0xde, 0x13, 0xc7, 0x4e, 0xfe, 0xa3,
    0x67, 0x3f, 0x6e, 0x74, 0xe1, 0x78, 0x5f, 0x46, 0x3b, 0xe8, 0xc9, 0x65, 0x9b, 0x9e, 0x36, 0x91,
    0xd5, 0xa3, 0x25, 0x25, 0xc4, 0xfb, 0x2c, 0xfd, 0x9e, 0x25, 0xf6, 0xf5, 0x5c, 0xde, 0x33, 0xc6,
    0x85, 0x24, 0x07, 0x4a, 0x3a, 0xb4, 0xe4, 0x59, 0xa7, 0x32, 0x9e, 0xec, 0x33, 0x4d, 0xd0, 0x9e,
    0x1b, 0x3f, 0xfe, 0x4d, 0x0c, 0x73, 0x8a, 0xde, 0xdb, 0x34, 0x3c, 0x74, 0xd0, 0xd7, 0x15, 0x3f,
    0x04, 0xf5, 0xfe, 0x39, 0x13, 0x0c, 0xfe, 0xe1, 0x1f, 0x75, 0xf3, 0x9f, 0xcd, 0xcd, 0x5e, 0x16,
    0xbf, 0x95, 0xfd, 0xcf, 0xcf, 0xf0, 0x0f, 0xff, 0xa8, 0x97, 0x7f, 0x33, 0xfb, 0x66, 0x33, 0xea,
    0xfd, 0x53, 0x2a, 0x39, 0xfc, 0xc3, 0x3f, 0xea, 0xe1, 0xdf, 0x24, 0x17, 0x5b, 0xce, 0xa8, 0xf6,
    0x4f, 0x15, 0x97, 0xb8, 0xff, 0xc3, 0x3f, 0xea, 0xe5, 0xbf, 0xe5, 0xfa, 0xff, 0xc7, 0xbf, 0x62,
    0x27, 0xf8, 0x87, 0x7f, 0xd4, 0xc3, 0xff, 0xe4, 0x42, 0xc8, 0xdb, 0xda, 0xff, 0x42, 0xe2, 0xff,
    0x1f, 0xfc, 0x23, 0x84, 0x10, 0x6a, 0xd6, 0x0b, 0x30, 0x9f, 0xe3, 0x13, 0x00, 0x20, 0x00, 0x00]⟩

/-- What `tarfile` reads in it. -/
def openBinaries : OpenTar := fun bytes =>
  if bytes.data.toList = binariesArchive.data.toList then
    .ok ((Extension.kubernetesCp.binaries ++ Extension.criO.binaries).map fun binary =>
      ⟨"bin/" ++ binary, true, .ok (some ⟨#[0x61]⟩)⟩)
  else .error ⟨.osError, "not a gzip file"⟩

/-- A machine whose `mksquashfs` writes four bytes. -/
def squashing : Tools :=
  ⟨some fun _ _ => ⟨⟨0, "", ""⟩, some "hsqs".toByteArray⟩, none, fun _ => false, fun _ _ => []⟩

/-- A directory in which the same tree stands under every name. -/
def everyName (t : FileSystem) : FileSystem where
  node
    | [] => some .dir
    | _ :: p => t.node p
  parent_dir
    | [], _, _ => rfl
    | _ :: p, name, h => t.parent_dir p name h

/-- The artifacts of a version in the cache. -/
def storedArtifacts (version : String) : List (Path × ByteArray) :=
  [(["kubelet-" ++ version], "a".toByteArray), (["control-plane-" ++ version], binariesArchive),
    (["cri-o-" ++ version], binariesArchive)]

/-- A cache that has the artifacts of both stages for every lock. -/
def sampleCache : FileSystem :=
  .under ["cache", "locks"]
    (everyName (.ofLists [[]] (["v1.33.5", "v1.34.1"].flatMap storedArtifacts) (by decide)))

/-- The directories of a template. -/
def templateDirs (extension : Extension) : List Path :=
  [[], ["usr"], ["usr", "bin"], ["usr", "lib"], ["usr", "lib", "extension-release.d"]].map
    (["sysext", extension.name] ++ ·)

/-- Its files: the release metadata, and an older binary. -/
def templateFiles (extension : Extension) : List (Path × ByteArray) :=
  [(["sysext", extension.name, "usr", "lib", "extension-release.d",
      "extension-release." ++ extension.name], "ID=_any\n".toByteArray),
    (["sysext", extension.name] ++ binDir ++ extension.binaries.take 1, "b".toByteArray)]

/-- A repository with the build script and the templates. -/
def sampleRepo : FileSystem :=
  .ofLists ([[], ["extensions"], ["sysext"]] ++ extensions.flatMap templateDirs)
    ((["extensions", "build.sh"], "#!/bin/sh\n".toByteArray) :: extensions.flatMap templateFiles)
    (by decide +kernel)

/-- The cache and the repository. -/
def sampleFiles : FileSystem := sampleCache.place ["repo"] sampleRepo

/-- An environment in which one call is broken off. -/
def stoppedAt (k : ℕ) : Env :=
  { Artifacts.servingEnv with
    interrupt := fun n => if n = k then some ⟨⟨.osError, ""⟩, .empty, [], .empty⟩ else none }

theorem eq_ok_of_check {α : Type} {x : Except Exc α × World} {test : α → Bool}
    (h : Py.okAnd x.1 test = true) : ∃ a, x = (.ok a, x.2) ∧ test a = true := by
  obtain ⟨a, hok, htest⟩ := Py.okAnd_eq_true.1 h
  exact ⟨a, Prod.ext hok rfl, htest⟩

theorem eq_error_of_check {α : Type} {x : Except Exc α × World}
    (h : Py.okAnd x.1 (fun _ => true) = false) : ∃ e, x = (.error e, x.2) := by
  obtain ⟨r, w⟩ := x
  cases r with
  | error e => exact ⟨e, rfl⟩
  | ok a => cases h

/-- The first stage is published; when a call between its images is broken off, it is not. -/
theorem buildStage_publishes_firstStage :
    (∃ images fs', images.length = 3 ∧
      Outcome Artifacts.httpsParse Artifacts.servingEnv openBinaries squashing Artifacts.twoStageLock
        ["cache"] ["repo"] (Artifacts.sampleStage "v1.33.5") ["out"] sampleFiles fs' (.ok images)) ∧
    ∃ e fs', FileSystem.present fs' ["out"] = false ∧
      Outcome Artifacts.httpsParse (stoppedAt 50) openBinaries squashing Artifacts.twoStageLock
        ["cache"] ["repo"] (Artifacts.sampleStage "v1.33.5") ["out"] sampleFiles fs' (.error e) := by
  have hapart : ∀ extension, ¬ templateOf ["repo"] extension <+: ["out"] := by
    intro extension
    cases extension <;> decide
  constructor
  · have hreturns : Py.okAnd (buildStage Artifacts.httpsParse Artifacts.servingEnv openBinaries squashing
        Artifacts.twoStageLock ["cache"] ["repo"] (Artifacts.sampleStage "v1.33.5") ["out"]
        ⟨sampleFiles, 0⟩).1 (fun images => images.length == 3) = true := by decide +kernel
    obtain ⟨images, hrun, hlength⟩ := eq_ok_of_check hreturns
    exact ⟨images, _, beq_iff_eq.1 hlength, buildStage_publishes (by decide) hapart hrun⟩
  · have hstops : (fun x : Except Exc (List Image) × World =>
        !Py.okAnd x.1 (fun _ => true) && !x.2.fs.present ["out"]) (buildStage Artifacts.httpsParse
          (stoppedAt 50) openBinaries squashing Artifacts.twoStageLock ["cache"] ["repo"]
          (Artifacts.sampleStage "v1.33.5") ["out"] ⟨sampleFiles, 0⟩) = true := by decide +kernel
    obtain ⟨hstops, habsent⟩ := Bool.and_eq_true_iff.1 hstops
    rw [Bool.not_eq_true'] at hstops habsent
    obtain ⟨e, hrun⟩ := eq_error_of_check hstops
    exact ⟨e, _, habsent, buildStage_publishes (by decide) hapart hrun⟩

end GuestUpgrade
