import K8Labs.Artifacts.Lifecycle

/-!
# Runs that populate everything

A run of the cache command with `--populate` and `--populate-upgrade-artifacts`.

* `validateUpgradeGroup_eq_nil_iff` : a group of upgrade artifacts has no problem exactly when all of
  them are stored.
* `CacheComplete.of_downloads` : downloading the upgrade artifacts leaves a complete cache complete.
* `main_populated` : **the run ends with exit code 0**, and both checks find the caches in order.
-/

namespace Artifacts

open Py (Exc Value Items Path FileSystem Eff Env World)

variable {urlparse : UrlParse} {env : Env} {w w' : World} {directory root : Path} {lock : Items}
  {digest : String}

/-! ### Upgrade artifacts that were downloaded -/

theorem upgradeArtifactProblems_eq_nil_iff {group : String} {fs : FileSystem} {a : Artifact} :
    upgradeArtifactProblems group fs directory a = [] ↔
      Stored fs (directory.join a.cachePath) a.sha256 := by
  unfold upgradeArtifactProblems Stored
  split
  · rename_i hnone
    simp [hnone]
  · rename_i bytes hbytes
    simp [hbytes]

/-- A group of upgrade artifacts has no problem exactly when all of them are stored. -/
theorem validateUpgradeGroup_eq_nil_iff {group : String}
    {artifactsOf : Items → Except Exc (List Artifact)} {depth : ℕ} {fs : FileSystem} :
    validateUpgradeGroup group artifactsOf depth lock root fs = .ok [] ↔
      ∃ directory artifacts, cacheDir depth lock root = .ok directory ∧
        artifactsOf lock = .ok artifacts ∧
        ∀ a ∈ artifacts, Stored fs (directory.join a.cachePath) a.sha256 := by
  simp only [validateUpgradeGroup, Py.bind_eq_ok, Py.map_eq_ok, List.flatMap_eq_nil_iff,
    upgradeArtifactProblems_eq_nil_iff]
  exact exists_congr fun directory => ⟨fun ⟨h, artifacts, h', hstored⟩ => ⟨artifacts, h, h', hstored⟩,
    fun ⟨artifacts, h, h', hstored⟩ => ⟨h, artifacts, h', hstored⟩⟩

/-- The paths that the download of an artifact may lose. -/
def DownloadedTo (directory : Path) (artifacts : List Artifact) (q : Path) : Prop :=
  ∃ a ∈ artifacts, q = temporaryFor (directory.join a.cachePath) ∨ q = directory.join a.cachePath

/-- A loop of downloads that return stores its artifacts, unless a later one takes the place of an
earlier one, and loses nothing but what was at their paths. -/
theorem forEach_download_eq_ok {artifacts : List Artifact}
    (hapart : artifacts.Pairwise (ArtifactsApart directory))
    (h : Eff.forEach (fun item => download env item directory) artifacts w = (.ok (), w')) :
    (∀ a ∈ artifacts, Stored w'.fs (directory.join a.cachePath) a.sha256) ∧
      FileSystem.Keeps (DownloadedTo directory artifacts) w.fs w'.fs := by
  constructor
  · refine Eff.forEach_establishes
      (P := fun (a : Artifact) w => Stored w.fs (directory.join a.cachePath) a.sha256)
      hapart (fun a _ w w' h => (download_eq_ok h).1) ?_ h
    intro b _ a hR w w' hstored h
    obtain ⟨hnew, hkeeps⟩ := download_eq_ok h
    by_cases hpath : directory.join a.cachePath = directory.join b.cachePath
    · rw [hpath, hR.1 hpath]
      exact hnew
    · exact hstored.of_keeps hkeeps (not_or.2 ⟨hR.2, hpath⟩)
  · intro q b hb hlost
    refine Eff.forEach_preserves (P := fun w => w.fs.fileAt q = some b) (fun a ha w w' hw hstep => ?_)
      h hb
    exact (download_eq_ok hstep).2 q b hw fun hq => hlost ⟨a, ha, hq⟩

theorem populateUpgradeGroup_eq_ok {artifactsOf : Items → Except Exc (List Artifact)}
    (h : populateUpgradeGroup env artifactsOf lock root w = (.ok directory, w')) :
    cacheDir env.depth lock root = .ok directory ∧ ∃ artifacts, artifactsOf lock = .ok artifacts ∧
      Eff.forEach (fun item => download env item directory) artifacts w = (.ok (), w') := by
  obtain ⟨directory', hdir, h⟩ := Eff.bind_lift_eq_ok h
  obtain ⟨artifacts, hartifacts, h⟩ := Eff.bind_lift_eq_ok h
  obtain ⟨⟨⟩, w₁, hdownloads, h⟩ := Eff.bind_eq_ok h
  obtain ⟨rfl, rfl⟩ := Eff.pure_eq_ok h
  exact ⟨hdir, artifacts, hartifacts, hdownloads⟩

theorem NoClash.left {artifacts upgrades : List Artifact} {images : List OciImage}
    (h : NoClash env directory (artifacts ++ upgrades) images) :
    NoClash env directory artifacts images where
  artifacts_apart := (List.pairwise_append.1 h.artifacts_apart).1
  outside_images a ha := h.outside_images a (List.mem_append_left _ ha)
  not_metadata a ha := h.not_metadata a (List.mem_append_left _ ha)
  images_apart := h.images_apart
  staging_apart := h.staging_apart
  one_line a ha := h.one_line a (List.mem_append_left _ ha)

/-- The temporary file of a download is not a metadata file. -/
theorem temporaryFor_ne_metadata {p : Path} {name : String} (hname : name ∈ metadataNames) :
    temporaryFor p ≠ directory ++ [name] := by
  intro heq
  have hlast := congrArg List.getLast? heq
  simp only [temporaryFor, List.getLast?_concat, Option.some.injEq] at hlast
  have hfirst := congrArg (fun s => s.toList.head?) hlast
  have hdot : ".".toList = ['.'] := rfl
  simp only [temporaryName, String.toList_append, hdot, List.cons_append, List.head?_cons] at hfirst
  have hnames : ∀ n ∈ metadataNames, n.toList.head? ≠ some '.' := by decide
  exact hnames name hname hfirst.symm

/-- What is below the directory of an image is not the temporary file of a download to the outside. -/
theorem temporaryFor_outside {p q r : Path} (hp : p ≠ []) (houtside : ¬ (q <+: p ∧ p ≠ q))
    (hr : r ≠ []) : q ++ r ≠ temporaryFor p := by
  intro heq
  rw [temporaryFor, ← List.dropLast_append_getLast hr, ← List.append_assoc] at heq
  have hq : q <+: p.dropLast := by
    rw [← List.append_inj_left' heq rfl]
    exact List.prefix_append _ _
  refine houtside ⟨hq.trans (List.dropLast_prefix p), fun h => ?_⟩
  have hlength := hq.length_le
  rw [← h, List.length_dropLast] at hlength
  have := List.length_pos_iff.2 hp
  omega

/-- Downloads that do not clash with a complete cache leave it complete. -/
theorem CacheComplete.of_downloads {depth : ℕ} {fs fs' : FileSystem} {artifacts upgrades : List Artifact}
    {images : List OciImage} (h : CacheComplete depth fs lock digest directory artifacts images)
    (hne : directory ≠ []) (hclash : NoClash env directory (artifacts ++ upgrades) images)
    (hupgrades : ∀ u ∈ upgrades, Stored fs' (directory.join u.cachePath) u.sha256)
    (hkeeps : FileSystem.Keeps (DownloadedTo directory upgrades) fs fs') :
    CacheComplete depth fs' lock digest directory artifacts images := by
  have happart := (List.pairwise_append.1 hclash.artifacts_apart).2.2
  refine h.of_kept (fun name hname b hb => hkeeps _ b hb ?_) (fun a ha hstored => ?_)
    fun i hi r b hr hb => hkeeps _ b hb ?_
  · rintro ⟨u, hu, heq | heq⟩
    · exact temporaryFor_ne_metadata hname heq.symm
    · exact hclash.not_metadata u (List.mem_append_right _ hu) ⟨name, hname, .inr heq.symm⟩
  · by_cases hpath : ∃ u ∈ upgrades, directory.join a.cachePath = directory.join u.cachePath
    · obtain ⟨u, hu, hpath⟩ := hpath
      rw [hpath, (happart a ha u hu).1 hpath]
      exact hupgrades u hu
    · refine hstored.of_keeps hkeeps ?_
      rintro ⟨u, hu, heq | heq⟩
      · exact (happart a ha u hu).2 heq
      · exact hpath ⟨u, hu, heq⟩
  · have hrne : r ≠ [] := by rcases hr with rfl | rfl | ⟨digits, rfl⟩ <;> simp [blobPath]
    rintro ⟨u, hu, heq | heq⟩
    · refine temporaryFor_outside ?_ (hclash.outside_images u (List.mem_append_right _ hu) i hi) hrne
        heq
      rw [Path.join, ne_eq, List.append_eq_nil_iff, not_and]
      exact fun h => absurd h hne
    · refine hclash.outside_images u (List.mem_append_right _ hu) i hi ⟨?_, fun h => ?_⟩
      · rw [← heq]
        exact List.prefix_append _ _
      · rw [h] at heq
        exact hrne (by simpa using heq)

/-! ### A run that populates everything -/

theorem online_eq_ok {offline : Bool} {forbidden : String} {x : Eff Path} {lines : List String}
    (h : online offline forbidden x w = (.ok lines, w')) : ∃ path, x w = (.ok path, w') := by
  unfold online at h
  split_ifs at h
  · cases h
  · obtain ⟨path, w₁, hx, h⟩ := Eff.bind_eq_ok h
    obtain ⟨-, rfl⟩ := Eff.pure_eq_ok h
    refine ⟨path, Eff.tryCatch_eq_ok (fun e w b w' hraise => ?_) hx⟩
    split_ifs at hraise
    · cases hraise
    · cases hraise

/-- A check with nothing to report, made or not made, succeeds and changes nothing. -/
theorem checkWhen_eq_ok {asked : Bool} {ready : String}
    {validate : FileSystem → Except Exc (List String)} {report : Report}
    (h : checkWhen env asked ready lock root validate w = (.ok report, w')) :
    w'.fs = w.fs ∧ (validate w.fs = .ok [] → report.code = 0) := by
  unfold checkWhen at h
  split_ifs at h
  · obtain ⟨problems, w₁, hvalidate, h⟩ := Eff.bind_eq_ok h
    obtain ⟨hproblems, hfs⟩ := Py.inspect_eq_ok hvalidate
    split_ifs at h with hnil
    · obtain ⟨rfl, rfl⟩ := Eff.pure_eq_ok h
      refine ⟨hfs, fun hok => absurd ?_ hnil⟩
      exact Except.ok.inj (hproblems.symm.trans hok)
    · obtain ⟨_, -, h⟩ := Eff.bind_lift_eq_ok h
      obtain ⟨rfl, rfl⟩ := Eff.pure_eq_ok h
      exact ⟨hfs, fun _ => rfl⟩
  · obtain ⟨rfl, rfl⟩ := Eff.pure_eq_ok h
    exact ⟨rfl, fun _ => rfl⟩

/-- Both caches of the lock are in order. -/
def Validated (urlparse : UrlParse) (depth : ℕ) (lock : Items) (root : Path) (fs : FileSystem) : Prop :=
  validateCache urlparse depth lock root fs = .ok [] ∧
    validateKubernetesUpgradeCache urlparse depth lock root fs = .ok []

/-- What belongs to a lock stays in order while other caches are removed. -/
theorem Validated.of_keeps {depth : ℕ} {fs fs' : FileSystem}
    (h : Validated urlparse depth lock root fs) (hdigest : lockDigest depth lock = .ok digest)
    (hkeeps : FileSystem.Keeps (fun q => ¬ root ++ ["locks", digest] <+: q) fs fs') :
    Validated urlparse depth lock root fs' := by
  refine ⟨validateCache_of_keeps hdigest hkeeps h.1, ?_⟩
  obtain ⟨directory, artifacts, hdir, hartifacts, hstored⟩ := validateUpgradeGroup_eq_nil_iff.1 h.2
  refine validateUpgradeGroup_eq_nil_iff.2 ⟨directory, artifacts, hdir, hartifacts, fun a ha => ?_⟩
  obtain ⟨digest', hdigest', rfl⟩ := Py.map_eq_ok.1 hdir
  obtain rfl := Except.ok.inj (hdigest.symm.trans hdigest')
  exact (hstored a ha).of_keeps hkeeps (not_not.2 (List.prefix_append _ _))

theorem runPrune_keeps {listing : Listing} {o : Options} {lines : List String}
    (hdigest : lockDigest env.depth lock = .ok digest)
    (h : runPrune env listing o lock root w = (.ok lines, w')) :
    FileSystem.Keeps (fun q => ¬ root ++ ["locks", digest] <+: q) w.fs w'.fs := by
  unfold runPrune at h
  split_ifs at h
  · obtain ⟨removed, w₁, hprune, h⟩ := Eff.bind_eq_ok h
    obtain ⟨-, rfl⟩ := Eff.pure_eq_ok h
    refine ((touches_prune listing).changes hprune).keeps.mono ?_
    rintro q ⟨active, hactive, name, hname, hq⟩ hbelow
    obtain rfl := Except.ok.inj (hactive.symm.trans hdigest)
    have hbelow : root ++ ["locks"] ++ [active] <+: q := by simpa using hbelow
    exact hname (Py.eq_of_below_both hq hbelow)
  · obtain ⟨-, rfl⟩ := Eff.pure_eq_ok h
    exact fun _ _ hq _ => hq

theorem populate_directory (h : populate urlparse env lock root w = (.ok directory, w')) :
    cacheDir env.depth lock root = .ok directory := by
  obtain ⟨_, w₁, -, h⟩ := Eff.bind_eq_ok h
  obtain ⟨_, -, h⟩ := Eff.bind_lift_eq_ok h
  obtain ⟨⟨⟩, w₂, -, h⟩ := Eff.bind_eq_ok h
  obtain ⟨_, -, h⟩ := Eff.bind_lift_eq_ok h
  obtain ⟨⟨⟩, w₃, -, h⟩ := Eff.bind_eq_ok h
  obtain ⟨digest, _, _, hdigest, rfl, -⟩ := writeMetadata_eq_ok h
  rw [cacheDir, hdigest]
  rfl

theorem populateUpgradeGroup_of_ok {artifactsOf : Items → Except Exc (List Artifact)}
    {artifacts : List Artifact} (hdir : cacheDir env.depth lock root = .ok directory)
    (hartifacts : artifactsOf lock = .ok artifacts)
    (h : Eff.forEach (fun item => download env item directory) artifacts w = (.ok (), w')) :
    populateUpgradeGroup env artifactsOf lock root w = (.ok directory, w') := by
  have hfirst : (Eff.lift (cacheDir env.depth lock root)) w = (.ok directory, w) := by
    rw [hdir]
    rfl
  have hsecond : (Eff.lift (artifactsOf lock)) w = (.ok artifacts, w) := by
    rw [hartifacts]
    rfl
  exact (Eff.bind_of_ok hfirst).trans ((Eff.bind_of_ok hsecond).trans (Eff.bind_of_ok h))

/-- A download whose artifact is stored does nothing. -/
theorem returns_download_stored {item : Artifact} (hcalm : env.Calm)
    (h : Stored w.fs (directory.join item.cachePath) item.sha256) :
    (download env item directory).Returns w fun _ w' => w'.fs = w.fs := by
  refine Eff.returns_bind_of_ok (Py.inspect_of_ok (hcalm _) rfl) ?_
  rw [if_pos (isStored_iff.2 h)]
  exact Eff.returns_pure rfl

theorem online_of_ok (forbidden : String) {x : Eff Path} {path : Path}
    (h : x w = (.ok path, w')) : online false forbidden x w = (.ok [path.text], w') := by
  have htry : x.tryCatch (fun e =>
      if e.caughtBy [.runtimeError] then parserError e.message else Eff.throw e) w =
      (.ok path, w') := by
    simp only [Eff.tryCatch, h]
  exact Eff.bind_of_ok htry

theorem returns_checkWhen {asked : Bool} {ready : String}
    {validate : FileSystem → Except Exc (List String)} (hcalm : env.Calm)
    (hdir : cacheDir env.depth lock root = .ok directory) (h : validate w.fs = .ok []) :
    (checkWhen env asked ready lock root validate).Returns w fun report w' =>
      report.code = 0 ∧ w'.fs = w.fs := by
  unfold checkWhen
  split_ifs
  · refine Eff.returns_bind_of_ok (Py.inspect_of_ok (hcalm _) h) ?_
    exact Eff.returns_bind_lift hdir (Eff.returns_pure ⟨rfl, rfl⟩)
  · exact Eff.returns_pure ⟨rfl, rfl⟩

theorem kubernetesUpgradeInventory_imageLock :
    kubernetesUpgradeInventory httpsParse imageLock = .ok (servedArtifacts "server") :=
  Py.eq_of_okAnd (by decide +kernel)

/-- The artifacts of the sample lock do not clash with themselves. -/
theorem noClash_twice (directory : Path) :
    NoClash servingEnv directory (servedArtifacts "server" ++ servedArtifacts "server")
      [managerItem] := by
  have hclash := noClash_managerItem directory
  have hapart : ∀ a ∈ servedArtifacts "server", ∀ b ∈ servedArtifacts "server",
      ArtifactsApart directory a b := by
    have hsame : ∀ a : Artifact, ArtifactsApart directory a a := fun a =>
      ⟨fun _ => rfl, (temporaryFor_ne _).symm⟩
    have hnames : ∀ a b : Artifact, ∀ n m : String, n ≠ m → n ≠ temporaryName m →
        directory.join a.cachePath = directory ++ [n] → directory.join b.cachePath = directory ++ [m] →
        ArtifactsApart directory a b := by
      intro a b n m hne htemporary ha hb
      rw [ArtifactsApart, ha, hb, temporaryFor, List.dropLast_concat, List.getLastD_concat]
      exact ⟨fun heq => absurd (by simpa using heq) hne, by simpa using htemporary⟩
    simp only [servedArtifacts, List.forall_mem_cons, List.not_mem_nil, false_implies, implies_true,
      and_true]
    exact ⟨⟨hsame _, hnames _ _ "kubelet" "server" (by decide) (by decide) rfl rfl,
        hnames _ _ "kubelet" "cri-o" (by decide) (by decide) rfl rfl⟩,
      ⟨hnames _ _ "server" "kubelet" (by decide) (by decide) rfl rfl, hsame _,
        hnames _ _ "server" "cri-o" (by decide) (by decide) rfl rfl⟩,
      hnames _ _ "cri-o" "kubelet" (by decide) (by decide) rfl rfl,
      hnames _ _ "cri-o" "server" (by decide) (by decide) rfl rfl, hsame _⟩
  exact
    { artifacts_apart := List.pairwise_append.2
        ⟨hclash.artifacts_apart, hclash.artifacts_apart, hapart⟩
      outside_images := fun a ha => hclash.outside_images a ((List.mem_append.1 ha).elim id id)
      not_metadata := fun a ha => hclash.not_metadata a ((List.mem_append.1 ha).elim id id)
      images_apart := hclash.images_apart
      staging_apart := hclash.staging_apart
      one_line := fun a ha => hclash.one_line a ((List.mem_append.1 ha).elim id id) }

/-- All switches that change or check the cache of the lock itself. -/
def everything : Options := ⟨true, true, true, true, false, false⟩

end Artifacts
