import K8Labs.Artifacts.Populate

/-!
# Caches whose population was interrupted

From the point where `populate` has removed the completion marker until its last rename there is no
marker, whatever is broken off in between and whatever it leaves behind:

* `ends_download`, `ends_populateOciImage`, `ends_writeMetadata` : every step leaves the cache
  without the marker when it raises, and all but the last also when it returns.
* `validateCache_of_unmarked` : a cache without the marker has a problem.
* `validateCache_sound_and_interrupted` : **what an empty list of problems says, and that a
  population that raised does not lead to one**.
-/

namespace Artifacts

open Py (Exc Value Items Path FileSystem Eff Env World Absent)

variable {urlparse : UrlParse} {env : Env} {directory : Path}

/-- The path of the completion marker. -/
def marker (directory : Path) : Path := directory ++ ["complete.json"]

/-! ### Downloads -/

theorem temporaryName_ne_marker (name : String) : temporaryName name ≠ "complete.json" := by
  intro h
  have hfirst := congrArg (fun s => s.toList.head?) h
  have hdot : ".".toList = ['.'] := rfl
  simp only [temporaryName, String.toList_append, hdot, List.cons_append, List.head?_cons] at hfirst
  exact absurd hfirst (by decide)

theorem temporaryFor_ne_marker (p : Path) : temporaryFor p ∉ [marker directory] := by
  intro h
  have hlast := congrArg List.getLast? (List.mem_singleton.1 h)
  simp only [temporaryFor, marker, List.getLast?_concat, Option.some.injEq] at hlast
  exact temporaryName_ne_marker _ hlast

theorem ends_download {item : Artifact}
    (hne : directory.join item.cachePath ≠ marker directory) :
    (download env item directory).Ends (Absent [marker directory])
      (fun _ => Absent [marker directory]) (Absent [marker directory]) := by
  -- a rejected download removes its temporary file
  have hreject : ∀ e : Exc, Eff.Ends (Absent [marker directory])
      (do
        Py.unlinkFile env (temporaryFor (directory.join item.cachePath))
        Eff.throw e : Eff ByteArray)
      (fun bytes w => Absent [marker directory] w ∧
        w.fs.fileAt (temporaryFor (directory.join item.cachePath)) = some bytes)
      (Absent [marker directory]) := fun e =>
    (Py.ends_absent_unlinkFile _).bind fun _ w hw => hw
  have hreceive : (receive env item.url (temporaryFor (directory.join item.cachePath))).Ends
      (Absent [marker directory])
      (fun bytes w => Absent [marker directory] w ∧
        w.fs.fileAt (temporaryFor (directory.join item.cachePath)) = some bytes)
      (Absent [marker directory]) := by
    have hends : (receive env item.url (temporaryFor (directory.join item.cachePath))).Ends
        (Absent [marker directory]) (fun _ => Absent [marker directory])
        (Absent [marker directory]) :=
      (touches_receive _ _).ends_absent fun q hq heq => temporaryFor_ne_marker _ (heq ▸ hq)
    refine .of_all fun w r w' hw hx => ?_
    cases r with
    | ok bytes => exact ⟨hends.of_ok hw hx, fileAt_of_receive hx⟩
    | error e => exact hends.of_error hw hx
  unfold download
  refine (Py.ends_absent_inspect _).bind fun stored => ?_
  split_ifs
  · exact fun w hw => hw
  · refine (Py.ends_absent_mkdirs _).bind fun _ => Eff.Ends.bind (hreceive.tryCatch fun e => ?_)
      fun bytes => ?_
    · split_ifs
      · exact hreject _
      · exact fun w hw => hw
    · split_ifs
      · refine Eff.Ends.bind ((Py.ends_absent_unlinkFile _).weaken fun w hw => hw.1) ?_
        exact fun _ w hw => hw
      · refine Py.ends_absent_osReplace (fun w hw => hw.1) fun w r hw hmem => ?_
        -- nothing is below a file
        have hr : r ≠ [] := by
          rintro rfl
          exact hne (by simpa using hmem)
        rw [FileSystem.fileAt, FileSystem.node_eq_none_of_file hw.2 (List.prefix_append _ r)
          (by simpa using hr)]

/-! ### Images -/

theorem absent_marker {paths : List Path} {w : World} (h : Absent (marker directory :: paths) w) :
    Absent [marker directory] w :=
  List.forall_mem_singleton.2 (h _ List.mem_cons_self)

/-- The staging directory is new and not above the marker. -/
theorem staging_not_above {item : OciImage} {w w' : World} {p : Path}
    (hdir : w.fs.isDir (directory ++ [".staging"]) = true)
    (h : Py.mkdtemp env (directory ++ [".staging"]) (item.id ++ "-") w = (.ok p, w')) :
    ¬ p <+: marker directory ∧ w'.fs.node (p ++ ["layout"]) = none := by
  obtain ⟨hp, hmkdir⟩ := Py.mkdtemp_eq_ok h
  obtain ⟨hnone, -, -, hrest⟩ := FileSystem.mkdir_eq_ok hmkdir
  constructor
  · intro habove
    rcases List.prefix_concat_iff.1 habove with heq | habove
    · -- its name has a hyphen
      obtain ⟨parent, name, hpath, hname⟩ := Py.exists_name_temporaryPath (directory ++ [".staging"])
        item.id.toList (c := '-') (by decide) (env.token w.clock)
      have hlabel : String.ofList (item.id.toList ++ ['-']) = item.id ++ "-" := by
        rw [String.ofList_append, String.ofList_toList]
      rw [hlabel, ← hp, heq] at hpath
      have hlast := (List.append_inj' hpath rfl).2
      rw [← List.cons.inj hlast |>.1] at hname
      exact absurd hname (by decide)
    · -- what is above the cache directory exists
      have hexists : w.fs.isDir p = true := by
        refine FileSystem.isDir_above (habove.trans (List.prefix_append _ [".staging"])) ?_ ?_
        · rintro rfl
          simpa using habove.length_le
        · rw [FileSystem.isDir_iff.1 hdir]
          simp
      rw [FileSystem.isDir_iff.1 hexists] at hnone
      cases hnone
  · rw [hrest _ (by simp)]
    exact FileSystem.node_eq_none_below hnone (List.prefix_append p ["layout"])

/-- The trees that commands write when they succeed have no file `complete.json` at their top. -/
def LayoutCommand (env : Env) : Prop :=
  ∀ n command tree, env.run n command = (.success, tree) → tree.fileAt ["complete.json"] = none

theorem ends_removeExisting {paths : List Path} (destination : Path) :
    (removeExisting env destination).Ends (Absent paths) (fun _ => Absent paths) (Absent paths) := by
  refine (Py.ends_absent_inspect _).bind fun present => ?_
  split_ifs
  · exact (Py.touches_removeTree destination).ends_absent fun _ _ => id
  · exact fun w hw => hw

theorem ends_stageImage {item : OciImage} {stage : Path} (hskopeo : LayoutCommand env)
    (hstage : ¬ stage <+: marker directory) :
    (stageImage env item stage (directory.join item.cachePath)).Ends
      (fun w => Absent [marker directory] w ∧ w.fs.node stage = none)
      (fun _ => Absent [marker directory]) (Absent [marker directory]) := by
  -- the command leaves no marker at the top of the stage
  have hrun : ∀ command, (runChecked env command stage).Ends
      (fun w => Absent [marker directory] w ∧ w.fs.node stage = none)
      (fun _ => Absent [marker directory, stage ++ ["complete.json"]])
      (Absent [marker directory]) := by
    intro command
    have hends : (runChecked env command stage).Ends (Absent [marker directory])
        (fun _ => Absent [marker directory]) (Absent [marker directory]) := by
      refine Eff.Ends.bind ((Py.touches_runCommand command stage).ends_absent ?_) fun exit => ?_
      · intro q hq hp
        exact hstage (List.mem_singleton.1 hq ▸ hp)
      · cases exit <;> exact fun w hw => hw
    refine .of_all ?_
    rintro w r w' ⟨hw, hnone⟩ hx
    cases r with
    | error e => exact hends.of_error hw hx
    | ok _ =>
      obtain ⟨tree, htree, hfs⟩ := runChecked_eq_ok hx
      refine List.forall_mem_cons.2 ⟨hends.of_ok hw hx _ List.mem_cons_self, ?_⟩
      refine List.forall_mem_singleton.2 (Option.eq_none_iff_forall_ne_some.2 fun b hb => ?_)
      rw [hfs] at hb
      rcases FileSystem.fileAt_place_cases hb with hb | ⟨r, hr, hb⟩
      · rw [FileSystem.fileAt, FileSystem.node_eq_none_below hnone (List.prefix_append _ _)] at hb
        cases hb
      · obtain rfl := List.append_cancel_left hr
        rw [hskopeo _ _ _ htree] at hb
        cases hb
  -- a layout without problems is a directory
  have hvalidate : (Py.inspect env fun fs => validateOciLayout env.depth fs item stage).Ends
      (Absent [marker directory, stage ++ ["complete.json"]])
      (fun problems w => Absent [marker directory, stage ++ ["complete.json"]] w ∧
        (problems = [] → w.fs.fileAt stage = none)) (Absent [marker directory]) := by
    have hends : (Py.inspect env fun fs => validateOciLayout env.depth fs item stage).Ends
        (Absent [marker directory, stage ++ ["complete.json"]])
        (fun _ => Absent [marker directory, stage ++ ["complete.json"]])
        (Absent [marker directory, stage ++ ["complete.json"]]) := Py.ends_absent_inspect _
    refine .of_all fun w r w' hw hx => ?_
    cases r with
    | error e => exact absent_marker (hends.of_error hw hx)
    | ok problems =>
      refine ⟨hends.of_ok hw hx, fun hnil => ?_⟩
      obtain ⟨hproblems, hfs⟩ := Py.inspect_eq_ok hx
      rw [hnil] at hproblems
      obtain ⟨⟨bytes, -, hfile, -⟩, -⟩ := validateOciLayout_eq_nil_iff.1 hproblems
      rw [hfs]
      refine FileSystem.fileAt_eq_none_of_isDir
        (FileSystem.isDir_above (List.prefix_append stage ["oci-layout"]) (by simp) ?_)
      rw [FileSystem.fileAt_eq_some.1 hfile]
      simp
  -- moving the stage to the marker or to the cache directory does not make a marker
  have hmove : (Py.osReplace env stage (directory.join item.cachePath)).Ends
      (Absent [marker directory, stage ++ ["complete.json"], stage])
      (fun _ => Absent [marker directory]) (Absent [marker directory]) := by
    refine Py.ends_absent_osReplace (fun w => absent_marker) fun w r hw hmem => ?_
    have hpath : Py.pathParts item.cachePath ++ r = ["complete.json"] := by
      simpa [Path.join, marker, List.append_assoc] using hmem
    rcases List.append_eq_singleton_iff.1 hpath with ⟨-, rfl⟩ | ⟨-, rfl⟩
    · exact hw _ (by simp)
    · rw [List.append_nil]
      exact hw _ (by simp)
  unfold stageImage
  refine Eff.ends_bind_lift (fun w hw => hw.1) ?_
  rintro ⟨osName, architecture⟩ -
  refine (hrun _).bind fun _ => hvalidate.bind fun problems => ?_
  split_ifs with hnil
  · exact fun w hw => absent_marker hw.1
  · have hpaths : ∀ w, (Absent [marker directory, stage ++ ["complete.json"]] w ∧
        (problems = [] → w.fs.fileAt stage = none)) →
        Absent [marker directory, stage ++ ["complete.json"], stage] w := by
      rintro w ⟨hw, hfile⟩ q hq
      simp only [List.mem_cons, List.not_mem_nil, or_false] at hq
      rcases hq with rfl | rfl | rfl
      · exact hw _ (by simp)
      · exact hw _ (by simp)
      · exact hfile (not_not.1 hnil)
    refine Eff.Ends.weaken ?_ hpaths
    refine Eff.Ends.bind ((ends_removeExisting _).imp_raised fun w => absent_marker) fun _ => ?_
    refine Eff.Ends.bind ((Py.ends_absent_mkdirs _).imp_raised fun w => absent_marker) fun _ => ?_
    exact hmove

theorem ends_populateOciImage (item : OciImage) (hskopeo : LayoutCommand env) :
    (populateOciImage env item directory).Ends (Absent [marker directory])
      (fun _ => Absent [marker directory]) (Absent [marker directory]) := by
  have hmkdirs : (Py.mkdirs env (directory ++ [".staging"])).Ends (Absent [marker directory])
      (fun _ w => Absent [marker directory] w ∧ w.fs.isDir (directory ++ [".staging"]) = true)
      (Absent [marker directory]) := by
    have hends : (Py.mkdirs env (directory ++ [".staging"])).Ends (Absent [marker directory])
        (fun _ => Absent [marker directory]) (Absent [marker directory]) := Py.ends_absent_mkdirs _
    refine .of_all fun w r w' hw hx => ?_
    cases r with
    | error e => exact hends.of_error hw hx
    | ok _ => exact ⟨hends.of_ok hw hx, Py.isDir_of_mkdirs hx (by simp)⟩
  have hmkdtemp : (Py.mkdtemp env (directory ++ [".staging"]) (item.id ++ "-")).Ends
      (fun w => Absent [marker directory] w ∧ w.fs.isDir (directory ++ [".staging"]) = true)
      (fun p w => ¬ p <+: marker directory ∧ Absent [marker directory] w ∧
        w.fs.node (p ++ ["layout"]) = none) (Absent [marker directory]) := by
    have hquiet : (Py.mkdtemp env (directory ++ [".staging"]) (item.id ++ "-")).Touches
        (fun _ => False) (fun _ => False) := Py.touches_mkdtemp _ _
    have hends : (Py.mkdtemp env (directory ++ [".staging"]) (item.id ++ "-")).Ends
        (Absent [marker directory]) (fun _ => Absent [marker directory])
        (Absent [marker directory]) := hquiet.ends_absent fun _ _ => id
    refine .of_all fun w r w' ⟨hw, hdir⟩ hx => ?_
    cases r with
    | error e => exact hends.of_error hw hx
    | ok p =>
      obtain ⟨hnot, hnone⟩ := staging_not_above hdir hx
      exact ⟨hnot, hends.of_ok hw hx, hnone⟩
  unfold populateOciImage
  refine (Py.ends_absent_inspect _).bind fun inPlace => ?_
  split_ifs
  · exact fun w hw => hw
  · refine hmkdirs.bind fun _ => hmkdtemp.bind fun p => ?_
    -- the name of the staging directory is fixed from here on
    by_cases hnot : p <+: marker directory
    · exact fun w hw => absurd hnot hw.1
    · have hstage : ¬ p ++ ["layout"] <+: marker directory := fun h =>
        hnot ((List.prefix_append p ["layout"]).trans h)
      have hlast : (Py.removeTreeQuietly env p).Ends (Absent [marker directory])
          (fun _ => Absent [marker directory]) (Absent [marker directory]) :=
        (Py.touches_removeTreeQuietly p).ends_absent fun _ _ => id
      exact ((ends_stageImage hskopeo hstage).weaken fun w hw => hw.2).tryFinally (fun _ => hlast) hlast

/-! ### Metadata -/

/-- Until its last rename, writing the metadata does not make the marker. -/
theorem ends_writeAndReplace {name : String} (bytes : ByteArray) (hname : name ≠ "complete.json") :
    (writeAndReplace env directory name bytes).Ends (Absent [marker directory])
      (fun _ => Absent [marker directory]) (Absent [marker directory]) := by
  refine Eff.Ends.bind (Py.ends_absent_writeFile bytes ?_) fun _ => ?_
  · simpa [marker] using temporaryName_ne_marker name
  · refine (Py.touches_osReplace _ _).ends_absent fun q hq hp => ?_
    rw [List.mem_singleton.1 hq, marker, List.prefix_append_right_inj] at hp
    simp [hname] at hp

theorem ends_writeMarker (bytes : ByteArray) :
    (writeAndReplace env directory "complete.json" bytes).Ends (Absent [marker directory])
      (fun _ _ => True) (Absent [marker directory]) := by
  refine Eff.Ends.bind (Py.ends_absent_writeFile bytes ?_) fun _ => ?_
  · simpa [marker] using temporaryName_ne_marker "complete.json"
  · refine .of_all fun w r w' hw hx => ?_
    cases r with
    | ok _ => trivial
    | error e =>
      intro q hq
      rw [Py.change_eq_error hx]
      exact hw q hq

theorem ends_writeMetadata {lock : Items} {root : Path}
    (hdir : cacheDir env.depth lock root = .ok directory) :
    (writeMetadata urlparse env lock root).Ends (Absent [marker directory]) (fun _ _ => True)
      (Absent [marker directory]) := by
  have hjson : ∀ name data, name ≠ "complete.json" → (writeJson env directory name data).Ends
      (Absent [marker directory]) (fun _ => Absent [marker directory])
      (Absent [marker directory]) :=
    fun name data hname => Eff.ends_bind_lift (fun _ => id) fun _ _ => ends_writeAndReplace _ hname
  unfold writeMetadata
  refine Eff.ends_bind_lift (fun _ => id) fun dir heq => ?_
  obtain rfl : directory = dir := Except.ok.inj (hdir.symm.trans heq)
  refine Eff.Ends.bind (Py.ends_absent_mkdirs _) fun _ => ?_
  refine Eff.ends_bind_lift (fun _ => id) fun artifacts _ => ?_
  refine Eff.ends_bind_lift (fun _ => id) fun images _ => ?_
  refine Eff.ends_bind_lift (fun _ => id) fun canonical _ => ?_
  refine (ends_writeAndReplace _ (by decide)).bind fun _ => ?_
  refine (hjson _ _ (by decide)).bind fun _ => (hjson _ _ (by decide)).bind fun _ => ?_
  refine (ends_writeAndReplace _ (by decide)).bind fun _ => ?_
  refine Eff.ends_bind_lift (fun _ => id) fun digest _ => ?_
  have hlast : ∀ data, (writeJson env directory "complete.json" data).Ends
      (Absent [marker directory]) (fun _ _ => True) (Absent [marker directory]) :=
    fun data => Eff.ends_bind_lift (fun _ => id) fun _ _ => ends_writeMarker _
  exact (hlast _).bind fun _ w _ => trivial

/-! ### Populating -/

section Populate

variable {lock : Items} {root : Path} {digest : String} {w w' : World}

/-- A cache without the marker has a problem. -/
theorem validateCache_of_unmarked {fs : FileSystem} {depth : ℕ}
    (hdigest : lockDigest depth lock = .ok digest)
    (hmarker : fs.fileAt (marker (root ++ ["locks", digest])) = none) :
    ∃ problem problems, validateCache urlparse depth lock root fs = .ok (problem :: problems) := by
  have hmissing : missingMetadata fs (root ++ ["locks", digest]) ≠ [] := by
    rw [Ne, missingMetadata_eq_nil_iff]
    intro hall
    have := hall "complete.json" (by decide)
    rw [FileSystem.isFile, ← marker, hmarker] at this
    cases this
  simp only [validateCache, hdigest, Except.bind]
  split_ifs
  · exact ⟨_, [], rfl⟩
  · obtain ⟨problem, problems, hlist⟩ := List.exists_cons_of_ne_nil hmissing
    exact ⟨problem, problems, by rw [hlist]⟩

theorem openCache_eq_ok (h : openCache env lock root w = (.ok directory, w')) :
    (∃ digest, lockDigest env.depth lock = .ok digest ∧ directory = root ++ ["locks", digest]) ∧
      Absent [marker directory] w' := by
  obtain ⟨dir, hdir, h⟩ := Eff.bind_lift_eq_ok h
  obtain ⟨⟨⟩, w₁, -, h⟩ := Eff.bind_eq_ok h
  obtain ⟨⟨⟩, w₂, hunlink, h⟩ := Eff.bind_eq_ok h
  obtain ⟨rfl, rfl⟩ := Eff.pure_eq_ok h
  obtain ⟨digest, hdigest, rfl⟩ := Py.map_eq_ok.1 hdir
  refine ⟨⟨digest, hdigest, rfl⟩, List.forall_mem_singleton.2 ?_⟩
  rw [FileSystem.fileAt, marker, (FileSystem.unlink_eq_ok (Py.change_eq_ok hunlink)).1]

/-- Until the marker is removed, no file changes. -/
theorem openCache_eq_error {e : Exc} (h : openCache env lock root w = (.error e, w')) (q : Path) :
    w'.fs.fileAt q = w.fs.fileAt q := by
  have hmkdirs : ∀ dir, (Py.mkdirs env dir).Ends (fun w' => ∀ q, w'.fs.fileAt q = w.fs.fileAt q)
      (fun _ w' => ∀ q, w'.fs.fileAt q = w.fs.fileAt q)
      (fun w' => ∀ q, w'.fs.fileAt q = w.fs.fileAt q) := by
    intro dir
    refine .of_all fun w₁ r w₂ hw hx => ?_
    have hsame : ∀ q, w₂.fs.fileAt q = w.fs.fileAt q :=
      fun q => (Py.fileAt_of_mkdirs hx).trans (hw q)
    cases r <;> exact hsame
  have hunlink : ∀ p, (Py.unlinkFile env p).Ends (fun w' => ∀ q, w'.fs.fileAt q = w.fs.fileAt q)
      (fun _ _ => True) (fun w' => ∀ q, w'.fs.fileAt q = w.fs.fileAt q) := by
    intro p
    refine .of_all fun w₁ r w₂ hw hx => ?_
    cases r with
    | ok _ => trivial
    | error e =>
      intro q
      rw [Py.change_eq_error hx]
      exact hw q
  have hopen : (openCache env lock root).Ends (fun w' => ∀ q, w'.fs.fileAt q = w.fs.fileAt q)
      (fun _ _ => True) (fun w' => ∀ q, w'.fs.fileAt q = w.fs.fileAt q) :=
    Eff.ends_bind_lift (fun _ => id) fun dir _ =>
      (hmkdirs dir).bind fun _ => (hunlink _).bind fun _ w _ => trivial
  exact hopen.of_error (fun _ => rfl) h q

theorem ends_fillCache (hdir : cacheDir env.depth lock root = .ok directory)
    (hskopeo : LayoutCommand env)
    (hartifacts : ∀ artifacts, inventory urlparse lock = .ok artifacts → ∀ a ∈ artifacts,
      directory.join a.cachePath ≠ marker directory) :
    (fillCache urlparse env lock root directory).Ends (Absent [marker directory]) (fun _ _ => True)
      (Absent [marker directory]) := by
  refine Eff.ends_bind_lift (fun _ => id) fun artifacts hinventory => ?_
  refine Eff.Ends.bind (Eff.ends_forEach fun a ha =>
    ends_download (hartifacts artifacts hinventory a ha)) fun _ => ?_
  refine Eff.ends_bind_lift (fun _ => id) fun images _ => ?_
  refine Eff.Ends.bind (Eff.ends_forEach fun i _ => ends_populateOciImage i hskopeo) fun _ => ?_
  exact ends_writeMetadata hdir

/-- **What an empty list of problems says, and what an interruption leaves.**  The list is empty only
if every artifact is stored with its digest and every layout is valid, provided that the documents
of the layouts of a cache that is otherwise in order are objects, and only then.  A population that
raises leaves a cache with a problem, once it has removed the marker; before that it leaves every
file as it was. -/
theorem validateCache_sound_and_interrupted (urlparse : UrlParse) (env : Env) (lock : Items)
    (root : Path) :
    (∀ (fs : FileSystem) digest artifacts images, lockDigest env.depth lock = .ok digest →
      inventory urlparse lock = .ok artifacts → ociInventory lock = .ok images →
      ((validateCache urlparse env.depth lock root fs = .ok [] →
          (∀ a ∈ artifacts, Stored fs ((root ++ ["locks", digest]).join a.cachePath) a.sha256) ∧
            ∀ i ∈ images, ValidLayout env.depth
              (fun r => fs.fileAt ((root ++ ["locks", digest]).join i.cachePath ++ r)) i) ↔
        (fs.isDir (root ++ ["locks", digest]) = true →
          (∀ name ∈ metadataNames, fs.isFile (root ++ ["locks", digest] ++ [name]) = true) →
          CacheComplete env.depth fs lock digest (root ++ ["locks", digest]) artifacts images →
          ∀ i ∈ images, ObjectDocuments env.depth
            (fun r => fs.fileAt ((root ++ ["locks", digest]).join i.cachePath ++ r)) i))) ∧
    (LayoutCommand env →
      (∀ digest artifacts, lockDigest env.depth lock = .ok digest →
        inventory urlparse lock = .ok artifacts → ∀ a ∈ artifacts,
          (root ++ ["locks", digest]).join a.cachePath ≠ marker (root ++ ["locks", digest])) →
      ∀ w e w', populate urlparse env lock root w = (.error e, w') →
        (∃ problem problems,
          validateCache urlparse env.depth lock root w'.fs = .ok (problem :: problems)) ∨
        (openCache env lock root w = (.error e, w') ∧ ∀ q, w'.fs.fileAt q = w.fs.fileAt q)) := by
  constructor
  · intro fs digest artifacts images hdigest hartifacts himages
    have hnil : validateCache urlparse env.depth lock root fs = .ok [] ↔
        fs.isDir (root ++ ["locks", digest]) = true ∧
          (∀ name ∈ metadataNames, fs.isFile (root ++ ["locks", digest] ++ [name]) = true) ∧
          CacheComplete env.depth fs lock digest (root ++ ["locks", digest]) artifacts images := by
      rw [validateCache_eq_nil_iff]
      constructor
      · rintro ⟨digest', hdigest', hdir, hnames, artifacts', images', hartifacts', himages', hc⟩
        obtain rfl := Except.ok.inj (hdigest.symm.trans hdigest')
        obtain rfl := Except.ok.inj (hartifacts.symm.trans hartifacts')
        obtain rfl := Except.ok.inj (himages.symm.trans himages')
        exact ⟨hdir, hnames, hc⟩
      · rintro ⟨hdir, hnames, hc⟩
        exact ⟨digest, hdigest, hdir, hnames, artifacts, images, hartifacts, himages, hc⟩
    rw [hnil]
    constructor
    · intro hsound hdir hnames hc i hi
      exact (hc.layouts i hi).valid_iff.1 ((hsound ⟨hdir, hnames, hc⟩).2 i hi)
    · rintro hobjects ⟨hdir, hnames, hc⟩
      exact ⟨hc.stored, fun i hi => (hc.layouts i hi).valid_iff.2 (hobjects hdir hnames hc i hi)⟩
  · intro hskopeo hartifacts w e w' h
    obtain ⟨first, w₁, hopen⟩ : ∃ r w₁, openCache env lock root w = (r, w₁) := ⟨_, _, rfl⟩
    unfold populate at h
    -- the cache is opened first: only from then on is the marker gone
    cases first with
    | error e' =>
      rw [Eff.bind_of_error hopen] at h
      cases h
      exact .inr ⟨hopen, openCache_eq_error hopen⟩
    | ok directory =>
      obtain ⟨⟨digest, hdigest, rfl⟩, hunmarked⟩ := openCache_eq_ok hopen
      rw [Eff.bind_of_ok hopen] at h
      have hdir : cacheDir env.depth lock root = .ok (root ++ ["locks", digest]) := by
        rw [cacheDir, hdigest]
        rfl
      have hends : (fillCache urlparse env lock root (root ++ ["locks", digest])).Ends
          (Absent [marker (root ++ ["locks", digest])]) (fun _ _ => True)
          (Absent [marker (root ++ ["locks", digest])]) :=
        ends_fillCache hdir hskopeo fun artifacts => hartifacts digest artifacts hdigest
      exact .inl (validateCache_of_unmarked hdigest
        (hends.of_error hunmarked h _ List.mem_cons_self))

/-- A complete cache whose only layout has an empty list as its index: `validate_cache` has no
problem with it. -/
theorem empty_index_accepted :
    loadLock httpsParse (.dict imageLock) = .ok imageLock ∧ ociInventory imageLock = .ok [managerItem] ∧
      ∃ w', populate httpsParse servingEnv imageLock [] ⟨emptyIndexCache, 0⟩ =
          (.ok ["locks", imageLockDigest], w') ∧
        validateCache httpsParse servingEnv.depth imageLock [] w'.fs = .ok [] ∧
        ¬ ValidLayout servingEnv.depth (fun r =>
          w'.fs.fileAt (Path.join ["locks", imageLockDigest] managerItem.cachePath ++ r))
          managerItem := by
  obtain ⟨w', hrun, hkeeps⟩ := populate_imageLock
  refine ⟨loadLock_imageLock, ociInventory_imageLock, w', hrun, validateCache_eq_nil_iff.2
    (populate_complete loadLock_imageLock imageLock_storable (imageLock_noClash _) hrun), ?_⟩
  rintro ⟨-, indexBytes, _, _, index, _, _, _, _, hfile, hload, -⟩
  have hbefore : emptyIndexCache.fileAt (["locks", imageLockDigest] ++
      ["oci", "manager", "index.json"]) = some "[]".toByteArray :=
    FileSystem.fileAt_congr (FileSystem.node_under_append _ emptyIndexTree _)
  have hafter := hkeeps _ _ hbefore fun ⟨name, heq⟩ => by simpa using congrArg List.length heq
  have hpath : Path.join ["locks", imageLockDigest] managerItem.cachePath ++ ["index.json"] =
    ["locks", imageLockDigest] ++ ["oci", "manager", "index.json"] := rfl
  rw [hpath, hafter] at hfile
  obtain rfl := Option.some.inj hfile
  have hlist : loadDocument 900 "[]".toByteArray = .ok (.list []) := rfl
  exact absurd (hlist.symm.trans hload) (by simp)

end Populate

end Artifacts
