import K8Labs.Artifacts.Complete

/-!
# The steps of populating the cache

What a download, the population of one image and the writing of the metadata have done when they
return, whatever the state of the file system was and whatever the environment did:

* `download_eq_ok` : the artifact is stored with its digest.
* `populateOciImage_eq_ok` : the layout passes the checks at its destination.
* `validateOciLayout_returns_and_refetches_iff` : **when a destination is judged and repaired**.
* `writeMetadata_eq_ok` : the metadata files hold what `MetadataWritten` says.

Each of them says which files can be lost on the way.
-/

namespace Artifacts

open Py (Exc Value Items Path FileSystem Eff Env World)

variable {urlparse : UrlParse} {env : Env} {w w' : World} {directory : Path}

/-! ### Downloads -/

theorem temporaryName_ne (name : String) : temporaryName name ≠ name := by
  intro h
  have := congrArg (fun s => s.toList.length) h
  simp only [temporaryName, String.toList_append, List.length_append] at this
  have hdot : ".".toList.length = 1 := rfl
  omega

theorem temporaryFor_ne (p : Path) : temporaryFor p ≠ p := by
  intro h
  cases p using List.reverseRecOn with
  | nil => simp [temporaryFor] at h
  | append_singleton p name =>
    simp only [temporaryFor, List.dropLast_concat, List.getLastD_concat, List.append_cancel_left_eq,
      List.cons.injEq, and_true] at h
    exact temporaryName_ne name h

theorem touches_copyChunks (temporary : Path) (chunks : List ByteArray) (done : ByteArray) :
    (copyChunks env temporary chunks done).Touches (· = temporary) (· = temporary) := by
  induction chunks generalizing done with
  | nil => exact (Py.touches_inspect _).bind fun _ => Eff.touches_pure _
  | cons chunk chunks ih =>
    refine (Py.touches_inspect _).bind fun _ => ?_
    split_ifs
    · exact Eff.touches_pure _
    · exact (Py.touches_writeFile _ _).bind fun _ => ih _

theorem touches_receive (url : String) (temporary : Path) :
    (receive env url temporary).Touches (· = temporary) (· = temporary) :=
  (Py.touches_urlopen url).bind fun _ =>
    (Py.touches_writeFile _ _).bind fun _ => touches_copyChunks temporary _ _

/-- The temporary file holds what was hashed. -/
theorem fileAt_of_copyChunks {temporary : Path} {chunks : List ByteArray} {done bytes : ByteArray}
    (h : copyChunks env temporary chunks done w = (.ok bytes, w'))
    (hw : w.fs.fileAt temporary = some done) : w'.fs.fileAt temporary = some bytes := by
  induction chunks generalizing done w with
  | nil =>
    obtain ⟨⟨⟩, w₁, hread, h⟩ := Eff.bind_eq_ok h
    obtain ⟨rfl, rfl⟩ := Eff.pure_eq_ok h
    rw [(Py.inspect_eq_ok hread).2, hw]
  | cons chunk chunks ih =>
    obtain ⟨⟨⟩, w₁, hread, h⟩ := Eff.bind_eq_ok h
    split_ifs at h with hsize
    · obtain ⟨rfl, rfl⟩ := Eff.pure_eq_ok h
      rw [(Py.inspect_eq_ok hread).2, hw]
    · obtain ⟨⟨⟩, w₂, hwrite, h⟩ := Eff.bind_eq_ok h
      exact ih h (Py.fileAt_of_writeFile hwrite)

theorem fileAt_of_receive {url : String} {temporary : Path} {bytes : ByteArray}
    (h : receive env url temporary w = (.ok bytes, w')) : w'.fs.fileAt temporary = some bytes := by
  obtain ⟨chunks, w₁, -, h⟩ := Eff.bind_eq_ok h
  obtain ⟨⟨⟩, w₂, hwrite, h⟩ := Eff.bind_eq_ok h
  exact fileAt_of_copyChunks h (Py.fileAt_of_writeFile hwrite)

/-- A download that returns has stored its artifact, and lost nothing but what was at its own two
paths. -/
theorem download_eq_ok {item : Artifact} (h : download env item directory w = (.ok (), w')) :
    Stored w'.fs (directory.join item.cachePath) item.sha256 ∧
      FileSystem.Keeps (fun q => q = temporaryFor (directory.join item.cachePath) ∨
        q = directory.join item.cachePath) w.fs w'.fs := by
  obtain ⟨stored, w₁, hcheck, h⟩ := Eff.bind_eq_ok h
  obtain ⟨hstored, hfs₁⟩ := Py.inspect_eq_ok hcheck
  split_ifs at h with hs
  · obtain ⟨-, rfl⟩ := Eff.pure_eq_ok h
    rw [hfs₁]
    exact ⟨isStored_iff.1 ((Except.ok.inj hstored).trans hs), fun _ _ hq _ => hq⟩
  · obtain ⟨⟨⟩, w₂, hmkdirs, h⟩ := Eff.bind_eq_ok h
    obtain ⟨bytes, w₃, hreceive, h⟩ := Eff.bind_eq_ok h
    have hreceive := Eff.tryCatch_eq_ok (fun e w b w' hraise => by
      split_ifs at hraise
      · obtain ⟨_, _, _, hraise⟩ := Eff.bind_eq_ok hraise
        cases hraise
      · cases hraise) hreceive
    split_ifs at h with hsha
    · obtain ⟨_, _, _, h⟩ := Eff.bind_eq_ok h
      cases h
    · obtain ⟨hdst, hkeeps⟩ := FileSystem.replace_file (Py.change_eq_ok h) (temporaryFor_ne _)
        (fileAt_of_receive hreceive)
      constructor
      · exact ⟨bytes, hdst, not_not.1 hsha⟩
      · intro q b hq hother
        refine hkeeps q b ?_ hother
        refine ((touches_receive _ _).changes hreceive).keeps q b ?_ fun heq => hother (.inl heq)
        rw [Py.fileAt_of_mkdirs hmkdirs, hfs₁, hq]

/-! ### Images -/

theorem runChecked_eq_ok {command : List String} {target : Path}
    (h : runChecked env command target w = (.ok (), w')) :
    ∃ tree, env.run w.clock command = (.success, tree) ∧ w'.fs = w.fs.place target tree := by
  obtain ⟨exit, w₁, hrun, h⟩ := Eff.bind_eq_ok h
  cases exit with
  | success =>
    obtain ⟨-, rfl⟩ := Eff.pure_eq_ok h
    exact Py.runCommand_success hrun
  | notFound => cases h
  | failure code stdout stderr => cases h

theorem LayoutPasses.of_keeps {depth : ℕ} {fs fs' : FileSystem} {p p' : Path} {item : OciImage}
    (h : LayoutPasses depth (fun r => fs.fileAt (p ++ r)) item)
    (hkeeps : ∀ r b, r = ["oci-layout"] ∨ r = ["index.json"] ∨ (∃ digits, r = blobPath digits) →
      fs.fileAt (p ++ r) = some b → fs'.fileAt (p' ++ r) = some b) :
    LayoutPasses depth (fun r => fs'.fileAt (p' ++ r)) item :=
  h.mono (fun b => hkeeps _ b (.inl rfl)) (fun b => hkeeps _ b (.inr (.inl rfl)))
    fun digits b => hkeeps _ b (.inr (.inr ⟨digits, rfl⟩))

/-- What stood at the destination was a directory, or nothing at all. -/
theorem removeExisting_eq_ok {destination : Path}
    (h : removeExisting env destination w = (.ok (), w')) :
    (∀ q, ¬ destination <+: q → w'.fs.fileAt q = w.fs.fileAt q) ∧
      ∀ b, w.fs.fileAt destination ≠ some b := by
  obtain ⟨present, w₁, hpresent, h⟩ := Eff.bind_eq_ok h
  obtain ⟨hpresent, hfs₁⟩ := Py.inspect_eq_ok hpresent
  obtain rfl := Except.ok.inj hpresent
  split_ifs at h with hp
  · obtain ⟨hdir, hfs⟩ := FileSystem.rmtree_eq_ok (Py.change_eq_ok h)
    rw [hfs₁] at hdir hfs
    refine ⟨fun q hq => by rw [hfs, FileSystem.fileAt_place_outside hq], fun b hb => ?_⟩
    rw [FileSystem.fileAt_eq_none_of_isDir hdir] at hb
    cases hb
  · obtain ⟨-, rfl⟩ := Eff.pure_eq_ok h
    refine ⟨fun q _ => by rw [hfs₁], fun b hb => ?_⟩
    rw [FileSystem.fileAt_eq_some] at hb
    exact hp (by simp [FileSystem.present, hb])

/-- An image that was staged and moved passes the checks at its destination; what was lost was
below the stage or below the destination. -/
theorem stageImage_eq_ok {item : OciImage} {stage destination : Path}
    (h : stageImage env item stage destination w = (.ok (), w')) (hne : stage ≠ destination) :
    (¬ destination <+: stage ∧
      LayoutPasses env.depth (fun r => w'.fs.fileAt (destination ++ r)) item) ∧
      FileSystem.Keeps (fun q => stage <+: q ∨ destination <+: q ∧ q ≠ destination) w.fs w'.fs := by
  obtain ⟨⟨osName, architecture⟩, -, h⟩ := Eff.bind_lift_eq_ok h
  obtain ⟨⟨⟩, w₁, hrun, h⟩ := Eff.bind_eq_ok h
  obtain ⟨tree, -, hfs₁⟩ := runChecked_eq_ok hrun
  obtain ⟨problems, w₂, hvalidate, h⟩ := Eff.bind_eq_ok h
  obtain ⟨hproblems, hfs₂⟩ := Py.inspect_eq_ok hvalidate
  split_ifs at h with hnil
  · cases h
  simp only [ne_eq, not_not] at hnil
  subst hnil
  have hpasses := validateOciLayout_eq_nil_iff.1 hproblems
  obtain ⟨⟨⟩, w₃, hremove, h⟩ := Eff.bind_eq_ok h
  obtain ⟨hremoved, hnofile⟩ := removeExisting_eq_ok hremove
  obtain ⟨⟨⟩, w₄, hmkdirs, h⟩ := Eff.bind_eq_ok h
  obtain ⟨-, hsrc, hdst, -, hmoved, -, hrest⟩ := FileSystem.replace_eq_ok (Py.change_eq_ok h) hne
  rw [hfs₂] at hremoved hnofile
  have hkept : ∀ q b, ¬ destination <+: q → w₁.fs.fileAt q = some b → w₄.fs.fileAt q = some b := by
    intro q b hq hb
    rw [Py.fileAt_of_mkdirs hmkdirs, hremoved q hq, hb]
  refine ⟨⟨hdst, hpasses.of_keeps fun r b _ hb => ?_⟩, fun q b hb hlost => ?_⟩
  · rw [FileSystem.fileAt_congr (hmoved r)]
    exact hkept _ b (FileSystem.outside_of_apart hdst hsrc (List.prefix_append stage r)) hb
  · simp only [not_or, not_and, not_not] at hlost
    have hb₁ : w₁.fs.fileAt q = some b := by
      rw [hfs₁, FileSystem.fileAt_place_outside hlost.1, hb]
    have hq : ¬ destination <+: q := by
      intro hp
      exact hnofile b (hlost.2 hp ▸ hb₁)
    rw [FileSystem.fileAt_congr (hrest q hlost.1 hq)]
    exact hkept q b hq hb₁

/-- An image that was populated passes the checks, provided that its staging directory, which goes
at the end, is not above its destination; what was lost was below the destination. -/
theorem populateOciImage_eq_ok {item : OciImage}
    (h : populateOciImage env item directory w = (.ok (), w'))
    (hstaging : ∀ n, ¬ Py.temporaryPath (directory ++ [".staging"]) (item.id ++ "-") (env.token n) <+:
      directory.join item.cachePath) :
    LayoutPasses env.depth (fun r => w'.fs.fileAt (directory.join item.cachePath ++ r)) item ∧
      FileSystem.Keeps (fun q => directory.join item.cachePath <+: q ∧
        q ≠ directory.join item.cachePath) w.fs w'.fs := by
  obtain ⟨inPlace, w₁, hcheck, h⟩ := Eff.bind_eq_ok h
  obtain ⟨hinPlace, hfs₁⟩ := Py.inspect_eq_ok hcheck
  split_ifs at h with hp
  · obtain ⟨-, rfl⟩ := Eff.pure_eq_ok h
    rw [hfs₁]
    refine ⟨?_, fun _ _ hq _ => hq⟩
    subst hp
    unfold layoutInPlace at hinPlace
    split_ifs at hinPlace
    · obtain ⟨problems, hproblems, hnil⟩ := Py.map_eq_ok.1 hinPlace
      rw [List.isEmpty_iff.1 hnil] at hproblems
      exact validateOciLayout_eq_nil_iff.1 hproblems
    · cases hinPlace
  · obtain ⟨⟨⟩, w₂, hmkdirs, h⟩ := Eff.bind_eq_ok h
    obtain ⟨temporary, w₃, hmkdtemp, h⟩ := Eff.bind_eq_ok h
    obtain ⟨htemporary, hmkdir⟩ := Py.mkdtemp_eq_ok hmkdtemp
    obtain ⟨w₄, hstage, hquiet⟩ := Eff.tryFinally_eq_ok h
    have hnot := hstaging w₂.clock
    rw [← htemporary] at hnot
    have habove : temporary <+: temporary ++ ["layout"] := List.prefix_append _ _
    obtain ⟨⟨hdst, hpasses⟩, hkeeps⟩ := stageImage_eq_ok hstage fun heq => hnot (heq ▸ habove)
    have hlast := ((Py.touches_removeTreeQuietly temporary).changes hquiet).keeps
    -- the staging directory is neither above the destination nor below it
    have hbelow : ∀ r, ¬ temporary <+: directory.join item.cachePath ++ r := by
      intro r hr
      rcases List.prefix_or_prefix_of_prefix hr (List.prefix_append _ r) with hup | hdown
      · exact hnot hup
      · exact hdst (hdown.trans habove)
    refine ⟨hpasses.of_keeps fun r b _ hb => hlast _ b hb (hbelow r), fun q b hb hlost => ?_⟩
    have hb₂ : w₂.fs.fileAt q = some b := by rw [Py.fileAt_of_mkdirs hmkdirs, hfs₁, hb]
    -- the staging directory is new, so nothing that existed is below it
    have hfresh : ¬ temporary <+: q := by
      intro hp
      rw [FileSystem.fileAt, FileSystem.node_eq_none_below (FileSystem.mkdir_eq_ok hmkdir).1 hp]
        at hb₂
      cases hb₂
    have hb₃ := (FileSystem.changes_mkdir hmkdir).keeps q b hb₂ id
    refine hlast q b (hkeeps q b hb₃ ?_) hfresh
    rintro (hp | hp)
    · exact hfresh (habove.trans hp)
    · exact hlost hp

/-! ### Repairing -/

/-- What is done after the look at the destination. -/
theorem populateOciImage_eq {item : OciImage} (hint : env.interrupt w.clock = none) :
    populateOciImage env item directory w =
      match layoutInPlace env.depth w.fs item (directory.join item.cachePath) with
      | .ok true => (.ok (), ⟨w.fs, w.clock + 1⟩)
      | .ok false => fetchOciImage env item directory ⟨w.fs, w.clock + 1⟩
      | .error e => (.error e, ⟨w.fs, w.clock + 1⟩) := by
  unfold populateOciImage
  cases h : layoutInPlace env.depth w.fs item (directory.join item.cachePath) with
  | error e => rw [Eff.bind_of_error (Py.inspect_of_error hint h)]
  | ok inPlace =>
    rw [Eff.bind_of_ok (Py.inspect_of_ok hint h)]
    cases inPlace <;> rfl

/-- A destination directory that is not a valid layout is fetched again. -/
def Refetches (depth : ℕ) (fs : FileSystem) (item : OciImage) (directory : Path) : Prop :=
  ∀ (env : Env) (w : World), env.depth = depth → w.fs = fs → env.interrupt w.clock = none →
    fs.isDir (directory.join item.cachePath) = true →
    ¬ ValidLayout depth (fun r => fs.fileAt (directory.join item.cachePath ++ r)) item →
    populateOciImage env item directory w = fetchOciImage env item directory ⟨w.fs, w.clock + 1⟩

/-- Fetching starts with a call that can be broken off. -/
theorem fetchOciImage_of_interrupt {item : OciImage} {i : Py.Interruption}
    (hint : env.interrupt w.clock = some i) :
    (fetchOciImage env item directory w).1 = .error i.exc := by
  have hmkdirs : Py.mkdirs env (directory ++ [".staging"]) w =
      (.error i.exc, ⟨w.fs, w.clock + 1⟩) := by
    obtain ⟨name, names, hpath⟩ : ∃ name names, directory ++ [".staging"] = name :: names := by
      cases directory with
      | nil => exact ⟨_, _, rfl⟩
      | cons name names => exact ⟨name, names ++ [".staging"], rfl⟩
    rw [Py.mkdirs, hpath]
    exact Eff.bind_of_error (by simp [Py.ensureDir, Py.change, Py.call, hint])
  unfold fetchOciImage
  rw [Eff.bind_of_error hmkdirs]

/-- **When a destination is judged and repaired without an exception**: exactly when everything the
checks read is readable, and a layout that passes the checks has objects as its documents. -/
theorem validateOciLayout_returns_and_refetches_iff (depth : ℕ) (fs : FileSystem) (item : OciImage)
    (directory : Path) :
    (∃ problems, validateOciLayout depth fs item (directory.join item.cachePath) = .ok problems) ∧
        Refetches depth fs item directory ↔
      LayoutReadable depth (fun r => fs.fileAt (directory.join item.cachePath ++ r)) ∧
        (fs.isDir (directory.join item.cachePath) = true →
          LayoutPasses depth (fun r => fs.fileAt (directory.join item.cachePath ++ r)) item →
          ObjectDocuments depth (fun r => fs.fileAt (directory.join item.cachePath ++ r)) item) := by
  rw [validateOciLayout_isOk_iff]
  refine and_congr_right fun hreadable => ⟨fun hrefetch hdir hpasses => ?_, fun hobjects => ?_⟩
  · rw [← hpasses.valid_iff]
    by_contra hvalid
    -- an environment that breaks off the second call tells returning from fetching
    let broken : Py.Interruption := ⟨⟨.osError, ""⟩, .empty, [], .empty⟩
    let env : Env :=
      { interrupt := fun n => if n = 0 then none else some broken
        token := fun _ => ⟨"", by simp⟩
        fetch := fun _ _ => []
        run := fun _ _ => (.notFound, .empty)
        depth := depth }
    have hinPlace : layoutInPlace depth fs item (directory.join item.cachePath) = .ok true := by
      rw [layoutInPlace, if_pos hdir, validateOciLayout_eq_nil_iff.2 hpasses]
      rfl
    have hreturns : populateOciImage env item directory ⟨fs, 0⟩ = (.ok (), ⟨fs, 1⟩) := by
      rw [populateOciImage_eq rfl, hinPlace]
    have hfetch : (fetchOciImage env item directory ⟨fs, 1⟩).1 = .error broken.exc :=
      fetchOciImage_of_interrupt (i := broken) rfl
    rw [hrefetch env ⟨fs, 0⟩ rfl rfl rfl hdir hvalid] at hreturns
    rw [hreturns] at hfetch
    cases hfetch
  · intro env w hdepth hfs hint hdir hvalid
    subst hdepth hfs
    obtain ⟨problems, hproblems⟩ : ∃ problems, validateOciLayout env.depth w.fs item
        (directory.join item.cachePath) = .ok problems := validateOciLayout_isOk_iff.2 hreadable
    have hne : problems ≠ [] := by
      rintro rfl
      have hpasses := validateOciLayout_eq_nil_iff.1 hproblems
      exact hvalid (hpasses.valid_iff.2 (hobjects hdir hpasses))
    have hinPlace : layoutInPlace env.depth w.fs item (directory.join item.cachePath) = .ok false := by
      rw [layoutInPlace, if_pos hdir, hproblems]
      simpa [Except.map] using hne
    rw [populateOciImage_eq hint, hinPlace]

/-- An environment in which no call is broken off, and no command is installed. -/
def calmEnv (fetch : String → List ByteArray) : Env where
  interrupt _ := none
  token _ := ⟨"x7f3", by decide⟩
  fetch _ := fetch
  run _ _ := (.notFound, .empty)
  depth := 900

/-- An image as the lock names it. -/
def managerItem : OciImage where
  id := "manager"
  cachePath := "oci/manager"
  reference := "manager@sha256:" ++ zeroDigest
  manifestDigest := "sha256:" ++ zeroDigest
  platform := "linux/amd64"

/-- A cache in which the layout marker of the image is a byte that is not UTF-8. -/
def undecodableCache : FileSystem :=
  .under ["oci", "manager"]
    ((FileSystem.single .dir).place ["oci-layout"] (.single (.file ⟨#[0xff]⟩)))

/-- The validation raises, and so does populating the image: it is not fetched again. -/
theorem undecodable_marker_raises :
    undecodableCache.isDir ["oci", "manager"] = true ∧
      (¬ ∃ problems, validateOciLayout 900 undecodableCache managerItem ["oci", "manager"] =
        .ok problems) ∧
      populateOciImage (calmEnv fun _ => []) managerItem [] ⟨undecodableCache, 0⟩ =
        (.error ⟨.unicodeDecodeError, "'utf-8' codec can't decode the bytes"⟩,
          ⟨undecodableCache, 1⟩) := by
  refine ⟨rfl, ?_, rfl⟩
  rintro ⟨problems, h⟩
  have herror : validateOciLayout 900 undecodableCache managerItem ["oci", "manager"] =
      .error ⟨.unicodeDecodeError, "'utf-8' codec can't decode the bytes"⟩ := rfl
  rw [h] at herror
  cases herror

/-! ### Metadata -/

theorem writeAndReplace_eq_ok {name : String} {bytes : ByteArray}
    (h : writeAndReplace env directory name bytes w = (.ok (), w')) :
    w'.fs.fileAt (directory ++ [name]) = some bytes ∧
      FileSystem.Keeps (fun q => q = directory ++ [temporaryName name] ∨ q = directory ++ [name])
        w.fs w'.fs := by
  have hne : directory ++ [temporaryName name] ≠ directory ++ [name] := by
    simpa using temporaryName_ne name
  exact Py.write_replace_eq_ok hne h

theorem writeJson_eq_ok {name : String} {data : Value}
    (h : writeJson env directory name data w = (.ok (), w')) :
    ∃ text, Py.Json.dumps .indented env.depth data = .ok text ∧
      w'.fs.fileAt (directory ++ [name]) = some (String.ofList (text ++ ['\n'])).toByteArray ∧
      FileSystem.Keeps (fun q => q = directory ++ [temporaryName name] ∨ q = directory ++ [name])
        w.fs w'.fs := by
  obtain ⟨text, htext, h⟩ := Eff.bind_lift_eq_ok h
  exact ⟨text, htext, writeAndReplace_eq_ok h⟩

/-- The paths that writing the metadata uses. -/
def IsMetadata (directory q : Path) : Prop :=
  ∃ name ∈ metadataNames, q = directory ++ [temporaryName name] ∨ q = directory ++ [name]

/-- One metadata file is not at the place of another, nor at its temporary one. -/
theorem metadata_ne {name other : String} (hname : name ∈ metadataNames)
    (hother : other ∈ metadataNames) (hne : name ≠ other) :
    ¬ (directory ++ [name] = directory ++ [temporaryName other] ∨
      directory ++ [name] = directory ++ [other]) := by
  have htemporary : ∀ a ∈ metadataNames, ∀ b ∈ metadataNames, a ≠ temporaryName b := by decide
  simp only [List.append_cancel_left_eq, List.cons.injEq, and_true, not_or]
  exact ⟨htemporary _ hname _ hother, hne⟩

/-- What the metadata files hold after they were written. -/
structure MetadataWritten (depth : ℕ) (fs : FileSystem) (lock : Items) (digest : String)
    (directory : Path) (artifacts : List Artifact) (images : List OciImage) : Prop where
  lock_json : ∃ bytes, canonicalJson depth lock = .ok bytes ∧
    fs.fileAt (directory ++ ["lock.json"]) = some bytes
  artifacts_json : ∃ text, Py.Json.dumps .indented depth (.list (artifacts.map Artifact.toValue)) =
    .ok text ∧ fs.fileAt (directory ++ ["artifacts.json"]) =
      some (String.ofList (text ++ ['\n'])).toByteArray
  images_json : ∃ text, Py.Json.dumps .indented depth (.list (images.map OciImage.toValue)) =
    .ok text ∧ fs.fileAt (directory ++ ["oci-images.json"]) =
      some (String.ofList (text ++ ['\n'])).toByteArray
  checksums : fs.fileAt (directory ++ ["checksums.txt"]) = some (checksumText artifacts).toByteArray
  complete : ∃ text, Py.Json.dumps .indented depth (completion digest artifacts.length images.length) =
    .ok text ∧ fs.fileAt (directory ++ ["complete.json"]) =
      some (String.ofList (text ++ ['\n'])).toByteArray

theorem writeMetadata_eq_ok {lock : Items} {root : Path}
    (h : writeMetadata urlparse env lock root w = (.ok directory, w')) :
    ∃ digest artifacts images, lockDigest env.depth lock = .ok digest ∧
      directory = root ++ ["locks", digest] ∧ inventory urlparse lock = .ok artifacts ∧
      ociInventory lock = .ok images ∧
      MetadataWritten env.depth w'.fs lock digest directory artifacts images ∧
      FileSystem.Keeps (IsMetadata directory) w.fs w'.fs := by
  obtain ⟨dir, hdir, h⟩ := Eff.bind_lift_eq_ok h
  obtain ⟨⟨⟩, w₁, hmkdirs, h⟩ := Eff.bind_eq_ok h
  obtain ⟨artifacts, hartifacts, h⟩ := Eff.bind_lift_eq_ok h
  obtain ⟨images, himages, h⟩ := Eff.bind_lift_eq_ok h
  obtain ⟨canonical, hcanonical, h⟩ := Eff.bind_lift_eq_ok h
  obtain ⟨⟨⟩, w₂, hlock, h⟩ := Eff.bind_eq_ok h
  obtain ⟨⟨⟩, w₃, hlist, h⟩ := Eff.bind_eq_ok h
  obtain ⟨⟨⟩, w₄, himageList, h⟩ := Eff.bind_eq_ok h
  obtain ⟨⟨⟩, w₅, hchecksums, h⟩ := Eff.bind_eq_ok h
  obtain ⟨digest, hdigest, h⟩ := Eff.bind_lift_eq_ok h
  obtain ⟨⟨⟩, w₆, hcomplete, h⟩ := Eff.bind_eq_ok h
  obtain ⟨rfl, rfl⟩ := Eff.pure_eq_ok h
  obtain ⟨hlockFile, k₁⟩ := writeAndReplace_eq_ok hlock
  obtain ⟨listText, hlistText, hlistFile, k₂⟩ := writeJson_eq_ok hlist
  obtain ⟨imageText, himageText, himageFile, k₃⟩ := writeJson_eq_ok himageList
  obtain ⟨hchecksumFile, k₄⟩ := writeAndReplace_eq_ok hchecksums
  obtain ⟨completeText, hcompleteText, hcompleteFile, k₅⟩ := writeJson_eq_ok hcomplete
  -- no two of the files and no file and temporary name of another are one path
  have hne : ∀ {name other : String}, name ∈ metadataNames ∧ other ∈ metadataNames ∧ name ≠ other →
      ¬ (dir ++ [name] = dir ++ [temporaryName other] ∨ dir ++ [name] = dir ++ [other]) :=
    fun h => metadata_ne h.1 h.2.1 h.2.2
  obtain ⟨digest', hdigest', rfl⟩ := Py.map_eq_ok.1 hdir
  obtain rfl : digest' = digest := Except.ok.inj (hdigest'.symm.trans hdigest)
  refine ⟨digest', artifacts, images, hdigest, rfl, hartifacts, himages, ⟨?_, ?_, ?_, ?_, ?_⟩, ?_⟩
  · refine ⟨canonical, hcanonical, ?_⟩
    exact k₅ _ _ (k₄ _ _ (k₃ _ _ (k₂ _ _ hlockFile (hne (by decide))) (hne (by decide)))
      (hne (by decide))) (hne (by decide))
  · refine ⟨listText, hlistText, ?_⟩
    exact k₅ _ _ (k₄ _ _ (k₃ _ _ hlistFile (hne (by decide))) (hne (by decide))) (hne (by decide))
  · exact ⟨imageText, himageText, k₅ _ _ (k₄ _ _ himageFile (hne (by decide))) (hne (by decide))⟩
  · exact k₅ _ _ hchecksumFile (hne (by decide))
  · exact ⟨completeText, hcompleteText, hcompleteFile⟩
  · intro q b hq hother
    have hout : ∀ name ∈ metadataNames, ¬ (q = root ++ ["locks", digest'] ++ [temporaryName name] ∨
        q = root ++ ["locks", digest'] ++ [name]) := fun name hname heq => hother ⟨name, hname, heq⟩
    refine k₅ q b (k₄ q b (k₃ q b (k₂ q b (k₁ q b ?_ ?_) ?_) ?_) ?_) ?_
    · rw [Py.fileAt_of_mkdirs hmkdirs, hq]
    all_goals exact hout _ (by decide)

end Artifacts
