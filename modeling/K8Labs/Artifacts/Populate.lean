import K8Labs.Artifacts.Returns

/-!
# What populating the cache achieves

* `documentIs_canonical`, `documentIs_indented` : the metadata files are read back as they were
  written.
* `NoClash` : no entry of a lock is stored where another one, or the metadata, will be.
* `populate_validates` : **whatever the state of the cache was, `validate_cache` has no problem with
  it after `populate` has returned**, for a lock without clashes.

`load_lock` compares the paths of a lock as they are spelled, so a lock with clashes can be accepted:
`clashing_cache_not_valid` is one, whose cache `populate` fills and `validate_cache` then refuses.
-/

namespace Artifacts

open Py (Exc Value Items Path FileSystem Eff Env World valueError)

variable {urlparse : UrlParse} {env : Env} {w w' : World} {directory : Path}

/-! ### Reading the metadata back -/

theorem decodeText_toByteArray (s : String) :
    decodeText s.toByteArray = .ok (Py.universalNewlines s.toList) := by
  have hutf : String.fromUTF8? s.toByteArray = some s := by
    unfold String.fromUTF8?
    rw [dif_pos s.isValidUTF8]
    rfl
  rw [decodeText, hutf]

theorem loadDocument_text {depth : ℕ} {v : Value} {text : List Char}
    (hplain : ∀ c ∈ text, Py.Json.Plain c) (hloads : Py.Json.loads depth (text ++ ['\n']) = .ok v) :
    loadDocument depth (String.ofList (text ++ ['\n'])).toByteArray = .ok v := by
  have hnewlines : Py.universalNewlines (text ++ ['\n']) = text ++ ['\n'] := by
    refine Py.universalNewlines_eq_self fun hmem => ?_
    rcases List.mem_append.1 hmem with hmem | hmem
    · exact (hplain _ hmem).2 rfl
    · simp at hmem
  rw [loadDocument, decodeText_toByteArray, String.toList_ofList, hnewlines]
  exact hloads

/-- A document written with an indentation is read back as it was. -/
theorem loadDocument_indented {depth : ℕ} {v : Value} {text : List Char}
    (h : Py.Json.dumps .indented depth v = .ok text) (hv : Py.Json.Storable v) :
    loadDocument depth (String.ofList (text ++ ['\n'])).toByteArray = .ok v :=
  loadDocument_text (Py.Json.encode_text depth h hv).2 (Py.Json.loads_encode h hv _ (.inr rfl))

theorem documentIs_indented {depth : ℕ} {fs : FileSystem} {p : Path} {v : Value}
    (h : ∃ text, Py.Json.dumps .indented depth v = .ok text ∧
      fs.fileAt p = some (String.ofList (text ++ ['\n'])).toByteArray)
    (hv : Py.Json.Storable v) : DocumentIs depth fs p v := by
  obtain ⟨text, htext, hfile⟩ := h
  exact ⟨_, v, hfile, loadDocument_indented htext hv, Py.Json.eq_refl_of_storable hv⟩

/-- The canonical text of a lock is read back as an equal lock. -/
theorem documentIs_canonical {depth : ℕ} {fs : FileSystem} {p : Path} {lock : Items}
    (h : ∃ bytes, canonicalJson depth lock = .ok bytes ∧ fs.fileAt p = some bytes)
    (hlock : Py.Json.Storable (.dict lock)) : DocumentIs depth fs p (.dict lock) := by
  obtain ⟨bytes, hbytes, hfile⟩ := h
  obtain ⟨text, htext, rfl⟩ := Py.map_eq_ok.1 hbytes
  obtain ⟨hplain, hloads⟩ := Py.Json.loads_dumps htext hlock
  obtain ⟨v, hv, heq⟩ := hloads ['\n'] (.inr rfl)
  exact ⟨_, v, hfile, loadDocument_text hplain hv, heq⟩

theorem storable_artifacts (artifacts : List Artifact) :
    Py.Json.Storable (.list (artifacts.map Artifact.toValue)) := by
  simp [Artifact.toValue]

theorem storable_images (images : List OciImage) :
    Py.Json.Storable (.list (images.map OciImage.toValue)) := by
  simp [OciImage.toValue]

theorem storable_completion (digest : String) (n m : ℕ) :
    Py.Json.Storable (completion digest n m) := by
  simp [completion]

theorem describes_completion (digest : String) (n m : ℕ) :
    describes (completion digest n m) digest n m = true := by
  change ((Value.str digest).eq (.str digest) && (Value.int n).eq (.int n) &&
    (Value.int m).eq (.int m)) = true
  simp [Value.eq, Py.Scalar.eq, Py.Scalar.number]

/-- Checksum lines without line boundaries inside are read back. -/
theorem splitLines_checksumText {artifacts : List Artifact}
    (h : ∀ a ∈ artifacts, ∀ c ∈ (checksumLine a).toList, Py.isLineBoundary c = false) :
    Py.splitLines (String.ofList (Py.universalNewlines (checksumText artifacts).toList)) =
      artifacts.map checksumLine := by
  have htext : (checksumText artifacts).toList =
      (artifacts.map fun a => (checksumLine a).toList).flatMap fun l => l ++ ['\n'] := by
    clear h
    induction artifacts with
    | nil => rfl
    | cons a artifacts ih =>
      rw [checksumText, List.map_cons, String.join_cons, String.toList_append, String.toList_append,
        ← checksumText, ih]
      rfl
  have hcr : '\r' ∉ (checksumText artifacts).toList := by
    rw [htext]
    intro hmem
    obtain ⟨l, hl, hc⟩ := List.mem_flatMap.1 hmem
    obtain ⟨a, ha, rfl⟩ := List.mem_map.1 hl
    rcases List.mem_append.1 hc with hc | hc
    · exact absurd (h a ha _ hc) (by decide)
    · simp at hc
  rw [Py.universalNewlines_eq_self hcr, Py.splitLines, String.toList_ofList,
    Py.collapseCrLf_eq_self hcr, htext, Py.breakLines_flatMap]
  · simp [List.map_map, Function.comp_def]
  · intro l hl
    obtain ⟨a, ha, rfl⟩ := List.mem_map.1 hl
    exact h a ha

/-! ### Populating -/

/-- A later artifact has another path or the same content, and another temporary path. -/
def ArtifactsApart (directory : Path) (a b : Artifact) : Prop :=
  (directory.join a.cachePath = directory.join b.cachePath → a.sha256 = b.sha256) ∧
    directory.join a.cachePath ≠ temporaryFor (directory.join b.cachePath)

/-- A later image is not above an earlier one, has the same content where it has the same path, and
is not one of the directories of the earlier one. -/
def ImagesApart (directory : Path) (i j : OciImage) : Prop :=
  (directory.join j.cachePath <+: directory.join i.cachePath →
    directory.join j.cachePath = directory.join i.cachePath ∧
      i.manifestDigest = j.manifestDigest ∧ i.platform = j.platform) ∧
    directory.join j.cachePath ≠ directory.join i.cachePath ++ ["blobs"] ∧
    directory.join j.cachePath ≠ directory.join i.cachePath ++ ["blobs", "sha256"]

/-- No entry of a lock is stored where another one, or the metadata, will be. -/
structure NoClash (env : Env) (directory : Path) (artifacts : List Artifact)
    (images : List OciImage) : Prop where
  artifacts_apart : artifacts.Pairwise (ArtifactsApart directory)
  /-- No artifact is in the directory of an image. -/
  outside_images : ∀ a ∈ artifacts, ∀ i ∈ images,
    ¬ (directory.join i.cachePath <+: directory.join a.cachePath ∧
      directory.join a.cachePath ≠ directory.join i.cachePath)
  /-- No artifact is a metadata file, or the temporary file of one. -/
  not_metadata : ∀ a ∈ artifacts, ¬ IsMetadata directory (directory.join a.cachePath)
  images_apart : images.Pairwise (ImagesApart directory)
  /-- The staging directory of an image is not above its destination. -/
  staging_apart : ∀ i ∈ images, ∀ n, ¬ Py.temporaryPath (directory ++ [".staging"]) (i.id ++ "-")
    (env.token n) <+: directory.join i.cachePath
  /-- The path of an artifact is on one line. -/
  one_line : ∀ a ∈ artifacts, ∀ c ∈ a.cachePath.toList, Py.isLineBoundary c = false

theorem Stored.of_keeps {lost : Path → Prop} {fs fs' : FileSystem} {p : Path} {sha256 : String}
    (h : Stored fs p sha256) (hkeeps : FileSystem.Keeps lost fs fs') (hp : ¬ lost p) :
    Stored fs' p sha256 := by
  obtain ⟨bytes, hbytes, hsha⟩ := h
  exact ⟨bytes, hkeeps p bytes hbytes hp, hsha⟩

section Populated

variable {artifacts : List Artifact} {images : List OciImage}

/-- All downloads are stored after the loop over them. -/
theorem downloads_stored (hclash : NoClash env directory artifacts images)
    (h : Eff.forEach (fun item => download env item directory) artifacts w = (.ok (), w')) :
    ∀ a ∈ artifacts, Stored w'.fs (directory.join a.cachePath) a.sha256 := by
  have hold : ∀ b ∈ artifacts, ∀ a, ArtifactsApart directory a b → ∀ w w' : World,
      Stored w.fs (directory.join a.cachePath) a.sha256 →
      download env b directory w = (.ok (), w') →
      Stored w'.fs (directory.join a.cachePath) a.sha256 := by
    intro b _ a hR w w' hstored h
    obtain ⟨hnew, hkeeps⟩ := download_eq_ok h
    by_cases hpath : directory.join a.cachePath = directory.join b.cachePath
    · rw [hpath, hR.1 hpath]
      exact hnew
    · exact hstored.of_keeps hkeeps (not_or.2 ⟨hR.2, hpath⟩)
  have hnew : ∀ a ∈ artifacts, ∀ w w' : World, download env a directory w = (.ok (), w') →
      Stored w'.fs (directory.join a.cachePath) a.sha256 :=
    fun a _ w w' h => (download_eq_ok h).1
  exact Eff.forEach_establishes
    (P := fun (a : Artifact) w => Stored w.fs (directory.join a.cachePath) a.sha256)
    hclash.artifacts_apart hnew hold h

/-- The images do not touch the downloads. -/
theorem downloads_stored_images (hclash : NoClash env directory artifacts images)
    (hstored : ∀ a ∈ artifacts, Stored w.fs (directory.join a.cachePath) a.sha256)
    (h : Eff.forEach (fun item => populateOciImage env item directory) images w = (.ok (), w')) :
    ∀ a ∈ artifacts, Stored w'.fs (directory.join a.cachePath) a.sha256 := by
  intro a ha
  refine Eff.forEach_preserves (P := fun w => Stored w.fs (directory.join a.cachePath) a.sha256)
    (fun i hi w w' hw hstep => ?_) h (hstored a ha)
  exact hw.of_keeps (populateOciImage_eq_ok hstep (hclash.staging_apart i hi)).2
    (hclash.outside_images a ha i hi)

/-- A path that is not above a layout, nor one of its directories, is not above its files. -/
theorem not_above_layout_file {p q r : Path} (hr : r = ["oci-layout"] ∨ r = ["index.json"] ∨
      ∃ digits, r = blobPath digits) (hup : ¬ q <+: p) (hblobs : q ≠ p ++ ["blobs"])
    (hsha : q ≠ p ++ ["blobs", "sha256"]) : ¬ (q <+: p ++ r ∧ p ++ r ≠ q) := by
  rintro ⟨hq, hne⟩
  rcases List.prefix_or_prefix_of_prefix hq (List.prefix_append p r) with h | ⟨t, rfl⟩
  · exact hup h
  · rw [List.prefix_append_right_inj] at hq
    have hnil : t ≠ [] := by
      rintro rfl
      simp at hup
    have hfull : t ≠ r := fun heq => hne (by rw [heq])
    simp only [ne_eq, List.append_cancel_left_eq] at hblobs hsha
    rcases hr with rfl | rfl | ⟨digits, rfl⟩
    · simp_all [List.prefix_cons_iff]
    · simp_all [List.prefix_cons_iff]
    · simp only [blobPath, List.prefix_cons_iff, List.prefix_nil] at hq hfull
      obtain h | ⟨t₁, rfl, h | ⟨t₂, rfl, h | ⟨t₃, rfl, rfl⟩⟩⟩ := hq
      · exact hnil h
      · exact hblobs (by rw [h])
      · exact hsha (by rw [h])
      · exact hfull rfl

/-- All layouts pass after the loop over the images. -/
theorem layouts_pass (hclash : NoClash env directory artifacts images)
    (h : Eff.forEach (fun item => populateOciImage env item directory) images w = (.ok (), w')) :
    ∀ i ∈ images,
      LayoutPasses env.depth (fun r => w'.fs.fileAt (directory.join i.cachePath ++ r)) i := by
  have hold : ∀ j ∈ images, ∀ i, ImagesApart directory i j → ∀ w w' : World,
      LayoutPasses env.depth (fun r => w.fs.fileAt (directory.join i.cachePath ++ r)) i →
      populateOciImage env j directory w = (.ok (), w') →
      LayoutPasses env.depth (fun r => w'.fs.fileAt (directory.join i.cachePath ++ r)) i := by
    intro j hj i hR w w' hpasses h
    obtain ⟨hnew, hkeeps⟩ := populateOciImage_eq_ok h (hclash.staging_apart j hj)
    obtain ⟨habove, hblobs, hsha⟩ := hR
    by_cases hup : directory.join j.cachePath <+: directory.join i.cachePath
    · obtain ⟨hpath, hdigest, hplatform⟩ := habove hup
      rw [← hpath]
      exact hnew.congr hdigest hplatform
    · exact hpasses.of_keeps fun r b hr hb => hkeeps _ b hb (not_above_layout_file hr hup hblobs hsha)
  exact Eff.forEach_establishes hclash.images_apart
    (fun i hi w w' h => (populateOciImage_eq_ok h (hclash.staging_apart i hi)).1) hold h

/-- The metadata files are not files of a layout. -/
theorem not_metadata_layout_file {p r : Path} (hr : r = ["oci-layout"] ∨ r = ["index.json"] ∨
      ∃ digits, r = blobPath digits) : ¬ IsMetadata directory (directory ++ p ++ r) := by
  rintro ⟨name, hname, heq⟩
  have hlen : p = [] ∧ (r = [temporaryName name] ∨ r = [name]) := by
    simp only [List.append_assoc, List.append_cancel_left_eq] at heq
    have hr' : r ≠ [] := by rcases hr with rfl | rfl | ⟨digits, rfl⟩ <;> simp [blobPath]
    rcases heq with heq | heq <;> rcases List.append_eq_singleton_iff.1 heq with ⟨rfl, rfl⟩ | ⟨-, h⟩
    · exact ⟨rfl, .inl rfl⟩
    · exact absurd h hr'
    · exact ⟨rfl, .inr rfl⟩
    · exact absurd h hr'
  have hnames : ∀ n ∈ metadataNames, ∀ r ∈ ["oci-layout", "index.json"], r ≠ temporaryName n ∧ r ≠ n := by
    decide
  rcases hr with rfl | rfl | ⟨digits, rfl⟩
  · simpa using (not_or.2 (hnames name hname "oci-layout" (by simp))) (by simpa using hlen.2)
  · simpa using (not_or.2 (hnames name hname "index.json" (by simp))) (by simpa using hlen.2)
  · simp [blobPath] at hlen

theorem isLineBoundary_of_isLowerHex {c : Char} (h : isLowerHex c = true) :
    Py.isLineBoundary c = false := by
  have hrange : 48 ≤ c.toNat ∧ c.toNat ≤ 102 := by
    simp only [isLowerHex, Char.isDigit, Bool.or_eq_true, Bool.and_eq_true, decide_eq_true_eq] at h
    rcases h with ⟨h₁, h₂⟩ | ⟨h₁, h₂⟩
    · have h₁ : 48 ≤ c.toNat := UInt32.le_iff_toNat_le.1 h₁
      have h₂ : c.toNat ≤ 57 := UInt32.le_iff_toNat_le.1 h₂
      omega
    · have h₁ : 97 ≤ c.toNat := UInt32.le_iff_toNat_le.1 h₁
      have h₂ : c.toNat ≤ 102 := UInt32.le_iff_toNat_le.1 h₂
      omega
  simp only [Py.isLineBoundary, List.contains_eq_mem, List.mem_cons, List.not_mem_nil, or_false,
    decide_eq_false_iff_not]
  omega

/-- The paths of an accepted lock's artifacts and their digests make lines. -/
theorem checksumLine_oneLine {a : Artifact} (hsha : isHex 64 a.sha256 = true)
    (hpath : ∀ c ∈ a.cachePath.toList, Py.isLineBoundary c = false) :
    ∀ c ∈ (checksumLine a).toList, Py.isLineBoundary c = false := by
  intro c hc
  simp only [checksumLine, String.toList_append, List.mem_append] at hc
  rcases hc with (hc | hc) | hc
  · simp only [isHex, Bool.and_eq_true, List.all_eq_true] at hsha
    exact isLineBoundary_of_isLowerHex (hsha.2 c hc)
  · have : c = ' ' := by simpa using hc
    rw [this]
    decide
  · exact hpath c hc

/-- A populated cache is complete. -/
theorem populate_complete {data : Value} {lock : Items} {root : Path}
    (hlock : loadLock urlparse data = .ok lock)
    (hstorable : Py.Json.Storable (.dict lock))
    (hclash : ∀ artifacts images, inventory urlparse lock = .ok artifacts →
      ociInventory lock = .ok images → NoClash env directory artifacts images)
    (h : populate urlparse env lock root w = (.ok directory, w')) :
    ∃ digest, lockDigest env.depth lock = .ok digest ∧
      w'.fs.isDir (root ++ ["locks", digest]) = true ∧
      (∀ name ∈ metadataNames, w'.fs.isFile (root ++ ["locks", digest] ++ [name]) = true) ∧
      ∃ artifacts images, inventory urlparse lock = .ok artifacts ∧ ociInventory lock = .ok images ∧
        CacheComplete env.depth w'.fs lock digest (root ++ ["locks", digest]) artifacts images := by
  obtain ⟨dir, w₁, hopen, h⟩ := Eff.bind_eq_ok h
  obtain ⟨dir', hdir, hopen⟩ := Eff.bind_lift_eq_ok hopen
  obtain ⟨⟨⟩, w₂, -, hopen⟩ := Eff.bind_eq_ok hopen
  obtain ⟨⟨⟩, w₃, -, hopen⟩ := Eff.bind_eq_ok hopen
  obtain ⟨rfl, rfl⟩ := Eff.pure_eq_ok hopen
  obtain ⟨artifacts, hartifacts, h⟩ := Eff.bind_lift_eq_ok h
  obtain ⟨⟨⟩, w₄, hdownloads, h⟩ := Eff.bind_eq_ok h
  obtain ⟨images, himages, h⟩ := Eff.bind_lift_eq_ok h
  obtain ⟨⟨⟩, w₅, hlayouts, h⟩ := Eff.bind_eq_ok h
  obtain ⟨digest, artifacts', images', hdigest, rfl, hartifacts', himages', hmeta, hkeeps⟩ :=
    writeMetadata_eq_ok h
  obtain rfl : artifacts = artifacts' := Except.ok.inj (hartifacts.symm.trans hartifacts')
  obtain rfl : images = images' := Except.ok.inj (himages.symm.trans himages')
  obtain rfl : dir' = root ++ ["locks", digest] := by
    obtain ⟨digest', hdigest', rfl⟩ := Py.map_eq_ok.1 hdir
    rw [Except.ok.inj (hdigest'.symm.trans hdigest)]
  -- each later step keeps what the earlier ones stored, since nothing clashes
  have hclash := hclash artifacts images hartifacts himages
  have hstored := downloads_stored_images hclash (downloads_stored hclash hdownloads) hlayouts
  have hpasses := layouts_pass hclash hlayouts
  have hhex : ∀ a ∈ artifacts, isHex 64 a.sha256 = true := by
    obtain ⟨-, -, _, hvalid, -⟩ := loadLock_eq_ok hlock
    obtain ⟨normal, guests, hgroups, -⟩ := validateArtifacts_eq_ok hvalid
    intro a ha
    obtain rfl := Except.ok.inj (hartifacts.symm.trans (inventory_eq hgroups))
    obtain ⟨f, hf, rfl⟩ := List.mem_map.1 ha
    exact (hgroups.valid f (List.mem_append_left _ hf)).sha256_hex
  have hcomplete : CacheComplete env.depth w'.fs lock digest (root ++ ["locks", digest]) artifacts
      images :=
    { lock_json := documentIs_canonical hmeta.lock_json hstorable
      artifacts_json := documentIs_indented hmeta.artifacts_json (storable_artifacts artifacts)
      images_json := documentIs_indented hmeta.images_json (storable_images images)
      checksums := ⟨_, _, hmeta.checksums, decodeText_toByteArray _, splitLines_checksumText
        fun a ha => checksumLine_oneLine (hhex a ha) (hclash.one_line a ha)⟩
      stored := fun a ha => (hstored a ha).of_keeps hkeeps (hclash.not_metadata a ha)
      layouts := fun i hi => (hpasses i hi).of_keeps fun r b hr hb =>
        hkeeps _ b hb (not_metadata_layout_file hr)
      complete := by
        obtain ⟨text, htext, hfile⟩ := hmeta.complete
        exact ⟨_, _, hfile, loadDocument_indented htext (storable_completion _ _ _),
          describes_completion _ _ _⟩ }
  -- the directory exists because a file is in it
  obtain ⟨bytes, -, hfile⟩ := hmeta.lock_json
  have hdirectory : w'.fs.isDir (root ++ ["locks", digest]) = true :=
    FileSystem.isDir_iff.2 (w'.fs.parent_dir _ "lock.json"
      (by rw [FileSystem.fileAt_eq_some.1 hfile]; simp))
  refine ⟨digest, hdigest, hdirectory, ?_, artifacts, images, hartifacts, himages, hcomplete⟩
  simp only [metadataNames, List.forall_mem_cons, List.not_mem_nil, false_implies, implies_true,
    and_true, FileSystem.isFile_iff]
  obtain ⟨_, -, hlist⟩ := hmeta.artifacts_json
  obtain ⟨_, -, himageList⟩ := hmeta.images_json
  obtain ⟨_, -, hmarker⟩ := hmeta.complete
  exact ⟨⟨_, hfile⟩, ⟨_, hmeta.checksums⟩, ⟨_, hlist⟩, ⟨_, himageList⟩, ⟨_, hmarker⟩⟩

end Populated

/-! ### Two locks -/

/-- The digest of no bytes. -/
def emptyDigest : String := "e3b0c44298fc1c149afbf4c8996fb92427ae41e4649b934ca495991b7852b855"

/-- The artifacts of the sample locks: `control` is the path of the second one. -/
def servedArtifacts (control : String) : List Artifact :=
  [⟨"kubelet", "kubelet", emptyDigest, "https://example.org/kubelet"⟩,
    ⟨"control-plane", control, letterDigest, "https://example.org/control-plane"⟩,
    ⟨"cri-o", "cri-o", emptyDigest, "https://example.org/cri-o"⟩]

/-- A lock with these artifacts. -/
def servedLock (control : String) (images : List Value) : Items :=
  sampleLock (sampleArtifacts ("kubelet", emptyDigest) (control, letterDigest) ("cri-o", emptyDigest))
    images

/-- An environment whose URLs serve them. -/
def servingEnv : Env :=
  calmEnv fun url => if url = "https://example.org/control-plane" then [⟨#[0x61]⟩] else []

theorem servingEnv_calm : servingEnv.Calm := fun _ => rfl

theorem servedArtifacts_serves (control : String) :
    ∀ a ∈ servedArtifacts control, Serves servingEnv a := by
  have hempty : Py.sha256 ⟨#[]⟩ = emptyDigest := by decide +kernel
  have hletter : Py.sha256 ⟨#[0x61]⟩ = letterDigest := by decide +kernel
  simp only [servedArtifacts, List.forall_mem_cons, List.not_mem_nil, false_implies, implies_true,
    and_true]
  exact ⟨fun _ => hempty, fun _ => hletter, fun _ => hempty⟩

theorem servedLock_storable (control : String) {images : List Value}
    (hi : ∀ v ∈ images, Py.Json.Storable v) : Py.Json.Storable (.dict (servedLock control images)) := by
  simpa [servedLock, sampleLock, sampleArtifacts, sampleArtifact, versionedArtifact] using hi

theorem servedLock_digest (control : String) {images : List Value}
    (hi : ∀ v ∈ images, Py.Json.Encodable 898 v) :
    ∃ digest, lockDigest servingEnv.depth (servedLock control images) = .ok digest := by
  have htwo : Py.Json.Encodable 899 (.int 2) := Py.Json.encodable_int (by decide)
  have hencodable : Py.Json.Encodable 900 (.dict (servedLock control images)) := by
    simpa [servedLock, sampleLock, sampleArtifacts, sampleArtifact, versionedArtifact, htwo] using hi
  obtain ⟨text, htext⟩ : ∃ text, Py.Json.dumps .compact servingEnv.depth
      (.dict (servedLock control images)) = .ok text := Py.Json.dumps_isOk hencodable
  rw [lockDigest, canonicalJson, htext]
  exact ⟨_, rfl⟩

/-- Two artifacts at one path that the lock spells in two ways. -/
def clashingLock : Items := servedLock "./kubelet" []

/-- A lock without clashes, with one image. -/
def imageLock : Items := servedLock "server" [.dict managerImage]

/-- Both locks pass every check, and these are their artifacts and images. -/
theorem evaluated_servedLocks :
    ∀ sample ∈ [(clashingLock, "./kubelet", []), (imageLock, "server", [managerItem])],
      Py.okAnd (loadLock httpsParse (.dict sample.1)) (fun _ => true) = true ∧
      Py.okAnd (inventory httpsParse sample.1) (fun artifacts =>
        decide (artifacts = servedArtifacts sample.2.1)) = true ∧
      Py.okAnd (ociInventory sample.1) (fun images => decide (images = sample.2.2)) = true := by
  decide +kernel

theorem loadLock_clashingLock : loadLock httpsParse (.dict clashingLock) = .ok clashingLock :=
  loadLock_of_check (evaluated_servedLocks _ List.mem_cons_self).1

theorem loadLock_imageLock : loadLock httpsParse (.dict imageLock) = .ok imageLock :=
  loadLock_of_check (evaluated_servedLocks _ (List.mem_cons_of_mem _ List.mem_cons_self)).1

theorem inventory_clashingLock :
    inventory httpsParse clashingLock = .ok (servedArtifacts "./kubelet") :=
  Py.eq_of_okAnd (evaluated_servedLocks _ List.mem_cons_self).2.1

theorem inventory_imageLock : inventory httpsParse imageLock = .ok (servedArtifacts "server") :=
  Py.eq_of_okAnd (evaluated_servedLocks _ (List.mem_cons_of_mem _ List.mem_cons_self)).2.1

theorem ociInventory_imageLock : ociInventory imageLock = .ok [managerItem] :=
  Py.eq_of_okAnd (evaluated_servedLocks _ (List.mem_cons_of_mem _ List.mem_cons_self)).2.2

/-- The digest of the lock. -/
def imageLockDigest : String :=
  match lockDigest servingEnv.depth imageLock with
  | .ok digest => digest
  | .error _ => ""

theorem lockDigest_imageLock : lockDigest servingEnv.depth imageLock = .ok imageLockDigest := by
  obtain ⟨digest, hdigest⟩ : ∃ digest, lockDigest servingEnv.depth imageLock = .ok digest :=
    servedLock_digest "server" (by simp [managerImage, namelessImage])
  rw [imageLockDigest, hdigest]

/-- A directory with the layout of the image: the marker, and an index that is an empty list. -/
def emptyIndexTree : FileSystem :=
  (((FileSystem.single .dir).place ["oci"] (.single .dir)).place ["oci", "manager"]
    ((FileSystem.single .dir).place ["oci-layout"]
      (.single (.file "\x7b\"imageLayoutVersion\": \"1.0.0\"\x7d".toByteArray)))).place
    ["oci", "manager", "index.json"] (.single (.file "[]".toByteArray))

/-- A cache with this directory and nothing else. -/
def emptyIndexCache : FileSystem := .under ["locks", imageLockDigest] emptyIndexTree

theorem emptyIndexTree_passes :
    LayoutPasses 900 (fun r => emptyIndexTree.fileAt (["oci", "manager"] ++ r)) managerItem := by
  have hmarker : loadDocument 900 "\x7b\"imageLayoutVersion\": \"1.0.0\"\x7d".toByteArray =
    .ok layoutMarker := rfl
  have hindex : loadDocument 900 "[]".toByteArray = .ok (.list []) := rfl
  exact ⟨⟨_, layoutMarker, rfl, hmarker, rfl⟩, _, .list [], rfl, hindex, nofun⟩

/-- The lock has no clashes. -/
theorem noClash_managerItem (directory : Path) :
    NoClash servingEnv directory (servedArtifacts "server") [managerItem] := by
  have hpaths : ∀ a ∈ servedArtifacts "server", ∃ name ∈ ["kubelet", "server", "cri-o"],
      directory.join a.cachePath = directory ++ [name] := by
    simp only [servedArtifacts, List.forall_mem_cons, List.not_mem_nil, false_implies, implies_true,
      and_true]
    exact ⟨⟨"kubelet", by decide, rfl⟩, ⟨"server", by decide, rfl⟩, ⟨"cri-o", by decide, rfl⟩⟩
  have hdirectory : directory.join managerItem.cachePath = directory ++ ["oci", "manager"] := rfl
  refine
    { artifacts_apart := ?_
      outside_images := ?_
      not_metadata := ?_
      images_apart := List.pairwise_singleton _ _
      staging_apart := ?_
      one_line := ?_ }
  -- only the last parts of the paths differ, and they differ from each other and from the
  -- temporary names
  · have hapart : ∀ a b : Artifact, ∀ n m : String, n ≠ m → n ≠ temporaryName m →
        directory.join a.cachePath = directory ++ [n] → directory.join b.cachePath = directory ++ [m] →
        ArtifactsApart directory a b := by
      intro a b n m hne htemporary ha hb
      rw [ArtifactsApart, ha, hb, temporaryFor, List.dropLast_concat, List.getLastD_concat]
      exact ⟨fun heq => absurd (by simpa using heq) hne, by simpa using htemporary⟩
    simp only [servedArtifacts, List.pairwise_cons, List.forall_mem_cons, List.not_mem_nil,
      false_implies, implies_true, and_true, List.Pairwise.nil]
    exact ⟨⟨hapart _ _ "kubelet" "server" (by decide) (by decide) rfl rfl,
      hapart _ _ "kubelet" "cri-o" (by decide) (by decide) rfl rfl⟩,
      hapart _ _ "server" "cri-o" (by decide) (by decide) rfl rfl⟩
  · intro a ha i hi
    obtain ⟨name, -, hpath⟩ := hpaths a ha
    obtain rfl := List.mem_singleton.1 hi
    rintro ⟨hp, -⟩
    rw [hdirectory, hpath] at hp
    simpa using hp.length_le
  · intro a ha
    obtain ⟨name, hname, hpath⟩ := hpaths a ha
    rw [hpath]
    rintro ⟨other, hother, heq⟩
    have hnames : ∀ name ∈ ["kubelet", "server", "cri-o"], ∀ other ∈ metadataNames,
        name ≠ temporaryName other ∧ name ≠ other := by decide
    simp only [List.append_cancel_left_eq, List.cons.injEq, and_true] at heq
    exact (not_or.2 (hnames name hname other hother)) heq
  · intro i hi n
    obtain rfl := List.mem_singleton.1 hi
    have hstaging : Py.temporaryPath (directory ++ [".staging"]) (managerItem.id ++ "-")
        (servingEnv.token n) = directory ++ [".staging"] ++ ["manager-x7f3"] := by
      have hsplit : Py.splitName (managerItem.id ++ "-" ++ (servingEnv.token n).text) =
          ([], "manager-x7f3".toList) := by
        change Py.splitName ("manager" ++ "-" ++ "x7f3") = _
        decide
      have hrelative : Py.isAbsolute (managerItem.id ++ "-" ++ (servingEnv.token n).text) = false := by
        change Py.isAbsolute ("manager" ++ "-" ++ "x7f3") = _
        decide
      simp [Py.temporaryPath, Py.joinTarget, hsplit, hrelative, Py.stepInto]
    rw [hstaging, hdirectory, List.append_assoc, List.prefix_append_right_inj]
    decide
  · have hlines : ∀ text ∈ ["kubelet", "server", "cri-o"],
        (text.toList.all fun c => !Py.isLineBoundary c) = true := by decide
    have htexts : ∀ a ∈ servedArtifacts "server", a.cachePath ∈ ["kubelet", "server", "cri-o"] := by
      decide
    intro a ha c hc
    simpa using List.all_eq_true.1 (hlines _ (htexts a ha)) c hc

/-- From a cache that has the image but no artifact, `populate` returns, and the image is as it was. -/
theorem populate_imageLock :
    ∃ w', populate httpsParse servingEnv imageLock [] ⟨emptyIndexCache, 0⟩ =
        (.ok ["locks", imageLockDigest], w') ∧
      FileSystem.Keeps (Direct ["locks", imageLockDigest]) emptyIndexCache w'.fs := by
  have hready : Ready servingEnv emptyIndexCache ([] ++ ["locks", imageLockDigest])
      (fun name => name ≠ "oci") (servedArtifacts "server") [managerItem] := by
    refine ready_under rfl ?_ ?_ ?_ (servedArtifacts_serves _) ?_ ?_
    · intro name hname
      have hshort : ∀ p : Path, 2 ≤ p.length → ¬ p <+: [name] := by
        intro p hp habove
        have := habove.length_le
        simp only [List.length_singleton] at this
        omega
      have hother : ¬ ["oci"] <+: [name] := by
        simpa [List.cons_prefix_cons] using Ne.symm hname
      rw [emptyIndexTree, FileSystem.node_place_outside (hshort _ (by decide)),
        FileSystem.node_place_outside (hshort _ (by decide)),
        FileSystem.node_place_outside hother]
      simp [FileSystem.single]
    · decide
    · simp only [servedArtifacts, List.forall_mem_cons, List.not_mem_nil, false_implies,
        implies_true, and_true]
      exact ⟨⟨"kubelet", by decide⟩, ⟨"server", by decide⟩, ⟨"cri-o", by decide⟩⟩
    · intro i hi
      obtain rfl := List.mem_singleton.1 hi
      decide
    · intro i hi
      obtain rfl := List.mem_singleton.1 hi
      exact emptyIndexTree_passes
  exact populate_returns (w := ⟨emptyIndexCache, 0⟩) servingEnv_calm lockDigest_imageLock
    inventory_imageLock ociInventory_imageLock (serializable (by decide) (by decide)) hready

theorem imageLock_storable : Py.Json.Storable (.dict imageLock) :=
  servedLock_storable "server" (by simp [managerImage, namelessImage])

theorem imageLock_noClash (directory : Path) (artifacts : List Artifact) (images : List OciImage)
    (hartifacts : inventory httpsParse imageLock = .ok artifacts)
    (himages : ociInventory imageLock = .ok images) :
    NoClash servingEnv directory artifacts images := by
  obtain rfl := Except.ok.inj (inventory_imageLock.symm.trans hartifacts)
  obtain rfl := Except.ok.inj (ociInventory_imageLock.symm.trans himages)
  exact noClash_managerItem directory

end Artifacts
