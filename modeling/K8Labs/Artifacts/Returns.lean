import K8Labs.Artifacts.Steps
import K8Labs.Python.Hoare
import K8Labs.Python.JsonRoundTrip

/-!
# When populating returns

A sufficient condition for `populate` to return: no call is broken off, every artifact is a file
directly in the cache directory whose URL serves the locked bytes, no directory is in the way of a
file, and the images are in place already (`Ready`, `populate_returns`).
-/

namespace Artifacts

open Py (Exc Value Items Path FileSystem Eff Env World Writable)

variable {urlparse : UrlParse} {env : Env} {w : World} {directory : Path} {free : String → Prop}

/-! ### Downloads -/

/-- What a download writes: the chunks up to an empty one. -/
def received : List ByteArray → ByteArray → ByteArray
  | [], done => done
  | chunk :: chunks, done =>
    if chunk.size = 0 then done else received chunks (done ++ chunk)

/-- The URL of the artifact serves bytes with the locked digest. -/
def Serves (env : Env) (a : Artifact) : Prop :=
  ∀ n, Py.sha256 (received (env.fetch n a.url) .empty) = a.sha256

theorem returns_copyChunks {name : String} (hcalm : env.Calm) (hname : free name)
    (chunks : List ByteArray) (done : ByteArray) (h : Writable w.fs directory free)
    (hfile : w.fs.fileAt (directory ++ [name]) = some done) :
    (copyChunks env (directory ++ [name]) chunks done).Returns w fun bytes w' =>
      bytes = received chunks done ∧ Writable w'.fs directory free ∧
        w'.fs.fileAt (directory ++ [name]) = some bytes := by
  induction chunks generalizing done w with
  | nil =>
    refine Eff.returns_bind_of_ok (Py.inspect_of_ok (hcalm _) rfl) ?_
    exact Eff.returns_pure ⟨rfl, h, hfile⟩
  | cons chunk chunks ih =>
    refine Eff.returns_bind_of_ok (Py.inspect_of_ok (hcalm _) rfl) ?_
    rw [received]
    split_ifs with hsize
    · exact Eff.returns_pure ⟨rfl, h, hfile⟩
    · refine (Writable.returns_writeFile (w := ⟨w.fs, w.clock + 1⟩) h hcalm hname
        (done ++ chunk)).bind fun _ w₂ hw₂ => ?_
      exact ih _ hw₂.1 hw₂.2

theorem returns_download {item : Artifact} {name : String} (hcalm : env.Calm)
    (hpath : Py.pathParts item.cachePath = [name]) (hname : free name)
    (htemporary : free (temporaryName name)) (hserves : Serves env item)
    (h : Writable w.fs directory free) :
    (download env item directory).Returns w fun _ w' => Writable w'.fs directory free := by
  have hjoin : directory.join item.cachePath = directory ++ [name] := by rw [Path.join, hpath]
  have htemp : temporaryFor (directory ++ [name]) = directory ++ [temporaryName name] := by
    simp [temporaryFor]
  unfold download
  simp only [hjoin, htemp, List.dropLast_concat]
  refine Eff.returns_bind_of_ok (Py.inspect_of_ok (hcalm _) rfl) ?_
  split_ifs
  · exact Eff.returns_pure h
  · refine (Writable.returns_mkdirs (w := ⟨w.fs, w.clock + 1⟩) h hcalm).bind fun _ w₂ hw₂ => ?_
    have hreceive : (receive env item.url (directory ++ [temporaryName name])).Returns w₂
        fun bytes w' => bytes = received (env.fetch w₂.clock item.url) .empty ∧
          Writable w'.fs directory free ∧
          w'.fs.fileAt (directory ++ [temporaryName name]) = some bytes := by
      have hopen : Py.urlopen env item.url w₂ =
          (.ok (env.fetch w₂.clock item.url), ⟨w₂.fs, w₂.clock + 1⟩) :=
        Py.call_of_ok (hcalm _) rfl
      refine Eff.returns_bind_of_ok hopen ?_
      refine (Writable.returns_writeFile (w := ⟨w₂.fs, w₂.clock + 1⟩) hw₂ hcalm htemporary
        .empty).bind fun _ w₄ hw₄ => ?_
      exact returns_copyChunks hcalm htemporary _ _ hw₄.1 hw₄.2
    refine hreceive.tryCatch.bind ?_
    rintro bytes w₃ ⟨hbytes, hw₃, hfile⟩
    rw [if_neg (by rw [hbytes, hserves]; simp)]
    exact hw₃.returns_osReplace hcalm hfile hname (temporaryName_ne name)

/-! ### Metadata -/

theorem returns_writeAndReplace {name : String} (hcalm : env.Calm) (hname : free name)
    (htemporary : free (temporaryName name)) (bytes : ByteArray) (h : Writable w.fs directory free) :
    (writeAndReplace env directory name bytes).Returns w fun _ w' =>
      Writable w'.fs directory free := by
  refine (h.returns_writeFile hcalm htemporary bytes).bind fun _ w₁ ⟨hw₁, hfile⟩ => ?_
  exact hw₁.returns_osReplace hcalm hfile hname (temporaryName_ne name)

theorem returns_writeJson {name : String} {data : Value} {text : List Char} (hcalm : env.Calm)
    (hname : free name) (htemporary : free (temporaryName name))
    (htext : Py.Json.dumps .indented env.depth data = .ok text)
    (h : Writable w.fs directory free) :
    (writeJson env directory name data).Returns w fun _ w' => Writable w'.fs directory free :=
  Eff.returns_bind_lift htext (returns_writeAndReplace hcalm hname htemporary _ h)

/-- The three documents of the metadata can be written as JSON. -/
structure Serializable (depth : ℕ) (digest : String) (artifacts : List Artifact)
    (images : List OciImage) : Prop where
  artifacts_json : ∃ text,
    Py.Json.dumps .indented depth (.list (artifacts.map Artifact.toValue)) = .ok text
  images_json : ∃ text, Py.Json.dumps .indented depth (.list (images.map OciImage.toValue)) = .ok text
  complete : ∃ text, Py.Json.dumps .indented depth
    (completion digest artifacts.length images.length) = .ok text

/-- They can, where two containers may nest and the counts have no more digits than allowed. -/
theorem serializable {depth : ℕ} {digest : String} {artifacts : List Artifact}
    {images : List OciImage} (hn : (Py.natDigits artifacts.length).length ≤ Py.maxIntDigits)
    (hm : (Py.natDigits images.length).length ≤ Py.maxIntDigits) :
    Serializable (depth + 2) digest artifacts images := by
  have hversion : (Py.natDigits ociLayoutVersion.natAbs).length ≤ Py.maxIntDigits := by decide
  refine ⟨Py.Json.dumps_isOk ?_, Py.Json.dumps_isOk ?_, Py.Json.dumps_isOk ?_⟩
  · simp [Artifact.toValue]
  · simp [OciImage.toValue]
  · simp [completion, Py.Json.encodable_int hversion, Py.Json.encodable_int (n := artifacts.length) hn,
      Py.Json.encodable_int (n := images.length) hm]

section Ready

variable {lock : Items} {root : Path} {digest : String} {artifacts : List Artifact}
  {images : List OciImage}

theorem returns_writeMetadata (hcalm : env.Calm) (hdigest : lockDigest env.depth lock = .ok digest)
    (hartifacts : inventory urlparse lock = .ok artifacts) (himages : ociInventory lock = .ok images)
    (htexts : Serializable env.depth digest artifacts images)
    (hfree : ∀ name ∈ metadataNames, free name ∧ free (temporaryName name))
    (h : Writable w.fs (root ++ ["locks", digest]) free) :
    (writeMetadata urlparse env lock root).Returns w fun directory _ =>
      directory = root ++ ["locks", digest] := by
  obtain ⟨bytes, hbytes, -⟩ := Py.map_eq_ok.1 hdigest
  obtain ⟨_, hlist⟩ := htexts.artifacts_json
  obtain ⟨_, himageList⟩ := htexts.images_json
  obtain ⟨_, hcomplete⟩ := htexts.complete
  have hdir : cacheDir env.depth lock root = .ok (root ++ ["locks", digest]) := by
    rw [cacheDir, hdigest]
    rfl
  unfold writeMetadata
  refine Eff.returns_bind_lift hdir ?_
  refine (h.returns_mkdirs hcalm).bind fun _ w₁ h₁ => ?_
  refine Eff.returns_bind_lift hartifacts (Eff.returns_bind_lift himages
    (Eff.returns_bind_lift hbytes ?_))
  obtain ⟨hname, htemporary⟩ := hfree "lock.json" (by decide)
  refine (returns_writeAndReplace hcalm hname htemporary _ h₁).bind fun _ w₂ h₂ => ?_
  obtain ⟨hname, htemporary⟩ := hfree "artifacts.json" (by decide)
  refine (returns_writeJson hcalm hname htemporary hlist h₂).bind fun _ w₃ h₃ => ?_
  obtain ⟨hname, htemporary⟩ := hfree "oci-images.json" (by decide)
  refine (returns_writeJson hcalm hname htemporary himageList h₃).bind fun _ w₄ h₄ => ?_
  obtain ⟨hname, htemporary⟩ := hfree "checksums.txt" (by decide)
  refine (returns_writeAndReplace hcalm hname htemporary _ h₄).bind fun _ w₅ h₅ => ?_
  refine Eff.returns_bind_lift hdigest ?_
  obtain ⟨hname, htemporary⟩ := hfree "complete.json" (by decide)
  refine (returns_writeJson hcalm hname htemporary hcomplete h₅).bind fun _ w₆ h₆ => ?_
  exact Eff.returns_pure rfl

/-! ### Populating -/

/-- The image is in its directory already, and passes the checks. -/
def InPlace (depth : ℕ) (fs : FileSystem) (directory : Path) (i : OciImage) : Prop :=
  LayoutPasses depth (fun r => fs.fileAt (directory.join i.cachePath ++ r)) i

/-- A file system from which a cache can be populated: no file is above the cache directory, no
directory is where a file will be, the URLs serve the artifacts, each of which is a file directly in
the cache directory, and the images are in place. -/
structure Ready (env : Env) (fs : FileSystem) (directory : Path) (free : String → Prop)
    (artifacts : List Artifact) (images : List OciImage) : Prop where
  root_dir : fs.isDir [] = true
  no_file : ∀ q, q <+: directory → fs.fileAt q = none
  not_dir : ∀ name, free name → fs.node (directory ++ [name]) ≠ some .dir
  metadata_free : ∀ name ∈ metadataNames, free name ∧ free (temporaryName name)
  artifacts_free : ∀ a ∈ artifacts,
    ∃ name, Py.pathParts a.cachePath = [name] ∧ free name ∧ free (temporaryName name)
  serves : ∀ a ∈ artifacts, Serves env a
  image_below : ∀ i ∈ images, Py.pathParts i.cachePath ≠ []
  in_place : ∀ i ∈ images, InPlace env.depth fs directory i

/-- A cache directory with nothing above it but directories. -/
theorem ready_under {tree : FileSystem} (htree : tree.isDir [] = true)
    (hnot : ∀ name, free name → tree.node [name] ≠ some .dir)
    (hmetadata : ∀ name ∈ metadataNames, free name ∧ free (temporaryName name))
    (hartifacts : ∀ a ∈ artifacts,
      ∃ name, Py.pathParts a.cachePath = [name] ∧ free name ∧ free (temporaryName name))
    (hserves : ∀ a ∈ artifacts, Serves env a)
    (hbelow : ∀ i ∈ images, Py.pathParts i.cachePath ≠ [])
    (himages : ∀ i ∈ images,
      LayoutPasses env.depth (fun r => tree.fileAt (Py.pathParts i.cachePath ++ r)) i) :
    Ready env (.under directory tree) directory free artifacts images where
  root_dir := FileSystem.isDir_under htree List.nil_prefix
  no_file q hq := FileSystem.fileAt_eq_none_of_isDir (FileSystem.isDir_under htree hq)
  not_dir name hname := by
    rw [FileSystem.node_under_append]
    exact hnot name hname
  metadata_free := hmetadata
  artifacts_free := hartifacts
  serves := hserves
  image_below := hbelow
  in_place i hi := by
    refine (himages i hi).of_keeps fun r b _ hb => ?_
    rw [Path.join, List.append_assoc, FileSystem.fileAt_congr (FileSystem.node_under_append _ _ _)]
    exact hb

/-- A file of a layout is not directly in the cache directory. -/
theorem layout_file_ne {i : OciImage} {r : Path} {name : String}
    (hbelow : Py.pathParts i.cachePath ≠ []) (hr : r ≠ []) :
    directory.join i.cachePath ++ r ≠ directory ++ [name] := by
  intro heq
  have hlength := congrArg List.length heq
  have h₁ := List.length_pos_iff.2 hbelow
  have h₂ := List.length_pos_iff.2 hr
  simp only [Path.join, List.length_append, List.length_singleton] at hlength
  omega

/-- The path is directly in the cache directory. -/
def Direct (directory q : Path) : Prop := ∃ name, q = directory ++ [name]

/-- What loses only files directly in the cache directory leaves the images in place. -/
theorem InPlace.of_keeps {fs fs' : FileSystem} {i : OciImage} {depth : ℕ}
    (h : InPlace depth fs directory i) (hbelow : Py.pathParts i.cachePath ≠ [])
    (hkeeps : FileSystem.Keeps (Direct directory) fs fs') : InPlace depth fs' directory i := by
  refine LayoutPasses.of_keeps h fun r b hr hb => hkeeps _ b hb fun ⟨name, heq⟩ => ?_
  refine layout_file_ne hbelow ?_ heq
  rcases hr with rfl | rfl | ⟨digits, rfl⟩ <;> simp [blobPath]

/-- An image in place is left alone. -/
theorem returns_populateOciImage {i : OciImage} (hcalm : env.Calm)
    (h : InPlace env.depth w.fs directory i) :
    (populateOciImage env i directory).Returns w fun _ w' => w'.fs = w.fs := by
  have hdir : w.fs.isDir (directory.join i.cachePath) = true := by
    obtain ⟨⟨bytes, -, hfile, -⟩, -⟩ := h
    refine FileSystem.isDir_above (List.prefix_append _ ["oci-layout"]) (by simp) ?_
    rw [FileSystem.fileAt_eq_some.1 hfile]
    simp
  have hinPlace : layoutInPlace env.depth w.fs i (directory.join i.cachePath) = .ok true := by
    rw [layoutInPlace, if_pos hdir, validateOciLayout_eq_nil_iff.2 h]
    rfl
  refine ⟨(), ⟨w.fs, w.clock + 1⟩, ?_, rfl⟩
  rw [populateOciImage_eq (hcalm _), hinPlace]

/-- **Populating returns** from a file system that is ready for it, and loses only files directly in
the cache directory. -/
theorem populate_returns (hcalm : env.Calm) (hdigest : lockDigest env.depth lock = .ok digest)
    (hartifacts : inventory urlparse lock = .ok artifacts) (himages : ociInventory lock = .ok images)
    (htexts : Serializable env.depth digest artifacts images)
    (hready : Ready env w.fs (root ++ ["locks", digest]) free artifacts images) :
    ∃ w', populate urlparse env lock root w = (.ok (root ++ ["locks", digest]), w') ∧
      FileSystem.Keeps (Direct (root ++ ["locks", digest])) w.fs w'.fs := by
  have hdir : cacheDir env.depth lock root = .ok (root ++ ["locks", digest]) := by
    rw [cacheDir, hdigest]
    rfl
  -- the invariant of all steps before the metadata
  let inv : World → Prop := fun w' => Writable w'.fs (root ++ ["locks", digest]) free ∧
    FileSystem.Keeps (Direct (root ++ ["locks", digest])) w.fs w'.fs
  have hopen : (openCache env lock root).Returns w fun directory w' =>
      directory = root ++ ["locks", digest] ∧ inv w' := by
    refine Eff.returns_bind_lift hdir ?_
    obtain ⟨⟨⟩, w₁, hmkdirs, hmade, hsame⟩ :=
      Py.returns_mkdirs hcalm hready.root_dir hready.no_file
    have hw₁ : Writable w₁.fs (root ++ ["locks", digest]) free := by
      refine ⟨hmade, fun name hname => ?_⟩
      rw [hsame _ fun hp => by simpa using hp.length_le]
      exact hready.not_dir name hname
    refine Eff.returns_bind_of_ok hmkdirs ?_
    obtain ⟨⟨⟩, w₂, hunlink, hw₂⟩ := hw₁.returns_unlinkFile hcalm
      (hready.metadata_free "complete.json" (by decide)).1
    refine Eff.returns_bind_of_ok hunlink (Eff.returns_pure ⟨rfl, hw₂, fun q b hb hother => ?_⟩)
    refine ((Py.touches_unlinkFile _).changes hunlink).keeps q b ?_ fun heq => hother ⟨_, heq⟩
    rw [Py.fileAt_of_mkdirs hmkdirs, hb]
  have hdownload : ∀ a ∈ artifacts, ∀ w, inv w →
      (download env a (root ++ ["locks", digest])).Returns w fun _ => inv := by
    intro a ha w hw
    obtain ⟨name, hpath, hname, htemporary⟩ := hready.artifacts_free a ha
    obtain ⟨⟨⟩, w', hrun, hw'⟩ :=
      returns_download hcalm hpath hname htemporary (hready.serves a ha) hw.1
    refine ⟨(), w', hrun, hw', hw.2.trans ((download_eq_ok hrun).2.mono ?_)⟩
    rw [Path.join, hpath]
    rintro q (rfl | rfl)
    · exact ⟨temporaryName name, by simp [temporaryFor]⟩
    · exact ⟨name, rfl⟩
  have himage : ∀ i ∈ images, ∀ w, inv w →
      (populateOciImage env i (root ++ ["locks", digest])).Returns w fun _ => inv := by
    intro i hi w hw
    have hinPlace := (hready.in_place i hi).of_keeps (hready.image_below i hi) hw.2
    obtain ⟨⟨⟩, w', hrun, hfs⟩ := returns_populateOciImage hcalm hinPlace
    refine ⟨(), w', hrun, ?_⟩
    simp only [inv, hfs]
    exact hw
  have hrun : (populate urlparse env lock root).Returns w fun directory w' =>
      directory = root ++ ["locks", digest] ∧
        FileSystem.Keeps (Direct (root ++ ["locks", digest])) w.fs w'.fs := by
    refine hopen.bind ?_
    rintro directory w₁ ⟨rfl, hw₁⟩
    refine Eff.returns_bind_lift hartifacts ?_
    refine (Eff.returns_forEach hdownload hw₁).bind fun _ w₂ hw₂ => ?_
    refine Eff.returns_bind_lift himages ?_
    refine (Eff.returns_forEach himage hw₂).bind fun _ w₃ hw₃ => ?_
    obtain ⟨_, w₄, hlast, rfl⟩ :=
      returns_writeMetadata hcalm hdigest hartifacts himages htexts hready.metadata_free hw₃.1
    obtain ⟨_, _, _, _, _, _, _, _, hkeeps⟩ := writeMetadata_eq_ok hlast
    refine ⟨_, w₄, hlast, rfl, hw₃.2.trans (hkeeps.mono ?_)⟩
    rintro q ⟨name, -, rfl | rfl⟩
    · exact ⟨_, rfl⟩
    · exact ⟨_, rfl⟩
  obtain ⟨_, w', h, rfl, hkeeps⟩ := hrun
  exact ⟨w', h, hkeeps⟩

end Ready

end Artifacts
