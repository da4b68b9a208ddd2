import K8Labs.Artifacts.Cache

/-!
# Caches without problems

What `validate_cache` has looked at when it returns the empty list:

* `CacheComplete` : the metadata files say what the lock says, every artifact is stored with its
  digest, every layout passes its checks, and the completion marker describes the lock.
* `validateCache_eq_nil_iff` : **the list is empty exactly for a complete cache**.

A layout that passes is not always a valid one, see `LayoutPasses.valid_iff`.
-/

namespace Artifacts

open Py (Exc Value Items Path FileSystem)

/-! ### Complete caches -/

/-- The file is a document equal to the expected value. -/
def DocumentIs (depth : ℕ) (fs : FileSystem) (path : Path) (expected : Value) : Prop :=
  ∃ bytes v, fs.fileAt path = some bytes ∧ loadDocument depth bytes = .ok v ∧ v.eq expected = true

/-- The file is there and its bytes have the digest. -/
def Stored (fs : FileSystem) (p : Path) (sha256 : String) : Prop :=
  ∃ bytes, fs.fileAt p = some bytes ∧ Py.sha256 bytes = sha256

theorem isStored_iff {fs : FileSystem} {p : Path} {sha256 : String} :
    isStored fs p sha256 = true ↔ Stored fs p sha256 := by
  unfold isStored Stored
  split
  · rename_i bytes hbytes
    simp [hbytes]
  · rename_i hnone
    simp [hnone]

/-- What `validate_cache` finds in a directory it has no problem with. -/
structure CacheComplete (depth : ℕ) (fs : FileSystem) (lock : Items) (digest : String)
    (directory : Path) (artifacts : List Artifact) (images : List OciImage) : Prop where
  lock_json : DocumentIs depth fs (directory ++ ["lock.json"]) (.dict lock)
  artifacts_json : DocumentIs depth fs (directory ++ ["artifacts.json"])
    (.list (artifacts.map Artifact.toValue))
  images_json : DocumentIs depth fs (directory ++ ["oci-images.json"])
    (.list (images.map OciImage.toValue))
  checksums : ∃ bytes text, fs.fileAt (directory ++ ["checksums.txt"]) = some bytes ∧
    decodeText bytes = .ok text ∧ Py.splitLines (String.ofList text) = artifacts.map checksumLine
  stored : ∀ a ∈ artifacts, Stored fs (directory.join a.cachePath) a.sha256
  layouts : ∀ i ∈ images, LayoutPasses depth (fun r => fs.fileAt (directory.join i.cachePath ++ r)) i
  complete : ∃ bytes v, fs.fileAt (directory ++ ["complete.json"]) = some bytes ∧
    loadDocument depth bytes = .ok v ∧ describes v digest artifacts.length images.length = true

section Complete

variable {urlparse : UrlParse} {depth : ℕ} {fs : FileSystem} {lock : Items} {digest : String}
  {directory root : Path}

theorem checkDocument_eq_nil_iff {name mismatch : String} {expected : Value} :
    checkDocument depth fs directory name expected mismatch = .ok [] ↔
      DocumentIs depth fs (directory ++ [name]) expected := by
  unfold checkDocument DocumentIs
  rw [Py.map_eq_ok]
  constructor
  · rintro ⟨⟨v, problems⟩, hread, h⟩
    simp only at h
    split_ifs at h with heq
    · subst h
      obtain ⟨bytes, hbytes, hload⟩ := readJson_eq_nil_iff.1 hread
      exact ⟨bytes, v, hbytes, hload, heq⟩
    · simp at h
  · rintro ⟨bytes, v, hbytes, hload, heq⟩
    exact ⟨(v, []), readJson_eq_nil_iff.2 ⟨bytes, hbytes, hload⟩, by simp [heq]⟩

theorem artifactProblems_eq_nil_iff {a : Artifact} :
    artifactProblems fs directory a = [] ↔ Stored fs (directory.join a.cachePath) a.sha256 := by
  unfold artifactProblems Stored
  split
  · rename_i h
    simp [h]
  · rename_i bytes h
    split_ifs with hsha
    · simpa [h] using hsha
    · simpa [h] using hsha

theorem traverse_layouts_eq_nil_iff {images : List OciImage} :
    (∃ layouts, Py.traverse (fun image : OciImage => validateOciLayout depth fs image
        (directory.join image.cachePath)) images = .ok layouts ∧ layouts.flatten = []) ↔
      ∀ i ∈ images, LayoutPasses depth (fun r => fs.fileAt (directory.join i.cachePath ++ r)) i := by
  simp only [Py.traverse_eq_ok, List.flatten_eq_nil_iff]
  constructor
  · rintro ⟨layouts, hall, hnil⟩ i hi
    obtain ⟨n, hn, rfl⟩ := List.mem_iff_getElem.1 hi
    have hlayout := hall.get hn (hall.length_eq ▸ hn)
    have hempty := hnil _ (List.getElem_mem (hall.length_eq ▸ hn))
    simp only [List.get_eq_getElem] at hlayout
    rw [hempty] at hlayout
    exact validateOciLayout_eq_nil_iff.1 hlayout
  · intro hpass
    refine ⟨images.map fun _ => [], ?_, by simp⟩
    rw [List.forall₂_map_right_iff, List.forall₂_same]
    exact fun i hi => validateOciLayout_eq_nil_iff.2 (hpass i hi)

/-- **What an empty list of problems means.** -/
theorem validateContents_eq_nil_iff :
    validateContents urlparse depth fs lock digest directory = .ok [] ↔
      ∃ artifacts images, inventory urlparse lock = .ok artifacts ∧ ociInventory lock = .ok images ∧
        CacheComplete depth fs lock digest directory artifacts images := by
  unfold validateContents
  constructor
  · intro h
    obtain ⟨p₁, h₁, h⟩ := Py.bind_eq_ok.1 h
    obtain ⟨artifacts, hartifacts, h⟩ := Py.bind_eq_ok.1 h
    obtain ⟨p₂, h₂, h⟩ := Py.bind_eq_ok.1 h
    obtain ⟨images, himages, h⟩ := Py.bind_eq_ok.1 h
    obtain ⟨p₃, h₃, h⟩ := Py.bind_eq_ok.1 h
    obtain ⟨text, htext, h⟩ := Py.bind_eq_ok.1 h
    obtain ⟨layouts, hlayouts, h⟩ := Py.bind_eq_ok.1 h
    obtain ⟨⟨v, more⟩, hcomplete, h⟩ := Py.map_eq_ok.1 h
    -- no problems in all are none of each check
    simp only [List.append_eq_nil_iff, List.flatMap_eq_nil_iff] at h
    obtain ⟨⟨⟨⟨⟨⟨⟨rfl, rfl⟩, rfl⟩, hlines⟩, hstored⟩, hnil⟩, rfl⟩, hdescribes⟩ := h
    obtain ⟨bytes, hbytes, hdecode⟩ := Py.bind_eq_ok.1 htext
    refine ⟨artifacts, images, hartifacts, himages, checkDocument_eq_nil_iff.1 h₁,
      checkDocument_eq_nil_iff.1 h₂, checkDocument_eq_nil_iff.1 h₃,
      ⟨bytes, text, FileSystem.read_eq_ok.1 hbytes, hdecode, ?_⟩,
      fun a ha => artifactProblems_eq_nil_iff.1 (hstored a ha),
      traverse_layouts_eq_nil_iff.1 ⟨layouts, hlayouts, hnil⟩, ?_⟩
    · by_contra hne
      simp [hne] at hlines
    · obtain ⟨bytes', hbytes', hload⟩ := readJson_eq_nil_iff.1 hcomplete
      refine ⟨bytes', v, hbytes', hload, ?_⟩
      by_contra hne
      simp [hne] at hdescribes
  · rintro ⟨artifacts, images, hartifacts, himages, hc⟩
    obtain ⟨bytes, text, hbytes, hdecode, hlines⟩ := hc.checksums
    obtain ⟨layouts, hlayouts, hnil⟩ := traverse_layouts_eq_nil_iff.2 hc.layouts
    obtain ⟨bytes', v, hbytes', hload, hdescribes⟩ := hc.complete
    have hstored : artifacts.flatMap (artifactProblems fs directory) = [] :=
      List.flatMap_eq_nil_iff.2 fun a ha => artifactProblems_eq_nil_iff.2 (hc.stored a ha)
    simp only [checkDocument_eq_nil_iff.2 hc.lock_json, hartifacts,
      checkDocument_eq_nil_iff.2 hc.artifacts_json, himages,
      checkDocument_eq_nil_iff.2 hc.images_json, FileSystem.read_eq_ok.2 hbytes, hdecode, hlayouts,
      readJson_eq_nil_iff.2 ⟨bytes', hbytes', hload⟩, Except.bind, Except.map, hlines, hstored, hnil,
      hdescribes, if_true, List.append_nil]

theorem missingMetadata_eq_nil_iff :
    missingMetadata fs directory = [] ↔
      ∀ name ∈ metadataNames, fs.isFile (directory ++ [name]) = true := by
  simp [missingMetadata, List.filter_eq_nil_iff]

theorem validateCache_eq_nil_iff :
    validateCache urlparse depth lock root fs = .ok [] ↔
      ∃ digest, lockDigest depth lock = .ok digest ∧ fs.isDir (root ++ ["locks", digest]) = true ∧
        (∀ name ∈ metadataNames, fs.isFile (root ++ ["locks", digest] ++ [name]) = true) ∧
        ∃ artifacts images, inventory urlparse lock = .ok artifacts ∧ ociInventory lock = .ok images ∧
          CacheComplete depth fs lock digest (root ++ ["locks", digest]) artifacts images := by
  unfold validateCache
  rw [Py.bind_eq_ok]
  refine exists_congr fun digest => and_congr_right fun _ => ?_
  simp only
  rw [← missingMetadata_eq_nil_iff, ← validateContents_eq_nil_iff]
  split_ifs with hdir hmissing
  · simp [hdir]
  · simp [hmissing]
  · simp only [Bool.not_eq_false] at hdir
    simp only [ne_eq, not_not] at hmissing
    simp [hdir, hmissing]

end Complete

end Artifacts
