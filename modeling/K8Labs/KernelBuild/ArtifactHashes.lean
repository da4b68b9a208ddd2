import K8Labs.Python.Case
import K8Labs.Python.Document
import K8Labs.Python.FileSystem
import K8Labs.Python.Sha256

/-!
# Hashes of the locked artifacts

`verify_artifact_hashes` of `scripts/kernel_build_harness.py` compares the files of a lock's entries
with the recorded hashes.  It looks at the entries that `_artifact_entries` collects, and of these
only at those with a string as hash, a string as location and a file there.

* `verifyArtifactHashes_eq_nil` : no problem is returned when no file that was looked at has another
  hash.
* `failsClosed_iff` : that says something about every entry with a hash exactly when none is skipped.
-/

namespace KernelBuild

open Py (Value Items Path)

/-! ### The check -/

/-- The dictionaries in a list. -/
def dictsOf (v : Value) : List Items := v.elements.filterMap Value.asDict

/-- The groups of entries that `artifacts` may hold instead of a list. -/
def groupsOf : Value → List Value
  | .dict groups => groups.map Prod.snd
  | _ => []

/-- `_artifact_entries`. -/
def artifactEntries (lock : Items) : List Items :=
  let artifacts := lock.get "artifacts"
  dictsOf artifacts ++ (groupsOf artifacts).flatMap dictsOf ++
    (["non_lfs_artifacts", "out_of_lfs", "locked_artifacts", "non_lfs"].flatMap fun key =>
      dictsOf (lock.get key)) ++
    (dictsOf (lock.get "runtime_rpms")).filter fun item => (item.lookup "sha256").isSome

/-- The location of an entry, when it is a string. -/
def location (entry : Items) : Option String :=
  (((entry.get "cache_path").orElse (entry.get "path")).orElse (entry.get "file")).asStr

/-- The path of an artifact: relative locations stand below the directory. -/
def candidate (base : Path) (location : String) : Path :=
  if Py.isAbsolute location then Py.pathParts location else base.join location

/-- `artifact_dir` and `root`: the second goes before the first. -/
def baseDir (projectRoot : Path) (artifactDir root : Option Path) : Path :=
  root.getD (artifactDir.getD projectRoot)

/-- The dictionary that is checked; a lock that is a string is the path of its file. -/
def lockItems (loadLock : String → Items) : Value → Items
  | .scalar (.str path) => loadLock path
  | .dict items => items
  | _ => []

section Check

/- `files` has the bytes of the regular file that a path leads to. -/
variable (files : Path → Option ByteArray) (base : Path)

/-- The problem with an entry. -/
def verifyEntry (entry : Items) : Option String :=
  match (entry.get "sha256").asStr, location entry with
  | some expected, some location =>
    match files (candidate base location) with
    | some bytes =>
      let actual := Py.sha256 bytes
      if actual ≠ Py.lower expected then
        some ("hash mismatch: " ++ location ++ " expected " ++ expected ++ " got " ++ actual)
      else none
    | none => none
  | _, _ => none

/-- `verify_artifact_hashes`. -/
def verifyArtifactHashes (loadLock : String → Items) (lock : Value) : List String :=
  (artifactEntries (lockItems loadLock lock)).filterMap (verifyEntry files base)

end Check

/-! ### Entries with a hash -/

/-- A hash is recorded, of whatever form; `null` stands for none. -/
def carriesHash (entry : Items) : Bool :=
  match Items.get entry "sha256" with
  | .scalar .none => false
  | _ => true

mutual

/-- The dictionaries with a hash in a value. -/
def hashedIn : Value → List Items
  | .scalar _ => []
  | .list xs => hashedInList xs
  | .dict items => (if carriesHash items then [items] else []) ++ hashedInItems items

/-- The dictionaries with a hash in a list. -/
def hashedInList : List Value → List Items
  | [] => []
  | x :: xs => hashedIn x ++ hashedInList xs

/-- The dictionaries with a hash below a dictionary. -/
def hashedInItems : Items → List Items
  | [] => []
  | (_, v) :: items => hashedIn v ++ hashedInItems items

end

/-- The entries of a lock that carry a hash, wherever they stand below it. -/
def hashedEntries (loadLock : String → Items) : Value → List Items
  | .scalar (.str path) => hashedInItems (loadLock path)
  | .dict items => hashedInItems items
  | v => hashedIn v

section Closed

variable (files : Path → Option ByteArray) (base : Path) (loadLock : String → Items) (lock : Value)
variable {entry : Items}

/-- The entry names a file that is there. -/
def Present (entry : Items) : Prop :=
  ∃ expected name bytes, Items.get entry "sha256" = .str expected ∧ location entry = some name ∧
    files (candidate base name) = some bytes

/-- The entry names a file that is there and has its hash. -/
def Verified (entry : Items) : Prop :=
  ∃ expected name bytes, Items.get entry "sha256" = .str expected ∧ location entry = some name ∧
    files (candidate base name) = some bytes ∧ Py.sha256 bytes = Py.lower expected

/-- The entry names a file that is there and has another hash. -/
def Mismatched (entry : Items) : Prop :=
  ∃ expected name bytes, Items.get entry "sha256" = .str expected ∧ location entry = some name ∧
    files (candidate base name) = some bytes ∧ Py.sha256 bytes ≠ Py.lower expected

/-- No problem is returned only when every hash was verified. -/
def FailsClosed : Prop :=
  verifyArtifactHashes files base loadLock lock = [] →
    ∀ entry ∈ hashedEntries loadLock lock, Verified files base entry

variable {files base loadLock lock}

theorem Verified.present (h : Verified files base entry) : Present files base entry := by
  obtain ⟨expected, name, bytes, hsha, hname, hfile, -⟩ := h
  exact ⟨expected, name, bytes, hsha, hname, hfile⟩

theorem Present.verified_or_mismatched (h : Present files base entry) :
    Verified files base entry ∨ Mismatched files base entry := by
  obtain ⟨expected, name, bytes, hsha, hname, hfile⟩ := h
  by_cases hhash : Py.sha256 bytes = Py.lower expected
  · exact .inl ⟨expected, name, bytes, hsha, hname, hfile, hhash⟩
  · exact .inr ⟨expected, name, bytes, hsha, hname, hfile, hhash⟩

/-- Only a file that is there with another hash is a problem. -/
theorem verifyEntry_ne_none : verifyEntry files base entry ≠ none ↔ Mismatched files base entry := by
  unfold verifyEntry
  constructor
  · intro h
    split at h
    · next expected name hsha hname =>
      split at h
      · next bytes hfile =>
        dsimp only at h
        split_ifs at h with hhash
        · exact ⟨expected, name, bytes, Value.asStr_eq_some.1 hsha, hname, hfile, hhash⟩
        · exact absurd rfl h
      · exact absurd rfl h
    · exact absurd rfl h
  · rintro ⟨expected, name, bytes, hsha, hname, hfile, hhash⟩
    rw [hsha, hname]
    simp [Value.asStr, hfile, hhash]

theorem verifyArtifactHashes_eq_nil : verifyArtifactHashes files base loadLock lock = [] ↔
    ∀ entry ∈ artifactEntries (lockItems loadLock lock), ¬ Mismatched files base entry := by
  rw [verifyArtifactHashes, List.filterMap_eq_nil_iff]
  refine forall₂_congr fun entry _ => ?_
  rw [← verifyEntry_ne_none, not_not]

/-- **The check fails closed exactly when it finds a wrong hash or skips no entry**: one that the
walk does not reach, or whose file is missing, is not looked at. -/
theorem failsClosed_iff (files : Path → Option ByteArray) (base : Path)
    (loadLock : String → Items) (lock : Value) :
    FailsClosed files base loadLock lock ↔
      (∃ entry ∈ artifactEntries (lockItems loadLock lock), Mismatched files base entry) ∨
        ∀ entry ∈ hashedEntries loadLock lock, Present files base entry ∧
          (entry ∈ artifactEntries (lockItems loadLock lock) ∨ Verified files base entry) := by
  rw [FailsClosed, verifyArtifactHashes_eq_nil]
  by_cases hwrong : ∃ entry ∈ artifactEntries (lockItems loadLock lock), Mismatched files base entry
  · refine iff_of_true (fun h => ?_) (.inl hwrong)
    obtain ⟨entry, hentry, hmismatch⟩ := hwrong
    exact absurd hmismatch (h entry hentry)
  · have hright : ∀ entry ∈ artifactEntries (lockItems loadLock lock),
        ¬ Mismatched files base entry := fun entry hentry hmismatch =>
      hwrong ⟨entry, hentry, hmismatch⟩
    rw [imp_iff_right hright, or_iff_right hwrong]
    refine forall₂_congr fun entry _ => ⟨fun h => ⟨h.present, .inr h⟩, ?_⟩
    rintro ⟨hpresent, hreached | hverified⟩
    · exact hpresent.verified_or_mismatched.resolve_right (hright entry hreached)
    · exact hverified

/-- The lock of one artifact that was not copied. -/
def absentLock : Value :=
  .dict [(.str "artifacts", .list [.dict [(.str "cache_path", .str "artifact.bin"),
    (.str "sha256", .str (String.ofList (List.replicate 64 '0')))]])]

theorem absent_accepted : ¬ FailsClosed (fun _ => none) [] (fun _ => []) absentLock := by
  intro h
  have hnil : verifyArtifactHashes (fun _ => none) [] (fun _ => []) absentLock = [] := by
    refine verifyArtifactHashes_eq_nil.2 ?_
    rintro entry - ⟨_, _, _, _, _, hfile, _⟩
    cases hfile
  obtain ⟨_, _, _, _, _, hfile, _⟩ := h hnil _ List.mem_cons_self
  cases hfile

end Closed

end KernelBuild
