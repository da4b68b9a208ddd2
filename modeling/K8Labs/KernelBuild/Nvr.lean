import K8Labs.KernelBuild.ConfigFragment
import K8Labs.Python.Exc
import K8Labs.Python.Split
import K8Labs.Python.Value

/-!
# Names of built packages

`NVR`, `derive_nvr` and `parse_nvr` of `scripts/kernel_build_harness.py`.  A package is printed as
`name-version-release`; version and release have no hyphen, a name may have some (`kernel-core`).

* `str_injective` : what is printed is printed for one package only.
* `exact_iff` : `parse_nvr` splits at the **first** two hyphens, so it reads the printed package
  back exactly when the name has no hyphen.
-/

namespace KernelBuild

open Py (Exc valueError splitMax)

/-- `NVR`. -/
@[ext]
structure NVR where
  name : String
  version : String
  release : String
  deriving DecidableEq

/-- `NVR.__str__`. -/
def NVR.str (n : NVR) : String := n.name ++ "-" ++ n.version ++ "-" ++ n.release

/-- `parse_nvr`. -/
def parseNvr (value : String) : Except Exc NVR :=
  match (splitMax '-' 2 value.toList).map String.ofList with
  | [name, version, release] => .ok ⟨name, version, release⟩
  | parts => valueError ("not enough values to unpack (expected 3, got " ++
      toString parts.length ++ ")")

/-! ### The derived package -/

/-- `PINNED_SOURCE_COMMIT`. -/
def pinnedSourceCommit : String := "2efb7a11f1aa4d2dc285fe2680cca22cb9f72f64"

/-- `NVR_VERSION_BASE`. -/
def nvrVersionBase : String := "7.3.0"

/-- `NVR_UPSTREAM_BUILD`. -/
def nvrUpstreamBuild : String := "0.0.next.20261016."

/-- `NVR_ARK_BUILD`. -/
def nvrArkBuild : String := "64"

/-- `NVR_LOCALVERSION_PREFIX`. -/
def nvrLocalversionPrefix : String := ".k8."

/-- `FEDORA_VERSION`. -/
def fedoraVersion : String := "44"

/-- `_short`. -/
def short (value : String) (length : ℕ) : String :=
  String.ofList ((Py.strip value).toList.take length)

/-- `value or default`. -/
def orDefault (value : Option String) (default : String) : String :=
  match value with
  | none => default
  | some s => if s = "" then default else s

/-- The release of `derive_nvr`. -/
def nvrRelease (configHash releasePrefix : String) : String :=
  releasePrefix ++ nvrArkBuild ++ (nvrLocalversionPrefix ++ short configHash 7) ++
    (".fc" ++ fedoraVersion)

/-- The arguments of `derive_nvr`. -/
structure NvrRequest where
  sourceCommit : String
  configHash : String
  name : String := "kernel"
  version : Option String := none
  releasePrefix : Option String := none
  configFragment : Option String := none
  commit : Option String := none

/-- The hash that goes into the release: that of the fragment, when there is one. -/
def NvrRequest.hash (r : NvrRequest) : String :=
  match r.configFragment with
  | none => r.configHash
  | some content => configFragmentHash content.toList

/-- `derive_nvr`: the source commit is checked, not hashed in. -/
def deriveNvr (r : NvrRequest) : Except Exc String :=
  let sourceCommit := r.commit.getD r.sourceCommit
  if sourceCommit ≠ pinnedSourceCommit then
    valueError ("source commit " ++ Py.quoted sourceCommit ++ " is not the pinned source " ++
      Py.quoted pinnedSourceCommit)
  else
    .ok (NVR.str ⟨r.name, orDefault r.version nvrVersionBase,
      nvrRelease r.hash (orDefault r.releasePrefix nvrUpstreamBuild)⟩)

/-! ### Reading a package back -/

/-- A package as RPM has them: no hyphen in version and release. -/
structure Package extends NVR where
  version_plain : '-' ∉ version.toList
  release_plain : '-' ∉ release.toList

variable {n m : Package}

theorem toList_str (n : NVR) :
    n.str.toList = n.name.toList ++ '-' :: (n.version.toList ++ '-' :: n.release.toList) := by
  simp [NVR.str]

/-- **A printed text belongs to one package**: from the right, its parts are those between the last
two hyphens. -/
theorem str_injective (h : m.str = n.str) : m.toNVR = n.toNVR := by
  have hlist := congrArg (fun s => s.toList.reverse) h
  simp only [toList_str, List.reverse_append, List.reverse_cons, List.append_assoc,
    List.singleton_append] at hlist
  -- read backwards, the release ends at the first separator and the version at the second
  obtain ⟨hrelease, hrest⟩ := Py.append_cons_inj (by simpa using m.release_plain)
    (by simpa using n.release_plain) hlist
  obtain ⟨hversion, hname⟩ := Py.append_cons_inj (by simpa using m.version_plain)
    (by simpa using n.version_plain) hrest
  rw [List.reverse_inj, String.toList_inj] at hrelease hversion hname
  exact NVR.ext hname hversion hrelease

theorem parseNvr_eq_ok {value : String} {p : NVR} : parseNvr value = .ok p ↔
    splitMax '-' 2 value.toList = [p.name.toList, p.version.toList, p.release.toList] := by
  have hid : String.toList ∘ String.ofList = id := funext fun _ => String.toList_ofList
  unfold parseNvr
  constructor
  · intro h
    split at h
    · next name version release hparts =>
      cases h
      have hmap := congrArg (List.map String.toList) hparts
      rwa [List.map_map, hid, List.map_id] at hmap
    · cases h
  · intro h
    rw [h]
    simp only [List.map_cons, List.map_nil, String.ofList_toList]

/-- `parse_nvr` loses nothing: texts that are read alike are equal. -/
theorem parseNvr_inj {s t : String} {p : NVR} (hs : parseNvr s = .ok p) (ht : parseNvr t = .ok p) :
    s = t := by
  rw [← String.toList_inj, ← Py.intercalate_splitMax '-' 2 s.toList, parseNvr_eq_ok.1 hs,
    ← parseNvr_eq_ok.1 ht, Py.intercalate_splitMax]

/-- Something is read of every printed package. -/
theorem exists_parseNvr_str (n : Package) : ∃ p, parseNvr n.str = .ok p := by
  have hthree : ∃ a b c, splitMax '-' 2 n.str.toList = [a, b, c] := by
    rw [toList_str]
    by_cases hname : '-' ∈ n.name.toList
    · -- the name is cut at its first hyphen, and the rest still has the two of the print
      obtain ⟨before, after, hcut, hbefore⟩ := List.eq_append_cons_of_mem hname
      have hrest : '-' ∈ after ++ '-' :: (n.version.toList ++ '-' :: n.release.toList) := by simp
      obtain ⟨x, y, hxy, hx⟩ := List.eq_append_cons_of_mem hrest
      rw [hcut, List.append_assoc, List.cons_append, Py.splitMax_append hbefore, hxy,
        Py.splitMax_append hx]
      exact ⟨before, x, y, rfl⟩
    · rw [Py.splitMax_append hname, Py.splitMax_append n.version_plain]
      exact ⟨_, _, _, rfl⟩
  obtain ⟨a, b, c, h⟩ := hthree
  refine ⟨⟨String.ofList a, String.ofList b, String.ofList c⟩, parseNvr_eq_ok.2 ?_⟩
  simpa only [String.toList_ofList] using h

/-- Comparing what was read tells packages apart, whatever their names are. -/
theorem parseNvr_str_eq_iff (m n : Package) :
    parseNvr m.str = parseNvr n.str ↔ m.toNVR = n.toNVR := by
  constructor
  · intro h
    obtain ⟨p, hp⟩ := exists_parseNvr_str n
    exact str_injective (parseNvr_inj (h.trans hp) hp)
  · intro h
    rw [h]

theorem parseNvr_str (n : Package) (hname : '-' ∉ n.name.toList) :
    parseNvr n.str = .ok n.toNVR := by
  rw [parseNvr_eq_ok, toList_str, Py.splitMax_append hname, Py.splitMax_append n.version_plain,
    splitMax]

/-- What the parts of a package are read for: they are those that were printed, and comparing them
tells packages apart. -/
structure Exact (n : Package) : Prop where
  recovered : parseNvr n.str = .ok n.toNVR
  compared : ∀ m : Package, parseNvr m.str = parseNvr n.str ↔ m.toNVR = n.toNVR

/-- **The printed package is read back exactly when its name has no hyphen.** -/
theorem exact_iff (n : Package) : Exact n ↔ '-' ∉ n.name.toList := by
  constructor
  · intro h
    exact Py.notMem_of_splitMax (parseNvr_eq_ok.1 h.recovered) (List.cons_ne_nil _ _)
  · intro hname
    exact ⟨parseNvr_str n hname, fun m => parseNvr_str_eq_iff m n⟩

/-- The stock package of the runtime. -/
def kernelCore : Package where
  name := "kernel-core"
  version := "7.3.0"
  release := "65.fc46"
  version_plain := by decide
  release_plain := by decide

theorem kernelCore_misread : ¬ Exact kernelCore := by
  intro h
  have hread : parseNvr kernelCore.str = .ok ⟨"kernel", "core", "7.3.0-65.fc46"⟩ := by
    decide
  exact absurd (hread.symm.trans h.recovered) (by decide)

/-- What is derived is read back, when none of its parts brings a hyphen in. -/
theorem parseNvr_deriveNvr {r : NvrRequest} {value : String} (hname : '-' ∉ r.name.toList)
    (hversion : '-' ∉ (orDefault r.version nvrVersionBase).toList)
    (hbase : '-' ∉ (orDefault r.releasePrefix nvrUpstreamBuild).toList)
    (hhash : '-' ∉ r.hash.toList) (h : deriveNvr r = .ok value) :
    parseNvr value = .ok ⟨r.name, orDefault r.version nvrVersionBase,
      nvrRelease r.hash (orDefault r.releasePrefix nvrUpstreamBuild)⟩ := by
  have hshort : '-' ∉ (short r.hash 7).toList := by
    intro hmem
    rw [short, String.toList_ofList] at hmem
    have hstrip := List.mem_of_mem_take hmem
    rw [Py.strip, String.toList_ofList, List.mem_reverse] at hstrip
    have hdrop := List.mem_reverse.1 ((List.dropWhile_sublist _).subset hstrip)
    exact hhash ((List.dropWhile_sublist _).subset hdrop)
  have hrelease :
      '-' ∉ (nvrRelease r.hash (orDefault r.releasePrefix nvrUpstreamBuild)).toList := by
    simp only [nvrRelease, String.toList_append, List.mem_append, not_or]
    exact ⟨⟨⟨hbase, by decide⟩, by decide, hshort⟩, by decide, by decide⟩
  unfold deriveNvr at h
  dsimp only at h
  split_ifs at h with hcommit
  · cases h
  · cases h
    exact parseNvr_str ⟨⟨r.name, _, _⟩, hversion, hrelease⟩ hname

end KernelBuild
