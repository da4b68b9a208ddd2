import K8Labs.Python.FileSystem
import K8Labs.Python.Text
import Mathlib.Data.List.Dedup
import Mathlib.Data.List.Sort
import Mathlib.Data.List.Lex
import Mathlib.Data.String.Basic

/-!
# Disks

A `Disk` is a file system with a list of the paths at which something stands, so that directories
can be listed.  The list may name more than that, in any order: what a glob returns is filtered and
sorted.

`write` and `mkdirs` are the calls of `FileSystem` on it; `fileAt_write` and `fileAt_mkdirs` say
what they do to the files.
-/

namespace Py

/-- `path.name`. -/
def Path.name (p : Path) : String := p.getLastD ""

theorem Path.name_append {p q : Path} (h : q ≠ []) : Path.name (p ++ q) = q.name := by
  rw [Path.name, Path.name, List.getLastD_eq_getLast?, List.getLastD_eq_getLast?,
    List.getLast?_append_of_ne_nil _ h]

@[simp] theorem Path.name_concat (p : Path) (name : String) : Path.name (p ++ [name]) = name := by
  rw [Path.name_append (List.cons_ne_nil name [])]
  rfl

/-- `path.stem` of a path with the name. -/
def stem (name : String) : String :=
  match (name.toList.reverse.dropWhile (· != '.')) with
  | _ :: c :: cs => if name.toList.getLast? = some '.' then name else String.ofList (c :: cs).reverse
  | _ => name

/-- The stem loses the part from the last dot on. -/
theorem stem_append {base ext : List Char} (hbase : base ≠ []) (hne : ext ≠ []) (hdot : '.' ∉ ext) :
    stem (String.ofList (base ++ '.' :: ext)) = String.ofList base := by
  have hreverse : (base ++ '.' :: ext).reverse.dropWhile (· != '.') = '.' :: base.reverse := by
    rw [List.reverse_append, List.reverse_cons, List.append_assoc,
      List.dropWhile_append_of_pos fun c hc => by
        simpa using fun h : c = '.' => hdot (h ▸ List.mem_reverse.1 hc)]
    rfl
  have hlast : (base ++ '.' :: ext).getLast? ≠ some '.' := by
    rw [List.getLast?_append_of_ne_nil _ (by simp), List.getLast?_cons_of_ne_nil hne]
    exact fun h => hdot (List.mem_of_getLast? h)
  obtain ⟨c, cs, hcs⟩ := List.exists_cons_of_ne_nil (List.reverse_ne_nil_iff.2 hbase)
  unfold stem
  rw [String.toList_ofList, hreverse, hcs]
  simp only [if_neg hlast]
  rw [← hcs, List.reverse_reverse]

theorem stem_toList_isPrefix (name : String) : (stem name).toList <+: name.toList := by
  unfold stem
  split
  · rename_i d c cs hdrop
    split_ifs
    · exact List.prefix_refl _
    · have hsuffix := List.dropWhile_suffix (· != '.') (l := name.toList.reverse)
      rw [hdrop] at hsuffix
      rw [String.toList_ofList, ← List.reverse_suffix, List.reverse_reverse]
      exact (List.suffix_cons d (c :: cs)).trans hsuffix
  · exact List.prefix_refl _

/-- `path.suffix` of a path with the name. -/
def suffix (name : String) : String := String.ofList (name.toList.drop (stem name).toList.length)

theorem stem_append_suffix (name : String) : stem name ++ suffix name = name := by
  apply String.toList_injective
  rw [String.toList_append, suffix, String.toList_ofList]
  exact (List.prefix_iff_eq_append.1 (stem_toList_isPrefix name))

/-- `path.with_suffix(suffix)`. -/
def Path.withSuffix (p : Path) (suffix : String) : Path := p.dropLast ++ [stem p.name ++ suffix]

/-- What is appended to the suffix is appended to the name. -/
theorem Path.withSuffix_concat (p : Path) (name more : String) :
    Path.withSuffix (p ++ [name]) (suffix name ++ more) = p ++ [name ++ more] := by
  rw [Path.withSuffix, List.dropLast_concat, Path.name_concat, ← String.append_assoc,
    stem_append_suffix]

@[simp] theorem endsWith_empty (t : String) : endsWith t "" = true := by
  rw [endsWith, List.isSuffixOf_iff_suffix]
  exact List.nil_suffix

/-- A file system that can be listed. -/
structure Disk where
  fs : FileSystem
  paths : List Path
  /-- Everything that exists is listed. -/
  listed : ∀ p, fs.node p ≠ none → p ∈ paths

namespace Disk

/-- What stands at a path. -/
def node (d : Disk) (p : Path) : Option Node := d.fs.node p

/-- The bytes of the file at a path. -/
def fileAt (d : Disk) (p : Path) : Option ByteArray := d.fs.fileAt p

/-- A disk with its root directory only. -/
def empty : Disk where
  fs := .single .dir
  paths := [[]]
  listed p h := by
    by_contra hp
    exact h (if_neg (by simpa using hp))

/-- A disk with some directories and files. -/
def ofLists (dirs : List Path) (files : List (Path × ByteArray))
    (h : ∀ p ∈ dirs ++ files.map Prod.fst, p = [] ∨
      p.dropLast ∈ dirs ∧ p.dropLast ∉ files.map Prod.fst) : Disk where
  fs := .ofLists dirs files h
  paths := dirs ++ files.map Prod.fst
  listed p hp := by
    by_contra hnot
    rw [List.mem_append, not_or] at hnot
    refine hp ?_
    change ((files.lookup p).map Node.file).or (if p ∈ dirs then some .dir else none) = none
    rw [if_neg hnot.1, List.lookup_eq_none_iff.2 fun e he => bne_iff_ne.2 fun heq =>
      hnot.2 (List.mem_map.2 ⟨e, he, heq.symm⟩)]
    rfl

/-- What changes one node is listed with its path. -/
def change (d : Disk) (p : Path) (fs : FileSystem) (h : ∀ q, q ≠ p → fs.node q = d.node q) : Disk where
  fs := fs
  paths := p :: d.paths
  listed q hq := by
    by_cases hqp : q = p
    · exact hqp ▸ List.mem_cons_self
    · rw [h q hqp] at hq
      exact List.mem_cons_of_mem _ (d.listed q hq)

/-- Writing a file from its start. -/
def write (d : Disk) (p : Path) (bytes : ByteArray) : Except Exc Disk :=
  match h : d.fs.write p bytes with
  | .ok fs => .ok (d.change p fs (FileSystem.write_eq_ok h).2)
  | .error e => .error e

/-- `path.unlink(missing_ok=True)`. -/
def unlink (d : Disk) (p : Path) : Except Exc Disk :=
  match h : d.fs.unlink p with
  | .ok fs => .ok (d.change p fs (FileSystem.unlink_eq_ok h).2)
  | .error e => .error e

/-- `path.mkdir()`. -/
def mkdir (d : Disk) (p : Path) : Except Exc Disk :=
  match h : d.fs.mkdir p with
  | .ok fs => .ok (d.change p fs (FileSystem.mkdir_eq_ok h).2.2.2)
  | .error e => .error e

/-- `path.mkdir(exist_ok=True)`. -/
def ensureDir (d : Disk) (p : Path) : Except Exc Disk :=
  if d.fs.isDir p then .ok d else d.mkdir p

/-- `path.mkdir(parents=True, exist_ok=True)`. -/
def mkdirs (d : Disk) (p : Path) : Except Exc Disk := fold ensureDir d p.inits

/-- The entries below a directory whose names end with the suffix. -/
def entriesBelow (d : Disk) (dir : Path) (suffix : String) : List Path :=
  ((d.paths.filter fun p => d.fs.present p ∧ dir <+: p ∧ dir ≠ p ∧
    endsWith p.name suffix = true).dedup).insertionSort (· ≤ ·)

/-- `sorted(dir.rglob("*" + suffix))`. -/
def rglob (d : Disk) (dir : Path) (suffix : String) : List Path := d.entriesBelow dir suffix

/-- `sorted(dir.glob("*" + suffix))`. -/
def glob (d : Disk) (dir : Path) (suffix : String) : List Path :=
  (d.entriesBelow dir suffix).filter fun p => p.dropLast = dir

/-! ### What is listed -/

theorem nodup_rglob (d : Disk) (dir : Path) (suffix : String) : (d.rglob dir suffix).Nodup :=
  (List.perm_insertionSort _ _).nodup_iff.2 (List.nodup_dedup _)

theorem nodup_glob (d : Disk) (dir : Path) (suffix : String) : (d.glob dir suffix).Nodup :=
  (d.nodup_rglob dir suffix).filter _

section Listing

variable {d : Disk} {p dir : Path} {suffix : String}

theorem mem_rglob : p ∈ d.rglob dir suffix ↔
    d.node p ≠ none ∧ (∃ rel ≠ [], p = dir ++ rel) ∧ endsWith p.name suffix = true := by
  simp only [rglob, entriesBelow, List.mem_insertionSort, List.mem_dedup, List.mem_filter,
    decide_eq_true_eq, FileSystem.present, Option.isSome_iff_ne_none]
  constructor
  · rintro ⟨-, hp, ⟨rel, rfl⟩, hne, hsuffix⟩
    exact ⟨hp, ⟨rel, by rintro rfl; simp at hne, rfl⟩, hsuffix⟩
  · rintro ⟨hp, ⟨rel, hne, rfl⟩, hsuffix⟩
    exact ⟨d.listed _ hp, hp, List.prefix_append dir rel, by simpa using hne.symm, hsuffix⟩

theorem mem_glob : p ∈ d.glob dir suffix ↔
    ∃ name, p = dir ++ [name] ∧ d.node p ≠ none ∧ endsWith name suffix = true := by
  have hbelow : p ∈ d.entriesBelow dir suffix ↔ _ := mem_rglob
  simp only [glob, List.mem_filter, decide_eq_true_eq, hbelow]
  constructor
  · rintro ⟨⟨hp, ⟨rel, hne, rfl⟩, hsuffix⟩, hdrop⟩
    obtain ⟨name, rfl⟩ : ∃ name, rel = [name] := by
      rw [List.dropLast_append_of_ne_nil hne, List.append_right_eq_self] at hdrop
      exact List.length_eq_one_iff.1 (by
        have := List.length_pos_iff.2 hne
        have := congrArg List.length hdrop
        rw [List.length_dropLast, List.length_nil] at this
        omega)
    exact ⟨name, rfl, hp, by simpa [Path.name] using hsuffix⟩
  · rintro ⟨name, rfl, hp, hsuffix⟩
    exact ⟨⟨hp, ⟨[name], by simp, rfl⟩, by simpa [Path.name] using hsuffix⟩, by simp⟩

end Listing

/-! ### What the calls do -/

section Calls

variable {d d' : Disk} {p q : Path} {bytes : ByteArray}

theorem write_eq_ok (h : d.write p bytes = .ok d') :
    d'.node p = some (.file bytes) ∧ ∀ q, q ≠ p → d'.node q = d.node q := by
  unfold write at h
  split at h
  · rename_i fs hfs
    cases h
    exact FileSystem.write_eq_ok hfs
  · cases h

/-- A file that exists can be written. -/
theorem exists_write (hp : p ≠ []) (h : d.fileAt p = some bytes) (bytes' : ByteArray) :
    ∃ d', d.write p bytes' = .ok d' := by
  obtain ⟨fs, hfs⟩ := FileSystem.exists_write hp h bytes'
  unfold write
  split
  · exact ⟨_, rfl⟩
  · rename_i he
    rw [hfs] at he
    cases he

/-- A file that exists can be removed. -/
theorem exists_unlink (h : d.fs.isFile p = true) :
    ∃ d', d.unlink p = .ok d' ∧ d'.node p = none ∧ ∀ q, q ≠ p → d'.node q = d.node q := by
  obtain ⟨bytes, hbytes⟩ := FileSystem.isFile_iff.1 h
  obtain ⟨fs, hfs⟩ : ∃ fs, d.fs.unlink p = .ok fs := by
    unfold FileSystem.unlink
    rw [FileSystem.fileAt_eq_some.1 hbytes]
    exact ⟨_, rfl⟩
  obtain ⟨hnone, hrest⟩ := FileSystem.unlink_eq_ok hfs
  unfold unlink
  split
  · rename_i fs' hfs'
    cases hfs.symm.trans hfs'
    exact ⟨_, rfl, hnone, hrest⟩
  · rename_i e he
    cases hfs.symm.trans he

theorem write_of_dir (h : d.node p = some .dir) : ∃ e, d.write p bytes = .error e := by
  unfold write
  split
  · rename_i fs hfs
    unfold FileSystem.write at hfs
    rw [show d.fs.node p = some .dir from h] at hfs
    cases hfs
  · exact ⟨_, rfl⟩

theorem fileAt_congr (h : d'.node q = d.node q) : d'.fileAt q = d.fileAt q :=
  FileSystem.fileAt_congr h

theorem fileAt_mkdir (h : d.mkdir p = .ok d') : d'.fileAt q = d.fileAt q := by
  unfold mkdir at h
  split at h
  · rename_i fs hfs
    cases h
    have hchanges := FileSystem.changes_mkdir hfs
    exact Option.ext fun b =>
      ⟨fun hq => hchanges.creates q b hq id, fun hq => hchanges.keeps q b hq id⟩
  · cases h

/-- Making directories leaves every file as it is. -/
theorem fileAt_mkdirs (h : d.mkdirs p = .ok d') : d'.fileAt q = d.fileAt q := by
  refine fold_invariant (P := fun e : Disk => e.fileAt q = d.fileAt q) ?_ rfl h
  intro b r b' hb hstep
  unfold ensureDir at hstep
  split_ifs at hstep
  · cases hstep
    exact hb
  · exact (fileAt_mkdir hstep).trans hb

end Calls

end Disk

end Py
