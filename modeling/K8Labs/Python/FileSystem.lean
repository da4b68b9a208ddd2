import K8Labs.Python.Value
import Mathlib.Data.List.Infix

/-!
# File systems

A `FileSystem` is a tree of directories and regular files, given by what stands at each absolute
path; whatever exists stands in a directory.  Links, permissions and times are not modelled.

Every change is a `place`: what stands at and below a path is replaced by another tree.  On top of
it are the system calls `mkdir`, `write`, `unlink`, `rmtree` and `replace`, which fail as the real
ones do.  `Changes` says which files a change can lose and which it can create.
-/

namespace Py

/-- The components of an absolute path. -/
abbrev Path := List String

/-- Paths are compared in many definitions; the instance has a name for all of them. -/
instance lawfulBEq_path : LawfulBEq Path := List.instLawfulBEq

/-- `str(path)`. -/
def Path.text (p : Path) : String := "/" ++ String.intercalate "/" p

/-- `path / name`, for a relative name. -/
def Path.join (p : Path) (name : String) : Path := p ++ pathParts name

/-- What stands at a path. -/
inductive Node where
  | file (bytes : ByteArray)
  | dir

/-- A tree of directories and files. -/
structure FileSystem where
  node : Path → Option Node
  /-- What exists stands in a directory. -/
  parent_dir : ∀ p name, node (p ++ [name]) ≠ none → node p = some .dir

namespace FileSystem

/-- The bytes of the file at a path. -/
def fileAt (fs : FileSystem) (p : Path) : Option ByteArray :=
  match fs.node p with
  | some (.file bytes) => some bytes
  | _ => none

/-- `path.is_file()`. -/
def isFile (fs : FileSystem) (p : Path) : Bool := (fs.fileAt p).isSome

/-- `path.is_dir()`. -/
def isDir (fs : FileSystem) (p : Path) : Bool :=
  match fs.node p with
  | some .dir => true
  | _ => false

/-- `path.exists()`. -/
def present (fs : FileSystem) (p : Path) : Bool := (fs.node p).isSome

/-- Nothing at all. -/
def empty : FileSystem where
  node _ := none
  parent_dir _ _ h := absurd rfl h

/-- One file or one empty directory. -/
def single (n : Node) : FileSystem where
  node p := if p = [] then some n else none
  parent_dir p name h := absurd (if_neg (by simp)) h

/-- Some directories and files. -/
def ofLists (dirs : List Path) (files : List (Path × ByteArray))
    (h : ∀ p ∈ dirs ++ files.map Prod.fst, p = [] ∨
      p.dropLast ∈ dirs ∧ p.dropLast ∉ files.map Prod.fst) : FileSystem where
  node p := ((files.lookup p).map .file).or (if p ∈ dirs then some .dir else none)
  parent_dir p name hp := by
    have hnone : ∀ {q : Path}, q ∉ files.map Prod.fst → files.lookup q = none := fun hq =>
      List.lookup_eq_none_iff.2 fun e he => bne_iff_ne.2 fun heq =>
        hq (List.mem_map.2 ⟨e, he, heq.symm⟩)
    have hmem : p ++ [name] ∈ dirs ++ files.map Prod.fst := by
      by_contra hnot
      rw [List.mem_append, not_or] at hnot
      rw [hnone hnot.2, if_neg hnot.1] at hp
      exact hp rfl
    obtain ⟨hdir, hfile⟩ := (h _ hmem).resolve_left (by simp)
    rw [List.dropLast_concat] at hdir hfile
    rw [hnone hfile, if_pos hdir]
    rfl

/-- Trees are the same when the same stands at every path. -/
theorem ext_node {fs fs' : FileSystem} (h : ∀ p, fs.node p = fs'.node p) : fs = fs' := by
  cases fs
  cases fs'
  cases funext h
  rfl

/-- What stands below a path. -/
def subtree (fs : FileSystem) (p : Path) : FileSystem where
  node q := fs.node (p ++ q)
  parent_dir q name h := fs.parent_dir (p ++ q) name (by rwa [List.append_assoc])

section Tree

variable {fs fs' t : FileSystem} {p q r src dst : Path} {bytes : ByteArray}

theorem fileAt_eq_some : fs.fileAt p = some bytes ↔ fs.node p = some (.file bytes) := by
  unfold fileAt
  split <;> simp_all

theorem fileAt_eq_none_of_isDir (h : fs.isDir p = true) : fs.fileAt p = none := by
  unfold isDir at h
  split at h
  · simp_all [fileAt]
  · cases h

theorem isDir_iff : fs.isDir p = true ↔ fs.node p = some .dir := by
  unfold isDir
  split <;> simp_all

theorem present_of_node {n : Node} (h : fs.node p = some n) : fs.present p = true :=
  Option.isSome_iff_exists.2 ⟨n, h⟩

theorem not_present (h : fs.node p = none) : ¬fs.present p = true := by
  rw [present, h]
  exact Bool.false_ne_true

theorem isFile_iff : fs.isFile p = true ↔ ∃ bytes, fs.fileAt p = some bytes :=
  Option.isSome_iff_exists

theorem isDir_or_none (h : fs.isFile p = false) : fs.isDir p = true ∨ fs.node p = none := by
  cases hnode : fs.node p with
  | none => exact .inr rfl
  | some n =>
    cases n with
    | dir => exact .inl (isDir_iff.2 hnode)
    | file bytes =>
      rw [isFile, fileAt_eq_some.2 hnode] at h
      cases h

/-- Everything above what exists is a directory. -/
theorem isDir_above (h : p <+: q) (hne : p ≠ q) (hq : fs.node q ≠ none) : fs.isDir p = true := by
  obtain ⟨r, rfl⟩ := h
  induction r using List.reverseRecOn with
  | nil => exact absurd (List.append_nil p).symm hne
  | append_singleton r name ih =>
    rw [← List.append_assoc] at hq
    have hparent := fs.parent_dir (p ++ r) name hq
    by_cases hr : r = []
    · subst hr
      rw [List.append_nil] at hparent
      exact isDir_iff.2 hparent
    · exact ih (by simpa using hr) (by simp [hparent])

/-- There is nothing below a file. -/
theorem node_eq_none_of_file (h : fs.fileAt p = some bytes) (hpq : p <+: q) (hne : p ≠ q) :
    fs.node q = none := by
  by_contra hq
  have := fileAt_eq_none_of_isDir (isDir_above hpq hne hq)
  rw [h] at this
  cases this

/-- There is nothing below what does not exist. -/
theorem node_eq_none_below (h : fs.node p = none) (hpq : p <+: q) : fs.node q = none := by
  by_contra hq
  by_cases hne : p = q
  · exact hq (hne ▸ h)
  · have := isDir_iff.1 (isDir_above hpq hne hq)
    rw [h] at this
    cases this

/-! ### Placing a tree -/

/-- The tree can stand at the path: it is empty, or the path has a parent directory. -/
def Attachable (fs : FileSystem) (p : Path) (t : FileSystem) : Prop :=
  t.node [] = none ∨ p = [] ∨ fs.isDir p.dropLast = true

instance : Decidable (fs.Attachable p t) :=
  inferInstanceAs (Decidable (_ ∨ _ ∨ _))

/-- What stands at and below the path is replaced by the tree, where the tree can stand there. -/
def place (fs : FileSystem) (p : Path) (t : FileSystem) : FileSystem :=
  if h : fs.Attachable p t then
    { node := fun q =>
        match p.isPrefixOf? q with
        | some r => t.node r
        | none => fs.node q
      parent_dir := by
        intro q name hq
        by_cases hpq : p <+: q
        · obtain ⟨r, rfl⟩ := hpq
          rw [List.append_assoc, isPrefixOf?_append] at hq
          rw [isPrefixOf?_append]
          exact t.parent_dir r name hq
        · rw [isPrefixOf?_eq_none hpq]
          by_cases hpn : p <+: q ++ [name]
          · -- the path is the new child itself
            obtain ⟨r, hr⟩ := hpn
            obtain rfl : r = [] := by
              by_contra hne
              refine hpq ⟨r.dropLast, ?_⟩
              rw [← List.dropLast_append_of_ne_nil hne, hr, List.dropLast_concat]
            rw [List.append_nil] at hr
            subst hr
            have hself : (q ++ [name]).isPrefixOf? (q ++ [name]) = some [] := by
              simpa only [List.append_nil] using isPrefixOf?_append (q ++ [name]) []
            rw [hself] at hq
            rcases h with h | h | h
            · exact absurd h hq
            · simp at h
            · rw [List.dropLast_concat] at h
              exact isDir_iff.1 h
          · rw [isPrefixOf?_eq_none hpn] at hq
            exact fs.parent_dir q name hq }
  else fs

theorem node_place_append (h : fs.Attachable p t) : (fs.place p t).node (p ++ r) = t.node r := by
  simp [place, h, isPrefixOf?_append]

theorem node_place (h : fs.Attachable p t) : (fs.place p t).node p = t.node [] := by
  simpa using node_place_append (r := []) h

theorem node_place_outside (h : ¬ p <+: q) : (fs.place p t).node q = fs.node q := by
  unfold place
  split_ifs
  · simp [isPrefixOf?_eq_none h]
  · rfl

theorem place_of_not_attachable (h : ¬ fs.Attachable p t) : fs.place p t = fs := dif_neg h

theorem attachable_empty : fs.Attachable p empty := .inl rfl

theorem node_place_empty (h : p <+: q) : (fs.place p empty).node q = none := by
  obtain ⟨r, rfl⟩ := h
  exact node_place_append attachable_empty

theorem fileAt_congr (h : fs.node p = fs'.node q) : fs.fileAt p = fs'.fileAt q := by
  rw [fileAt, h, fileAt]

theorem fileAt_place_outside (h : ¬ p <+: q) : (fs.place p t).fileAt q = fs.fileAt q :=
  fileAt_congr (node_place_outside h)

/-- A file of a placed tree is a file of the tree or was there before. -/
theorem fileAt_place_cases (h : (fs.place p t).fileAt q = some bytes) :
    fs.fileAt q = some bytes ∨ ∃ r, q = p ++ r ∧ t.fileAt r = some bytes := by
  by_cases ha : fs.Attachable p t
  · by_cases hpq : p <+: q
    · obtain ⟨r, rfl⟩ := hpq
      rw [fileAt_congr (node_place_append ha)] at h
      exact .inr ⟨r, rfl, h⟩
    · rw [fileAt_place_outside hpq] at h
      exact .inl h
  · rw [place_of_not_attachable ha] at h
    exact .inl h

/-- A tree below directories that hold nothing else. -/
def under : Path → FileSystem → FileSystem
  | [], t => t
  | name :: p, t => (single .dir).place [name] (under p t)

theorem node_under_append (p : Path) (t : FileSystem) (q : Path) :
    (under p t).node (p ++ q) = t.node q := by
  induction p with
  | nil => rfl
  | cons name p ih =>
    have hattach : (single .dir).Attachable [name] (under p t) := .inr (.inr rfl)
    exact (node_place_append (r := p ++ q) hattach).trans ih

theorem isDir_under {p : Path} (ht : t.isDir [] = true) (h : q <+: p) :
    (under p t).isDir q = true := by
  have hp : (under p t).node p = some .dir := by
    simpa [isDir_iff.1 ht] using node_under_append p t []
  by_cases hne : q = p
  · subst hne
    exact isDir_iff.2 hp
  · exact isDir_above h hne (by rw [hp]; simp)

/-! ### What a change touches -/

/-- The files outside the set are in the second file system too. -/
def Keeps (lost : Path → Prop) (fs fs' : FileSystem) : Prop :=
  ∀ q bytes, fs.fileAt q = some bytes → ¬ lost q → fs'.fileAt q = some bytes

theorem Keeps.trans {lost : Path → Prop} {fs'' : FileSystem} (h : Keeps lost fs fs')
    (h' : Keeps lost fs' fs'') : Keeps lost fs fs'' :=
  fun q bytes hq hl => h' q bytes (h q bytes hq hl) hl

theorem Keeps.mono {lost lost' : Path → Prop} (h : Keeps lost fs fs')
    (hl : ∀ q, lost q → lost' q) : Keeps lost' fs fs' :=
  fun q bytes hq hlost => h q bytes hq fun hq' => hlost (hl q hq')

/-- A change loses files only in `lost` and creates files only in `new`. -/
structure Changes (lost new : Path → Prop) (fs fs' : FileSystem) : Prop where
  keeps : Keeps lost fs fs'
  creates : Keeps new fs' fs

namespace Changes

variable {lost new lost' new' : Path → Prop} {fs'' : FileSystem}

theorem refl (fs : FileSystem) : Changes lost new fs fs := ⟨fun _ _ h _ => h, fun _ _ h _ => h⟩

theorem trans (h : Changes lost new fs fs') (h' : Changes lost new fs' fs'') :
    Changes lost new fs fs'' :=
  ⟨h.keeps.trans h'.keeps, h'.creates.trans h.creates⟩

theorem mono (h : Changes lost new fs fs') (hl : ∀ q, lost q → lost' q) (hn : ∀ q, new q → new' q) :
    Changes lost' new' fs fs' :=
  ⟨h.keeps.mono hl, h.creates.mono hn⟩

/-- Outside a set where something may have changed, everything is as before. -/
theorem of_node (h : ∀ q, ¬ lost q → fs'.node q = fs.node q) : Changes lost lost fs fs' :=
  ⟨fun q _ hq hl => (fileAt_congr (h q hl)).trans hq,
    fun q _ hq hl => (fileAt_congr (h q hl)).symm.trans hq⟩

end Changes

theorem changes_place (fs : FileSystem) (p : Path) (t : FileSystem) :
    Changes (fun q => p <+: q) (fun q => p <+: q) fs (fs.place p t) :=
  .of_node fun _ hq => node_place_outside hq

/-- Removing creates nothing. -/
theorem changes_place_empty (fs : FileSystem) (p : Path) :
    Changes (fun q => p <+: q) (fun _ => False) fs (fs.place p empty) := by
  refine ⟨(changes_place fs p empty).keeps, fun q bytes hq _ => ?_⟩
  rcases fileAt_place_cases hq with hq | ⟨r, -, hr⟩
  · exact hq
  · cases hr

/-! ### System calls -/

/-- An `OSError` that names a path. -/
def osError (reason : String) (p : Path) : Exc := ⟨.osError, reason ++ ": " ++ quoted p.text⟩

/-- The error of a path that leads nowhere. -/
def missing (fs : FileSystem) (p : Path) : Exc :=
  if p.inits.any fs.isFile then osError "[Errno 20] Not a directory" p
  else osError "[Errno 2] No such file or directory" p

/-- The bytes of an opened file. -/
def read (fs : FileSystem) (p : Path) : Except Exc ByteArray :=
  match fs.node p with
  | some (.file bytes) => .ok bytes
  | some .dir => .error (osError "[Errno 21] Is a directory" p)
  | none => .error (missing fs p)

/-- The path has a parent that is a directory. -/
def hasParent (fs : FileSystem) (p : Path) : Bool := p ≠ [] && fs.isDir p.dropLast

/-- `os.mkdir`. -/
def mkdir (fs : FileSystem) (p : Path) : Except Exc FileSystem :=
  match fs.node p with
  | some _ => .error (osError "[Errno 17] File exists" p)
  | none => if fs.hasParent p then .ok (fs.place p (single .dir)) else .error (missing fs p)

/-- `os.makedirs`. -/
def makedirs (fs : FileSystem) (p : Path) : Except Exc FileSystem :=
  (fold (fun fs q => if fs.present q then .ok fs else fs.mkdir q) fs p.dropLast.inits).bind
    fun fs => fs.mkdir p

/-- `shutil.copytree`, of a tree that is somewhere else. -/
def copytree (fs t : FileSystem) (p : Path) : Except Exc FileSystem :=
  (fs.makedirs p).map fun fs => fs.place p t

/-- Writing a file from its start. -/
def write (fs : FileSystem) (p : Path) (bytes : ByteArray) : Except Exc FileSystem :=
  match fs.node p with
  | some .dir => .error (osError "[Errno 21] Is a directory" p)
  | _ => if fs.hasParent p then .ok (fs.place p (single (.file bytes))) else .error (missing fs p)

/-- `path.unlink(missing_ok=True)`. -/
def unlink (fs : FileSystem) (p : Path) : Except Exc FileSystem :=
  match fs.node p with
  | some (.file _) => .ok (fs.place p empty)
  | some .dir => .error (osError "[Errno 21] Is a directory" p)
  | none => if p.inits.any fs.isFile then .error (missing fs p) else .ok fs

/-- `shutil.rmtree`. -/
def rmtree (fs : FileSystem) (p : Path) : Except Exc FileSystem :=
  match fs.node p with
  | some .dir => .ok (fs.place p empty)
  | some (.file _) => .error (osError "[Errno 20] Not a directory" p)
  | none => .error (missing fs p)

/-- `os.replace`.  A directory is not moved onto another; the real call accepts an empty one. -/
def replace (fs : FileSystem) (src dst : Path) : Except Exc FileSystem :=
  match fs.node src with
  | none => .error (missing fs src)
  | some n =>
    if src = dst then .ok fs
    else if fs.hasParent dst = false then .error (missing fs dst)
    else if src <+: dst then .error (osError "[Errno 22] Invalid argument" src)
    else
      match n, fs.node dst with
      | .file _, some .dir => .error (osError "[Errno 21] Is a directory" src)
      | .dir, some (.file _) => .error (osError "[Errno 20] Not a directory" src)
      | .dir, some .dir => .error (osError "[Errno 39] Directory not empty" src)
      | _, _ => .ok ((fs.place src empty).place dst (fs.subtree src))

/-! ### What the calls do -/

theorem read_eq_ok : fs.read p = .ok bytes ↔ fs.fileAt p = some bytes := by
  rw [fileAt_eq_some]
  unfold read
  split <;> simp_all

theorem read_error_cls {e : Exc} (h : fs.read p = .error e) : e.cls = .osError := by
  unfold read missing at h
  split at h
  · cases h
  · cases h
    rfl
  · cases h
    split_ifs <;> rfl

theorem hasParent_iff : fs.hasParent p = true ↔ p ≠ [] ∧ fs.isDir p.dropLast = true := by
  simp [hasParent]

theorem attachable_of_hasParent (h : fs.hasParent p = true) : fs.Attachable p t :=
  .inr (.inr (hasParent_iff.1 h).2)

/-- A path that gets one node and has nothing below it. -/
theorem node_place_single {n : Node} (h : fs.hasParent p = true)
    (hbelow : ∀ q, p <+: q → p ≠ q → fs.node q = none) :
    (fs.place p (single n)).node p = some n ∧
      ∀ q, q ≠ p → (fs.place p (single n)).node q = fs.node q := by
  refine ⟨(node_place (attachable_of_hasParent h)).trans rfl, fun q hq => ?_⟩
  by_cases hpq : p <+: q
  · rw [hbelow q hpq (Ne.symm hq)]
    obtain ⟨r, rfl⟩ := hpq
    rw [node_place_append (attachable_of_hasParent h)]
    exact if_neg (by rintro rfl; simp at hq)
  · exact node_place_outside hpq

theorem mkdir_eq_ok (h : fs.mkdir p = .ok fs') :
    fs.node p = none ∧ fs.hasParent p = true ∧ fs'.node p = some .dir ∧
      ∀ q, q ≠ p → fs'.node q = fs.node q := by
  unfold mkdir at h
  split at h
  · cases h
  · rename_i hnone
    split_ifs at h with hparent
    cases h
    obtain ⟨h₁, h₂⟩ := node_place_single (n := .dir) hparent
      fun q hpq _ => node_eq_none_below hnone hpq
    exact ⟨hnone, hparent, h₁, h₂⟩

theorem exists_mkdir (hnone : fs.node p = none) (hparent : fs.hasParent p = true) :
    ∃ fs', fs.mkdir p = .ok fs' := by
  rw [mkdir, hnone]
  exact ⟨_, if_pos hparent⟩

theorem write_eq_ok (h : fs.write p bytes = .ok fs') :
    fs'.node p = some (.file bytes) ∧ ∀ q, q ≠ p → fs'.node q = fs.node q := by
  have hbelow : fs.node p ≠ some .dir → ∀ q, p <+: q → p ≠ q → fs.node q = none := by
    intro hp q hpq hne
    by_contra hq
    exact hp (isDir_iff.1 (isDir_above hpq hne hq))
  unfold write at h
  split at h
  · cases h
  · rename_i hnot
    split_ifs at h with hparent
    cases h
    exact node_place_single hparent (hbelow hnot)

/-- A file that exists can be written. -/
theorem exists_write (hp : p ≠ []) (h : fs.fileAt p = some bytes) (bytes' : ByteArray) :
    ∃ fs', fs.write p bytes' = .ok fs' := by
  have hnode := fileAt_eq_some.1 h
  have hparent : fs.hasParent p = true := by
    refine hasParent_iff.2 ⟨hp, isDir_above (List.dropLast_prefix p) (fun heq => ?_) (by simp [hnode])⟩
    have hlength := congrArg List.length heq
    have hpos := List.length_pos_iff.2 hp
    rw [List.length_dropLast] at hlength
    omega
  unfold write
  rw [hnode]
  exact ⟨_, if_pos hparent⟩

theorem unlink_eq_ok (h : fs.unlink p = .ok fs') :
    fs'.node p = none ∧ ∀ q, q ≠ p → fs'.node q = fs.node q := by
  unfold unlink at h
  split at h
  · rename_i old hfile
    cases h
    refine ⟨node_place_empty (List.prefix_refl p), fun q hq => ?_⟩
    by_cases hpq : p <+: q
    · rw [node_place_empty hpq, node_eq_none_of_file (fileAt_eq_some.2 hfile) hpq (Ne.symm hq)]
    · exact node_place_outside hpq
  · cases h
  · rename_i hnone
    split_ifs at h
    cases h
    exact ⟨hnone, fun _ _ => rfl⟩

theorem rmtree_eq_ok (h : fs.rmtree p = .ok fs') :
    fs.isDir p = true ∧ fs' = fs.place p empty := by
  unfold rmtree at h
  split at h
  · rename_i hdir
    cases h
    exact ⟨isDir_iff.2 hdir, rfl⟩
  · cases h
  · cases h

/-- Two paths neither of which is above the other have nothing below both. -/
theorem outside_of_apart (h : ¬ dst <+: src) (h' : ¬ src <+: dst) (hq : src <+: q) :
    ¬ dst <+: q := fun hd => (List.prefix_or_prefix_of_prefix hd hq).elim h h'

theorem move_spec (hsrc : ¬ src <+: dst) (hdst : ¬ dst <+: src) (hparent : fs.hasParent dst = true) :
    (∀ r, ((fs.place src empty).place dst (fs.subtree src)).node (dst ++ r) = fs.node (src ++ r)) ∧
      (∀ q, src <+: q → ((fs.place src empty).place dst (fs.subtree src)).node q = none) ∧
      ∀ q, ¬ src <+: q → ¬ dst <+: q →
        ((fs.place src empty).place dst (fs.subtree src)).node q = fs.node q := by
  have hattach : (fs.place src empty).Attachable dst (fs.subtree src) := by
    refine .inr (.inr (isDir_iff.2 ?_))
    rw [node_place_outside fun h => hsrc (h.trans (List.dropLast_prefix dst))]
    exact isDir_iff.1 (hasParent_iff.1 hparent).2
  refine ⟨fun r => node_place_append hattach, fun q hq => ?_, fun q hs hd => ?_⟩
  · rw [node_place_outside (outside_of_apart hdst hsrc hq), node_place_empty hq]
  · rw [node_place_outside hd, node_place_outside hs]

/-- A tree moves whole, and the target was neither above nor below the source. -/
theorem replace_eq_ok (h : fs.replace src dst = .ok fs') (hne : src ≠ dst) :
    fs.node src ≠ none ∧ ¬ src <+: dst ∧ ¬ dst <+: src ∧ fs.isDir dst = false ∧
      (∀ r, fs'.node (dst ++ r) = fs.node (src ++ r)) ∧
      (∀ q, src <+: q → fs'.node q = none) ∧
      ∀ q, ¬ src <+: q → ¬ dst <+: q → fs'.node q = fs.node q := by
  unfold replace at h
  split at h
  · cases h
  rename_i n hn
  rw [if_neg hne] at h
  split_ifs at h with hparent hpre
  rw [Bool.not_eq_false] at hparent
  have hdir : fs.node dst ≠ some .dir ∧ fs' = (fs.place src empty).place dst (fs.subtree src) := by
    split at h
    · cases h
    · cases h
    · cases h
    · rename_i hfile hfile' hdir'
      refine ⟨fun hd => ?_, by cases h; rfl⟩
      rcases hsrcNode : fs.node src with _ | b | _
      · simp [hsrcNode] at hn
      · exact hfile b (Option.some.inj (hn.symm.trans hsrcNode)) hd
      · exact hdir' (Option.some.inj (hn.symm.trans hsrcNode)) hd
  obtain ⟨hdst, rfl⟩ := hdir
  have hnot : ¬ dst <+: src := fun hd =>
    hdst (isDir_iff.1 (isDir_above hd (Ne.symm hne) (by simp [hn])))
  obtain ⟨h₁, h₂, h₃⟩ := move_spec hpre hnot hparent
  exact ⟨by simp [hn], hpre, hnot, Bool.eq_false_iff.2 fun hd => hdst (isDir_iff.1 hd), h₁, h₂, h₃⟩

theorem changes_mkdir (h : fs.mkdir p = .ok fs') :
    Changes (fun _ => False) (fun _ => False) fs fs' := by
  obtain ⟨hnone, -, hdir, hrest⟩ := mkdir_eq_ok h
  have hfile : ∀ q, fs'.fileAt q = fs.fileAt q := by
    intro q
    by_cases hq : q = p
    · subst hq
      rw [fileAt_eq_none_of_isDir (isDir_iff.2 hdir)]
      simp [fileAt, hnone]
    · exact fileAt_congr (hrest q hq)
  exact ⟨fun q bytes hq _ => (hfile q).trans hq, fun q bytes hq _ => (hfile q).symm.trans hq⟩

theorem changes_write (h : fs.write p bytes = .ok fs') : Changes (· = p) (· = p) fs fs' :=
  .of_node (write_eq_ok h).2

theorem changes_unlink (h : fs.unlink p = .ok fs') : Changes (· = p) (fun _ => False) fs fs' := by
  obtain ⟨hnone, hrest⟩ := unlink_eq_ok h
  refine ⟨(Changes.of_node hrest).keeps, fun q bytes hq _ => ?_⟩
  by_cases hqp : q = p
  · subst hqp
    rw [fileAt, hnone] at hq
    cases hq
  · exact (fileAt_congr (hrest q hqp)).symm.trans hq

theorem changes_rmtree (h : fs.rmtree p = .ok fs') :
    Changes (fun q => p <+: q) (fun _ => False) fs fs' := by
  obtain ⟨-, rfl⟩ := rmtree_eq_ok h
  exact changes_place_empty fs p

/-- Moving a tree onto itself does nothing. -/
theorem replace_self (h : fs.replace src src = .ok fs') : fs' = fs := by
  unfold replace at h
  split at h
  · cases h
  · rw [if_pos rfl] at h
    cases h
    rfl

theorem changes_replace (h : fs.replace src dst = .ok fs') :
    Changes (fun q => src <+: q ∨ dst <+: q) (fun q => dst <+: q) fs fs' := by
  by_cases hne : src = dst
  · subst hne
    rw [replace_self h]
    exact .refl fs
  · obtain ⟨-, -, -, -, -, hgone, hrest⟩ := replace_eq_ok h hne
    refine ⟨fun q bytes hq hl => ?_, fun q bytes hq hn => ?_⟩
    · exact (fileAt_congr (hrest q (fun hs => hl (.inl hs)) fun hd => hl (.inr hd))).trans hq
    · by_cases hs : src <+: q
      · rw [fileAt, hgone q hs] at hq
        cases hq
      · exact (fileAt_congr (hrest q hs hn)).symm.trans hq

/-- A file after a move was there before, or was moved. -/
theorem fileAt_replace_cases (h : fs.replace src dst = .ok fs') (hq : fs'.fileAt q = some bytes) :
    fs.fileAt q = some bytes ∨ ∃ r, q = dst ++ r ∧ fs.fileAt (src ++ r) = some bytes := by
  by_cases hne : src = dst
  · subst hne
    rw [replace_self h] at hq
    exact .inl hq
  · obtain ⟨-, -, -, -, hmoved, -, -⟩ := replace_eq_ok h hne
    by_cases hd : dst <+: q
    · obtain ⟨r, rfl⟩ := hd
      rw [fileAt_congr (hmoved r)] at hq
      exact .inr ⟨r, rfl, hq⟩
    · exact .inl ((changes_replace h).creates q bytes hq hd)

/-- A file that is renamed is at its new place, and no third file is lost. -/
theorem replace_file (h : fs.replace src dst = .ok fs') (hne : src ≠ dst)
    (hsrc : fs.fileAt src = some bytes) :
    fs'.fileAt dst = some bytes ∧ Keeps (fun q => q = src ∨ q = dst) fs fs' := by
  obtain ⟨-, -, -, hdir, hmoved, -, hrest⟩ := replace_eq_ok h hne
  refine ⟨?_, fun q b hq hother => ?_⟩
  · have := fileAt_congr (hmoved [])
    rw [List.append_nil, List.append_nil] at this
    rw [this, hsrc]
  · simp only [not_or] at hother
    have hbelow : ¬ src <+: q := by
      intro hp
      rw [fileAt, node_eq_none_of_file hsrc hp (Ne.symm hother.1)] at hq
      cases hq
    have hbelow' : ¬ dst <+: q := by
      intro hp
      have := isDir_above hp (Ne.symm hother.2) (by rw [fileAt_eq_some.1 hq]; simp)
      rw [hdir] at this
      cases this
    rw [fileAt_congr (hrest q hbelow hbelow'), hq]

end Tree

end FileSystem

end Py
