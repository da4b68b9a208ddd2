import K8Labs.Python.Hoare

/-!
# Trees that are copied, and effects that stay inside a part of the file system

`SameOutside area` relates two file systems that agree outside an area, in files and directories
alike.  However an effect ends,

* `Eff.Confined area` : it changes nothing outside the area,
* `Eff.Within p names` : from a file system with the directory `p`, it changes only what is in the
  directory under one of the names,
* `Eff.Adds` : it changes nothing that exists.

A change below a path is a change of the tree below it: `subtree_place`, `subtree_ensure`.

`copyTree`, `copyFile`, `cleanup` and `withTemporaryDirectory` are calls of `shutil` and `tempfile`.
-/

namespace Py

/-- Two directories side by side have nothing below both. -/
theorem eq_of_below_both {parent q : Path} {name name' : String} (h : parent ++ [name] <+: q)
    (h' : parent ++ [name'] <+: q) : name = name' := by
  have hlength : (parent ++ [name]).length = (parent ++ [name']).length := by simp
  have heq : parent ++ [name] = parent ++ [name'] :=
    (List.prefix_or_prefix_of_prefix h h').elim (·.eq_of_length hlength)
      fun hp => (hp.eq_of_length hlength.symm).symm
  simpa using heq

namespace FileSystem

variable {fs fs' t : FileSystem} {p q r : Path} {area area' : Path → Prop} {bytes : ByteArray}

/-! ### Outside an area -/

/-- What stands outside the area is as before. -/
def SameOutside (area : Path → Prop) (fs fs' : FileSystem) : Prop :=
  ∀ q, ¬ area q → fs'.node q = fs.node q

namespace SameOutside

theorem refl (fs : FileSystem) : SameOutside area fs fs := fun _ _ => rfl

theorem trans {fs'' : FileSystem} (h : SameOutside area fs fs') (h' : SameOutside area fs' fs'') :
    SameOutside area fs fs'' :=
  fun q hq => (h' q hq).trans (h q hq)

theorem mono (h : SameOutside area fs fs') (harea : ∀ q, area q → area' q) :
    SameOutside area' fs fs' :=
  fun q hq => h q fun h => hq (harea q h)

/-- A tree that the area does not reach into is as before. -/
theorem subtree (h : SameOutside area fs fs') (hp : ∀ q, p <+: q → ¬ area q) :
    fs'.subtree p = fs.subtree p :=
  ext_node fun r => h (p ++ r) (hp _ (List.prefix_append p r))

end SameOutside

/-- What exists is as before. -/
def Extends (fs fs' : FileSystem) : Prop := ∀ q n, fs.node q = some n → fs'.node q = some n

theorem Extends.refl (fs : FileSystem) : Extends fs fs := fun _ _ h => h

theorem Extends.trans {fs'' : FileSystem} (h : Extends fs fs') (h' : Extends fs' fs'') :
    Extends fs fs'' :=
  fun q n hq => h' q n (h q n hq)

theorem extends_mkdir (h : fs.mkdir p = .ok fs') : Extends fs fs' := by
  obtain ⟨hnone, -, -, hrest⟩ := mkdir_eq_ok h
  intro q n hq
  rwa [hrest q fun heq => by rw [heq, hnone] at hq; cases hq]

theorem sameOutside_place (fs : FileSystem) (p : Path) (t : FileSystem) :
    SameOutside (p <+: ·) fs (fs.place p t) :=
  fun _ hq => node_place_outside hq

/-- There is nothing to remove where nothing is. -/
theorem place_empty_eq_self (h : fs.node p = none) : fs.place p .empty = fs := by
  refine ext_node fun q => ?_
  by_cases hpq : p <+: q
  · rw [node_place_empty hpq, node_eq_none_below h hpq]
  · exact node_place_outside hpq

theorem sameOutside_mkdir (h : fs.mkdir p = .ok fs') : SameOutside (· = p) fs fs' :=
  (mkdir_eq_ok h).2.2.2

/-! ### The tree below a path -/

/-- The tree that was placed. -/
theorem subtree_place_self (h : fs.Attachable p t) : (fs.place p t).subtree p = t :=
  ext_node fun _ => node_place_append h

theorem subtree_place (hq : q ≠ []) : (fs.place (p ++ q) t).subtree p = (fs.subtree p).place q t := by
  have hattach : fs.Attachable (p ++ q) t ↔ (fs.subtree p).Attachable q t := by
    rw [Attachable, Attachable, List.dropLast_append_of_ne_nil hq, List.append_eq_nil_iff]
    simp only [hq, and_false, false_or]
    rfl
  refine ext_node fun r => ?_
  by_cases h : fs.Attachable (p ++ q) t
  · by_cases hr : q <+: r
    · obtain ⟨s, rfl⟩ := hr
      have hleft := node_place_append (r := s) h
      rw [List.append_assoc] at hleft
      exact hleft.trans (node_place_append (hattach.1 h)).symm
    · have hpr : ¬ p ++ q <+: p ++ r := fun h => hr ((List.prefix_append_right_inj p).1 h)
      have hright : ((fs.subtree p).place q t).node r = (fs.subtree p).node r := node_place_outside hr
      exact (node_place_outside hpr).trans hright.symm
  · rw [place_of_not_attachable h, place_of_not_attachable fun h' => h (hattach.2 h')]

/-- Of two files that are put at one place the second stays. -/
theorem place_place_single (hq : q ≠ []) (n n' : Node) :
    (fs.place q (single n)).place q (single n') = fs.place q (single n') := by
  have hdrop : ¬ q <+: q.dropLast := fun h => by
    have hlength := h.length_le
    have hpos := List.length_pos_iff.2 hq
    rw [List.length_dropLast] at hlength
    omega
  have hdir : ∀ t, (fs.place q t).isDir q.dropLast = fs.isDir q.dropLast := fun t => by
    rw [isDir, node_place_outside hdrop, ← isDir]
  have hattach : ∀ m, fs.Attachable q (single m) ↔ fs.isDir q.dropLast = true := fun m => by
    simp [Attachable, single, hq]
  by_cases h : fs.isDir q.dropLast = true
  · have hattach' : (fs.place q (single n)).Attachable q (single n') := .inr (.inr ((hdir _).trans h))
    refine ext_node fun r => ?_
    by_cases hr : q <+: r
    · obtain ⟨s, rfl⟩ := hr
      rw [node_place_append hattach', node_place_append ((hattach n').2 h)]
    · rw [node_place_outside hr, node_place_outside hr, node_place_outside hr]
  · rw [place_of_not_attachable fun h' => h ((hattach n).1 h')]

/-- A change that is neither above nor below the path. -/
theorem subtree_place_apart (h : ¬ p <+: q) (h' : ¬ q <+: p) :
    (fs.place q t).subtree p = fs.subtree p :=
  (sameOutside_place fs q t).subtree fun _ hr hq =>
    (List.prefix_or_prefix_of_prefix hr hq).elim h h'

theorem subtree_of_file (h : fs.fileAt p = some bytes) : fs.subtree p = single (.file bytes) := by
  refine ext_node fun r => ?_
  by_cases hr : r = []
  · subst hr
    exact (congrArg fs.node (List.append_nil p)).trans (fileAt_eq_some.1 h)
  · exact (node_eq_none_of_file h (List.prefix_append p r) (by simpa using hr)).trans
      (if_neg hr).symm

theorem mkdir_eq_place (h : fs.mkdir p = .ok fs') : fs' = fs.place p (single .dir) := by
  unfold mkdir at h
  split at h
  · cases h
  · split_ifs at h
    exact (Except.ok.inj h).symm

/-- A directory that was just made. -/
theorem subtree_of_mkdir (h : fs.mkdir p = .ok fs') : fs'.subtree p = single .dir := by
  obtain ⟨hnone, -, hdir, hrest⟩ := mkdir_eq_ok h
  refine ext_node fun r => ?_
  by_cases hr : r = []
  · subst hr
    exact (congrArg fs'.node (List.append_nil p)).trans hdir
  · have hne : p ++ r ≠ p := by simpa using hr
    exact ((hrest _ hne).trans (node_eq_none_below hnone (List.prefix_append p r))).trans
      (if_neg hr).symm

/-- A new file in a directory, in terms of the tree that holds it. -/
theorem write_eq_place (h : fs.write p bytes = .ok fs') : fs' = fs.place p (single (.file bytes)) := by
  unfold write at h
  split at h
  · cases h
  · split_ifs at h
    cases h
    rfl

/-- A tree that is moved, as two changes. -/
theorem replace_eq_place {src dst : Path} (h : fs.replace src dst = .ok fs') (hne : src ≠ dst) :
    fs' = (fs.place src empty).place dst (fs.subtree src) := by
  unfold replace at h
  split at h
  · cases h
  · rw [if_neg hne] at h
    split_ifs at h
    split at h
    · cases h
    · cases h
    · cases h
    · exact (Except.ok.inj h).symm

/-! ### Directories that are made where they are missing -/

/-- A directory is made where nothing stands. -/
def ensure (fs : FileSystem) (p : Path) : FileSystem :=
  if fs.present p then fs else fs.place p (single .dir)

/-- The directories below `done`, from the top. -/
def ensureBelow (fs : FileSystem) (done : Path) : List String → FileSystem
  | [] => fs
  | name :: names => (fs.ensure (done ++ [name])).ensureBelow (done ++ [name]) names

theorem ensure_of_isDir (h : fs.isDir p = true) : fs.ensure p = fs :=
  if_pos (present_of_node (isDir_iff.1 h))

theorem sameOutside_ensure (fs : FileSystem) (p : Path) : SameOutside (· = p) fs (fs.ensure p) := by
  unfold ensure
  split_ifs with hpresent
  · exact .refl fs
  · intro q hq
    have hnone : fs.node p = none := by simpa [present] using hpresent
    by_cases hattach : fs.Attachable p (single .dir)
    · by_cases hpq : p <+: q
      · obtain ⟨r, rfl⟩ := hpq
        rw [node_place_append hattach, node_eq_none_below hnone (List.prefix_append p r)]
        exact if_neg (by simpa using hq)
      · exact node_place_outside hpq
    · rw [place_of_not_attachable hattach]

theorem subtree_ensure (hq : q ≠ []) : (fs.ensure (p ++ q)).subtree p = (fs.subtree p).ensure q := by
  unfold ensure
  rw [show (fs.subtree p).present q = fs.present (p ++ q) from rfl]
  split_ifs
  · rfl
  · exact subtree_place hq

theorem subtree_ensureBelow (done : Path) (names : List String) :
    (fs.ensureBelow (p ++ done) names).subtree p = (fs.subtree p).ensureBelow done names := by
  induction names generalizing fs done with
  | nil => rfl
  | cons name names ih =>
    rw [ensureBelow, ensureBelow, List.append_assoc, ih, subtree_ensure (by simp)]

/-- What is a directory already needs nothing made above it. -/
theorem ensureBelow_append (done names rest : Path) (h : fs.isDir (done ++ names) = true) :
    fs.ensureBelow done (names ++ rest) = fs.ensureBelow (done ++ names) rest := by
  induction names generalizing done with
  | nil => rw [List.nil_append, List.append_nil]
  | cons name names ih =>
    have hdir : fs.isDir (done ++ [name]) = true := by
      by_cases hnames : names = []
      · rwa [hnames] at h
      · refine isDir_above (q := done ++ name :: names) ⟨names, by simp⟩ (by simp [Ne.symm hnames]) ?_
        rw [isDir_iff.1 h]
        simp
    rw [List.cons_append, ensureBelow, ensure_of_isDir hdir, ih _ (by simpa using h),
      List.append_assoc, List.singleton_append]

end FileSystem

/-! ### Effects inside an area -/

namespace Eff

variable {α β : Type} {area area' : Path → Prop} {x : Eff α} {f : α → Eff β}

theorem bind_lift_of_ok {r : Except Exc α} {a : α} {w : World} (h : r = .ok a) :
    (lift r >>= f) w = f a w := by
  subst h
  exact bind_of_ok rfl

/-- However the effect ends, what stands outside the area is as before. -/
def Confined (area : Path → Prop) (x : Eff α) : Prop :=
  ∀ w, FileSystem.SameOutside area w.fs (x w).2.fs

theorem Confined.same {w w' : World} {r : Except Exc α} (h : Confined area x) (hx : x w = (r, w')) :
    FileSystem.SameOutside area w.fs w'.fs := by
  have := h w
  rwa [hx] at this

/-- An effect that changes nothing. -/
theorem Confined.eq {w w' : World} {r : Except Exc α} (h : Confined (fun _ => False) x)
    (hx : x w = (r, w')) : w'.fs = w.fs :=
  FileSystem.ext_node fun q => h.same hx q id

theorem Confined.mono (h : Confined area x) (harea : ∀ q, area q → area' q) : Confined area' x :=
  fun w => (h w).mono harea

theorem confined_lift (r : Except Exc α) : Confined area (lift r) := fun w => .refl w.fs

theorem confined_pure (a : α) : Confined area (pure a) := confined_lift _

theorem confined_throw (e : Exc) : Confined area (throw e : Eff α) := fun w => .refl w.fs

theorem Confined.bind (hx : Confined area x) (hf : ∀ a, Confined area (f a)) :
    Confined area (x >>= f) := by
  intro w
  have h := hx w
  obtain ⟨r, w', hr⟩ : ∃ r w', x w = (r, w') := ⟨_, _, rfl⟩
  rw [hr] at h
  cases r with
  | ok a =>
    rw [bind_of_ok hr]
    exact h.trans (hf a w')
  | error e =>
    rw [bind_of_error hr]
    exact h

theorem confined_forEach {g : α → Eff Unit} {xs : List α} (h : ∀ x ∈ xs, Confined area (g x)) :
    Confined area (forEach g xs) := by
  induction xs with
  | nil => exact confined_pure ()
  | cons x xs ih =>
    exact (h x List.mem_cons_self).bind fun _ => ih fun y hy => h y (List.mem_cons_of_mem _ hy)

/-- A comprehension. -/
def collect (f : α → Eff β) : List α → Eff (List β)
  | [] => pure []
  | x :: xs => do
    let b ← f x
    let bs ← collect f xs
    pure (b :: bs)

/-- From a file system with the directory, however the effect ends, it changes only what is in the
directory under one of the names. -/
def Within (p : Path) (names : List String) (x : Eff α) : Prop :=
  ∀ w, w.fs.isDir p = true →
    FileSystem.SameOutside (fun q => ∃ name ∈ names, p ++ [name] <+: q) w.fs (x w).2.fs

section Within

variable {p : Path} {names names' : List String}

theorem Within.same {w w' : World} {r : Except Exc α} (h : Within p names x)
    (hdir : w.fs.isDir p = true) (hx : x w = (r, w')) :
    FileSystem.SameOutside (fun q => ∃ name ∈ names, p ++ [name] <+: q) w.fs w'.fs := by
  have := h w hdir
  rwa [hx] at this

/-- The directory itself stays. -/
theorem Within.isDir {w w' : World} {r : Except Exc α} (h : Within p names x)
    (hdir : w.fs.isDir p = true) (hx : x w = (r, w')) : w'.fs.isDir p = true := by
  rw [FileSystem.isDir_iff, h.same hdir hx, FileSystem.isDir_iff.1 hdir]
  rintro ⟨name, -, hle⟩
  simpa using hle.length_le

/-- The trees of the other names stay. -/
theorem Within.subtree {w w' : World} {r : Except Exc α} {name : String} {q : Path}
    (h : Within p names x) (hdir : w.fs.isDir p = true) (hx : x w = (r, w')) (hname : name ∉ names) :
    w'.fs.subtree (p ++ name :: q) = w.fs.subtree (p ++ name :: q) := by
  refine (h.same hdir hx).subtree ?_
  rintro r hr ⟨other, hother, hle⟩
  have hhere : p ++ [name] <+: r := .trans ⟨q, by simp⟩ hr
  exact hname (eq_of_below_both hhere hle ▸ hother)

theorem Within.mono (h : Within p names x) (hnames : ∀ name ∈ names, name ∈ names') :
    Within p names' x :=
  fun w hdir => (h w hdir).mono fun _ ⟨name, hname, hle⟩ => ⟨name, hnames name hname, hle⟩

theorem Confined.within (h : Confined area x) (harea : ∀ q, area q → ∃ name ∈ names, p ++ [name] <+: q) :
    Within p names x :=
  fun w _ => (h w).mono harea

theorem within_lift (r : Except Exc α) : Within p names (lift r) := fun w _ => .refl w.fs

theorem within_pure (a : α) : Within p names (pure a) := within_lift _

theorem within_throw (e : Exc) : Within p names (throw e : Eff α) := fun w _ => .refl w.fs

theorem Within.bind (hx : Within p names x) (hf : ∀ a, Within p names (f a)) :
    Within p names (x >>= f) := by
  intro w hdir
  obtain ⟨r, w', hr⟩ : ∃ r w', x w = (r, w') := ⟨_, _, rfl⟩
  cases r with
  | ok a =>
    rw [bind_of_ok hr]
    exact (hx.same hdir hr).trans (hf a w' (hx.isDir hdir hr))
  | error e =>
    rw [bind_of_error hr]
    exact hx.same hdir hr

theorem within_forEach {g : α → Eff Unit} {xs : List α} (h : ∀ x ∈ xs, Within p names (g x)) :
    Within p names (forEach g xs) := by
  induction xs with
  | nil => exact within_pure ()
  | cons x xs ih =>
    exact (h x List.mem_cons_self).bind fun _ => ih fun y hy => h y (List.mem_cons_of_mem _ hy)

theorem within_collect {xs : List α} (h : ∀ x ∈ xs, Within p names (f x)) :
    Within p names (collect f xs) := by
  induction xs with
  | nil => exact within_pure []
  | cons x xs ih =>
    exact (h x List.mem_cons_self).bind fun _ =>
      (ih fun y hy => h y (List.mem_cons_of_mem _ hy)).bind fun _ => within_pure _

end Within

/-- However the effect ends, what exists is as before. -/
def Adds (x : Eff α) : Prop := ∀ w, FileSystem.Extends w.fs (x w).2.fs

theorem adds_pure (a : α) : Adds (pure a) := fun w => .refl w.fs

theorem Adds.bind (hx : Adds x) (hf : ∀ a, Adds (f a)) : Adds (x >>= f) := by
  intro w
  have h := hx w
  obtain ⟨r, w', hr⟩ : ∃ r w', x w = (r, w') := ⟨_, _, rfl⟩
  rw [hr] at h
  cases r with
  | ok a =>
    rw [bind_of_ok hr]
    exact h.trans (hf a w')
  | error e =>
    rw [bind_of_error hr]
    exact h

theorem Adds.extends {w w' : World} {r : Except Exc α} (h : Adds x) (hx : x w = (r, w')) :
    FileSystem.Extends w.fs w'.fs := by
  have := h w
  rwa [hx] at this

end Eff

section Calls

variable (env : Env) {α : Type}

/-- `path.mkdir()`. -/
def makeDir (p : Path) : Eff Unit := change env (fun fs => fs.mkdir p) fun _ fs => fs

/-- `path.mkdir(parents=True)`. -/
def makeDirs (p : Path) : Eff Unit := do
  mkdirs env p.dropLast
  makeDir env p

/-- `shutil.copytree` of a tree that is somewhere else; a broken off copy has made the directories
above its target and left some tree there. -/
def copyTree (tree : FileSystem → FileSystem) (destination : Path) : Eff Unit := do
  mkdirs env destination.dropLast
  change env (fun fs => (fs.mkdir destination).map fun fs' => fs'.place destination (tree fs))
    fun i fs => fs.place destination i.tree

/-- `shutil.copyfile` of a file that is somewhere else. -/
def copyFile (src dst : Path) : Eff Unit := do
  let bytes ← inspect env fun fs => fs.read src
  writeFile env dst bytes

/-- `path.stat().st_size` of a file. -/
def fileSize (p : Path) : Eff ℕ := inspect env fun fs => (fs.read p).map ByteArray.size

/-- `path.chmod`; the mode is not part of the file system. -/
def chmod (p : Path) : Eff Unit :=
  inspect env fun fs => if fs.present p then .ok () else .error (fs.missing p)

/-- `TemporaryDirectory.cleanup`; a directory that is gone is no error. -/
def cleanup (p : Path) : Eff Unit :=
  change env (fun fs => if fs.present p then fs.rmtree p else .ok fs) fun i fs =>
    i.removed.foldl (fun fs r => fs.place (p ++ r) .empty) fs

/-- `with tempfile.TemporaryDirectory(prefix=label, dir=dir)`. -/
def withTemporaryDirectory (dir : Path) (label : String) (body : Path → Eff α) : Eff α := do
  let p ← mkdtemp env dir label
  (body p).tryFinally (cleanup env p)

variable {env} {area : Path → Prop} {broken : Interruption → FileSystem → FileSystem}

theorem confined_call {step : ℕ → FileSystem → Except Exc (α × FileSystem)}
    (hstep : ∀ n fs a fs', step n fs = .ok (a, fs') → fs.SameOutside area fs')
    (hbroken : ∀ i (fs : FileSystem), fs.SameOutside area (broken i fs)) :
    (call env step broken).Confined area := by
  intro w
  unfold call
  split
  · exact hbroken _ w.fs
  · split
    · rename_i h
      exact hstep _ _ _ _ h
    · exact .refl w.fs

theorem confined_inspect (f : FileSystem → Except Exc α) : (inspect env f).Confined area := by
  refine confined_call (fun n fs a fs' h => ?_) fun _ fs => .refl fs
  obtain ⟨b, -, heq⟩ := map_eq_ok.1 h
  cases heq
  exact .refl fs

theorem confined_change {f : FileSystem → Except Exc FileSystem}
    (hf : ∀ fs fs', f fs = .ok fs' → fs.SameOutside area fs')
    (hbroken : ∀ i (fs : FileSystem), fs.SameOutside area (broken i fs)) :
    (change env f broken).Confined area := by
  refine confined_call (fun n fs a fs' h => ?_) hbroken
  obtain ⟨fs'', hfs, heq⟩ := map_eq_ok.1 h
  cases heq
  exact hf fs fs' hfs

theorem confined_makeDir (p : Path) : (makeDir env p).Confined (· = p) :=
  confined_change (fun _ _ h => FileSystem.sameOutside_mkdir h) fun _ fs => .refl fs

theorem confined_ensureDir (p : Path) : (ensureDir env p).Confined (· = p) := by
  refine confined_change (fun fs fs' h => ?_) fun _ fs => .refl fs
  split_ifs at h
  · cases h
    exact .refl fs
  · exact FileSystem.sameOutside_mkdir h

theorem confined_mkdirsBelow (done : Path) (names : List String) :
    (mkdirsBelow env done names).Confined fun q => done <+: q ∧ q <+: done ++ names ∧ q ≠ done := by
  induction names generalizing done with
  | nil => exact Eff.confined_pure ()
  | cons name names ih =>
    refine ((confined_ensureDir _).mono ?_).bind fun _ => (ih _).mono ?_
    · rintro q rfl
      exact ⟨List.prefix_append _ _, ⟨names, by simp⟩, by simp⟩
    · rintro q ⟨hdone, hle, -⟩
      refine ⟨(List.prefix_append _ _).trans hdone, by simpa using hle, fun heq => ?_⟩
      have := hdone.length_le
      rw [heq] at this
      simp at this

theorem confined_mkdirs (p : Path) : (mkdirs env p).Confined fun q => q <+: p ∧ q ≠ [] :=
  (confined_mkdirsBelow [] p).mono fun _ hq => hq.2

theorem adds_ensureDir (p : Path) : (ensureDir env p).Adds := by
  intro w
  obtain ⟨r, w', h⟩ : ∃ r w', ensureDir env p w = (r, w') := ⟨_, _, rfl⟩
  rw [h]
  cases r with
  | ok _ =>
    have hfs := change_eq_ok h
    split_ifs at hfs
    · rw [← Except.ok.inj hfs]
      exact .refl _
    · exact FileSystem.extends_mkdir hfs
  | error e =>
    rw [change_eq_error h]
    exact .refl _

theorem adds_mkdirs (p : Path) : (mkdirs env p).Adds := by
  have key : ∀ done names, (mkdirsBelow env done names).Adds := by
    intro done names
    induction names generalizing done with
    | nil => exact Eff.adds_pure ()
    | cons name names ih => exact (adds_ensureDir _).bind fun _ => ih _
  exact key [] p

theorem adds_makeDirs (p : Path) : (makeDirs env p).Adds := by
  refine (adds_mkdirs _).bind fun _ w => ?_
  obtain ⟨r, w', h⟩ : ∃ r w', makeDir env p w = (r, w') := ⟨_, _, rfl⟩
  rw [h]
  cases r with
  | ok _ => exact FileSystem.extends_mkdir (change_eq_ok h)
  | error e =>
    rw [change_eq_error h]
    exact .refl _

/-- Directories that are made below a directory. -/
theorem within_mkdirs {p q : Path} {name : String} {names : List String} (hname : name ∈ names)
    (hq : p ++ [name] <+: q ∨ q <+: p) : (mkdirs env q).Within p names := by
  intro w hdir r hr
  by_cases hle : r <+: q
  · -- such a path is above the directory, so it exists already
    have habove : r <+: p := by
      rcases hq with hq | hq
      · rcases List.prefix_or_prefix_of_prefix hle hq with h | h
        · rcases List.prefix_concat_iff.1 h with rfl | h
          · exact absurd ⟨name, hname, List.prefix_refl _⟩ hr
          · exact h
        · exact absurd ⟨name, hname, h⟩ hr
      · exact hle.trans hq
    have hisDir : w.fs.isDir r = true := by
      by_cases hrp : r = p
      · rwa [hrp]
      · refine FileSystem.isDir_above habove hrp ?_
        rw [FileSystem.isDir_iff.1 hdir]
        simp
    rw [FileSystem.isDir_iff.1 hisDir]
    exact adds_mkdirs q w r .dir (FileSystem.isDir_iff.1 hisDir)
  · exact confined_mkdirs q w r fun h => hle h.1

theorem confined_makeDirs (p : Path) : (makeDirs env p).Confined (· <+: p) := by
  refine ((confined_mkdirs _).mono fun q hq => hq.1.trans (List.dropLast_prefix p)).bind fun _ =>
    (confined_makeDir p).mono ?_
  rintro q rfl
  exact List.prefix_refl q

theorem confined_writeFile (p : Path) (bytes : ByteArray) :
    (writeFile env p bytes).Confined (· = p) := by
  refine confined_change (fun fs fs' h => (FileSystem.write_eq_ok h).2) fun i fs => ?_
  split
  · rename_i h
    exact (FileSystem.write_eq_ok h).2
  · exact .refl fs

theorem confined_copyFile (src dst : Path) : (copyFile env src dst).Confined (· = dst) :=
  (confined_inspect _).bind fun _ => confined_writeFile _ _

theorem confined_copyTree (tree : FileSystem → FileSystem) (destination : Path) :
    (copyTree env tree destination).Confined fun q => q <+: destination ∨ destination <+: q := by
  refine ((confined_mkdirs _).mono fun q hq => .inl (hq.1.trans (List.dropLast_prefix _))).bind
    fun _ => confined_change (fun fs fs' h => ?_) fun i fs => ?_
  · obtain ⟨made, hmade, rfl⟩ := map_eq_ok.1 h
    refine ((FileSystem.sameOutside_mkdir hmade).mono ?_).trans
      ((FileSystem.sameOutside_place _ _ _).mono fun q hq => .inr hq)
    rintro q rfl
    exact .inl (List.prefix_refl q)
  · exact (FileSystem.sameOutside_place _ _ _).mono fun q hq => .inr hq

theorem confined_osReplace (src dst : Path) :
    (osReplace env src dst).Confined fun q => src <+: q ∨ dst <+: q := by
  refine confined_change (fun fs fs' h => ?_) fun _ fs => .refl fs
  by_cases hne : src = dst
  · subst hne
    rw [FileSystem.replace_self h]
    exact .refl fs
  · obtain ⟨-, -, -, -, -, -, hrest⟩ := FileSystem.replace_eq_ok h hne
    exact fun q hq => hrest q (fun hs => hq (.inl hs)) fun hd => hq (.inr hd)

theorem sameOutside_removed (p : Path) (removed : List Path) (fs : FileSystem) :
    fs.SameOutside (p <+: ·) (removed.foldl (fun fs r => fs.place (p ++ r) .empty) fs) := by
  induction removed generalizing fs with
  | nil => exact .refl fs
  | cons r rs ih =>
    exact ((FileSystem.sameOutside_place _ _ _).mono fun q hq => (List.prefix_append p r).trans hq).trans
      (ih _)

theorem sameOutside_rmtree {fs fs' : FileSystem} {p : Path} (h : fs.rmtree p = .ok fs') :
    fs.SameOutside (p <+: ·) fs' := by
  obtain ⟨-, rfl⟩ := FileSystem.rmtree_eq_ok h
  exact FileSystem.sameOutside_place _ _ _

theorem confined_removeTree (p : Path) : (removeTree env p).Confined (p <+: ·) :=
  confined_change (fun _ _ h => sameOutside_rmtree h) fun i fs => sameOutside_removed p i.removed fs

theorem confined_cleanup (p : Path) : (cleanup env p).Confined (p <+: ·) := by
  refine confined_change (fun fs fs' h => ?_) fun i fs => sameOutside_removed p i.removed fs
  split_ifs at h
  · exact sameOutside_rmtree h
  · cases h
    exact .refl fs

/-- Where the directory is gone, a clean-up changes nothing, however it ends. -/
theorem cleanup_of_missing {p : Path} {w w' : World} {r : Except Exc Unit} (hp : w.fs.node p = none)
    (h : cleanup env p w = (r, w')) : w'.fs = w.fs := by
  have hremoved : ∀ removed : List Path,
      removed.foldl (fun fs r => fs.place (p ++ r) .empty) w.fs = w.fs := by
    intro removed
    induction removed with
    | nil => rfl
    | cons r rs ih =>
      have hbelow := FileSystem.node_eq_none_below hp (List.prefix_append p r)
      rw [List.foldl_cons, FileSystem.place_empty_eq_self hbelow, ih]
  have habsent : w.fs.present p = false := by simp [FileSystem.present, hp]
  simp only [cleanup, change, call, habsent, Bool.false_eq_true, if_false] at h
  split at h
  · obtain ⟨-, rfl⟩ := Prod.mk.inj h
    exact hremoved _
  · cases h
    rfl

/-! ### Calls that return -/

/-- Without a slash in its label, a temporary directory is directly in its parent. -/
theorem temporaryPath_eq {parent : Path} {label : String} {token : Token}
    (hlabel : '/' ∉ label.toList) :
    temporaryPath parent label token = parent ++ [label ++ token.text] := by
  have hnone : ∀ c ∈ (label ++ token.text).toList, c ≠ '/' := by
    rintro c hc rfl
    rcases List.mem_append.1 (String.toList_append ▸ hc) with hc | hc
    · exact hlabel hc
    · exact token.no_slash hc
  have hsplit : splitName (label ++ token.text) = ([], (label ++ token.text).toList) := by
    have hall : ∀ c ∈ (label ++ token.text).toList.reverse, (c != '/') = true := fun c hc =>
      bne_iff_ne.2 (hnone c (List.mem_reverse.1 hc))
    rw [splitName, List.dropWhile_eq_nil_iff.2 hall, List.takeWhile_eq_self_iff.2 hall,
      List.reverse_reverse]
    rfl
  have hrelative : isAbsolute (label ++ token.text) = false := by
    by_contra h
    rw [isAbsolute, Bool.not_eq_false, beq_iff_eq] at h
    exact hnone '/' (List.mem_of_head? h) rfl
  simp [temporaryPath, joinTarget, hsplit, hrelative, stepInto]

variable {w w' : World}

theorem mkdir_of_makeDir {p : Path} (h : makeDir env p w = (.ok (), w')) :
    w.fs.mkdir p = .ok w'.fs := change_eq_ok h

theorem mkdirsBelow_eq_ok {done : Path} {names : List String}
    (h : mkdirsBelow env done names w = (.ok (), w')) : w'.fs = w.fs.ensureBelow done names := by
  induction names generalizing done w with
  | nil =>
    obtain ⟨-, rfl⟩ := Eff.pure_eq_ok h
    rfl
  | cons name names ih =>
    obtain ⟨⟨⟩, w₁, hfirst, hrest⟩ := Eff.bind_eq_ok h
    rw [ih hrest, FileSystem.ensureBelow]
    congr 1
    have hfs := change_eq_ok hfirst
    split_ifs at hfs with hdir
    · rw [FileSystem.ensure_of_isDir hdir]
      exact (Except.ok.inj hfs).symm
    · rw [FileSystem.ensure, if_neg (FileSystem.not_present (FileSystem.mkdir_eq_ok hfs).1)]
      exact FileSystem.mkdir_eq_place hfs

/-- Directories that are made below one that exists, in terms of the tree below it. -/
theorem subtree_of_mkdirs {p : Path} {names : List String} (hdir : w.fs.isDir p = true)
    (h : mkdirs env (p ++ names) w = (.ok (), w')) :
    w'.fs.subtree p = (w.fs.subtree p).ensureBelow [] names := by
  rw [mkdirsBelow_eq_ok h, FileSystem.ensureBelow_append [] p names hdir, List.nil_append]
  have hbelow : (w.fs.ensureBelow (p ++ []) names).subtree p = (w.fs.subtree p).ensureBelow [] names :=
    FileSystem.subtree_ensureBelow [] names
  rwa [List.append_nil] at hbelow

theorem subtree_of_writeFile {p q : Path} {bytes : ByteArray} (hq : q ≠ [])
    (h : writeFile env (p ++ q) bytes w = (.ok (), w')) :
    w'.fs.subtree p = (w.fs.subtree p).place q (.single (.file bytes)) := by
  rw [FileSystem.write_eq_place (change_eq_ok h), FileSystem.subtree_place hq]

theorem copyFile_eq_ok {src dst : Path} (h : copyFile env src dst w = (.ok (), w')) :
    ∃ bytes w₁, w.fs.fileAt src = some bytes ∧ w₁.fs = w.fs ∧
      writeFile env dst bytes w₁ = (.ok (), w') := by
  obtain ⟨bytes, w₁, hread, hwrite⟩ := Eff.bind_eq_ok h
  obtain ⟨hbytes, hfs⟩ := inspect_eq_ok hread
  exact ⟨bytes, w₁, FileSystem.read_eq_ok.1 hbytes, hfs, hwrite⟩

theorem fileSize_eq_ok {p : Path} {n : ℕ} (h : fileSize env p w = (.ok n, w')) :
    (∃ bytes, w.fs.fileAt p = some bytes ∧ bytes.size = n) ∧ w'.fs = w.fs := by
  obtain ⟨hsize, hfs⟩ := inspect_eq_ok h
  obtain ⟨bytes, hbytes, hn⟩ := map_eq_ok.1 hsize
  exact ⟨⟨bytes, FileSystem.read_eq_ok.1 hbytes, hn⟩, hfs⟩

/-- The copy stands at its target, and nothing else has changed but directories above it. -/
theorem copyTree_eq_ok {tree : FileSystem → FileSystem} {destination : Path}
    (h : copyTree env tree destination w = (.ok (), w')) :
    ∃ w₁, mkdirs env destination.dropLast w = (.ok (), w₁) ∧
      w'.fs.subtree destination = tree w₁.fs := by
  obtain ⟨⟨⟩, w₁, hmkdirs, h⟩ := Eff.bind_eq_ok h
  obtain ⟨made, hmade, hfs⟩ := map_eq_ok.1 (change_eq_ok h)
  refine ⟨w₁, hmkdirs, ?_⟩
  obtain ⟨-, hparent, hdir, hrest⟩ := FileSystem.mkdir_eq_ok hmade
  obtain ⟨hne, hisDir⟩ := FileSystem.hasParent_iff.1 hparent
  have hdrop : destination.dropLast ≠ destination := by
    intro heq
    have hlength := congrArg List.length heq
    have hpos := List.length_pos_iff.2 hne
    rw [List.length_dropLast] at hlength
    omega
  have hmadeDir : made.isDir destination.dropLast = true := by
    rw [FileSystem.isDir_iff, hrest _ hdrop, FileSystem.isDir_iff.1 hisDir]
  rw [← hfs]
  exact FileSystem.subtree_place_self (.inr (.inr hmadeDir))

/-- The directory is made, the body runs, and the directory is removed. -/
theorem withTemporaryDirectory_cases {α : Type} {dir : Path} {label : String} {body : Path → Eff α}
    {r : Except Exc α} (h : withTemporaryDirectory env dir label body w = (r, w')) :
    ((∀ a, r ≠ .ok a) ∧ w'.fs = w.fs) ∨
    ∃ token w₁ r₁ w₂ r₂, w.fs.mkdir (temporaryPath dir label token) = .ok w₁.fs ∧
      body (temporaryPath dir label token) w₁ = (r₁, w₂) ∧
      cleanup env (temporaryPath dir label token) w₂ = (r₂, w') ∧
      ∀ a, r = .ok a → r₁ = .ok a ∧ r₂ = .ok () := by
  obtain ⟨r₀, w₁, hfirst⟩ : ∃ r w₁, mkdtemp env dir label w = (r, w₁) := ⟨_, _, rfl⟩
  unfold withTemporaryDirectory at h
  cases r₀ with
  | error e =>
    rw [Eff.bind_of_error hfirst] at h
    cases h
    refine .inl ⟨by simp, ?_⟩
    simp only [mkdtemp, call] at hfirst
    split at hfirst
    · cases hfirst
      rfl
    · split at hfirst
      · cases hfirst
      · cases hfirst
        rfl
  | ok p =>
    rw [Eff.bind_of_ok hfirst] at h
    obtain ⟨rfl, hmkdir⟩ := mkdtemp_eq_ok hfirst
    obtain ⟨r₁, w₂, hbody⟩ : ∃ r w₂, body (temporaryPath dir label (env.token w.clock)) w₁ =
      (r, w₂) := ⟨_, _, rfl⟩
    obtain ⟨r₂, w₃, hclean⟩ : ∃ r w₃, cleanup env
      (temporaryPath dir label (env.token w.clock)) w₂ = (r, w₃) := ⟨_, _, rfl⟩
    simp only [Eff.tryFinally, hbody, hclean] at h
    refine .inr ⟨env.token w.clock, w₁, r₁, w₂, r₂, hmkdir, hbody, ?_⟩
    cases r₂ with
    | ok _ =>
      cases h
      exact ⟨hclean, fun a ha => ⟨ha, rfl⟩⟩
    | error e =>
      cases h
      exact ⟨hclean, by simp⟩

end Calls

end Py
