import K8Labs.Python.Os

/-!
# Pre- and postconditions

Two ways to say what an effect does from a world that meets a condition:

* `Eff.Ends` : however it ends; one postcondition for a return, one for an exception.
* `Eff.Returns` : it returns, and the postcondition holds.

The rules follow the shape of the program.  `Absent` is about files that are not there and are not
created (`Eff.Touches.ends_absent`, `ends_absent_osReplace`).  `Writable` is a directory whose files can be written,
renamed and removed; in an environment that breaks nothing off, the calls on it return.
-/

namespace Py

namespace Eff

variable {α β : Type} {x : Eff α} {f : α → Eff β} {w : World}

/-! ### However it ends -/

/-- From worlds with `pre`, the effect ends in `post` when it returns and in `raised` when it
raises. -/
def Ends (pre : World → Prop) (x : Eff α) (post : α → World → Prop) (raised : World → Prop) : Prop :=
  ∀ w, pre w → match x w with
    | (.ok a, w') => post a w'
    | (.error _, w') => raised w'

section Ends

variable {pre mid : World → Prop} {post : β → World → Prop} {raised : World → Prop}

theorem Ends.of_error {post : α → World → Prop} {w' : World} {e : Exc} (h : Ends pre x post raised)
    (hw : pre w) (hx : x w = (.error e, w')) : raised w' := by
  have := h w hw
  rwa [hx] at this

theorem Ends.of_ok {post : α → World → Prop} {w' : World} {a : α} (h : Ends pre x post raised)
    (hw : pre w) (hx : x w = (.ok a, w')) : post a w' := by
  have := h w hw
  rwa [hx] at this

/-- What holds of every world the effect can end in. -/
theorem Ends.of_all {post : α → World → Prop}
    (h : ∀ w r w', pre w → x w = (r, w') →
      match r with
      | .ok a => post a w'
      | .error _ => raised w') : Ends pre x post raised := by
  intro w hw
  obtain ⟨r, w', hx⟩ : ∃ r w', x w = (r, w') := ⟨_, _, rfl⟩
  have := h w r w' hw hx
  rw [hx]
  cases r <;> exact this

theorem Ends.weaken {pre' : World → Prop} {post : α → World → Prop} (h : Ends pre x post raised)
    (hpre : ∀ w, pre' w → pre w) : Ends pre' x post raised :=
  fun w hw => h w (hpre w hw)

theorem Ends.imp_raised {post : α → World → Prop} {raised' : World → Prop}
    (h : Ends pre x post raised) (hraised : ∀ w, raised w → raised' w) :
    Ends pre x post raised' := by
  refine .of_all fun w r w' hw hx => ?_
  cases r with
  | ok a => exact h.of_ok hw hx
  | error e => exact hraised w' (h.of_error hw hx)

theorem Ends.bind {mid : α → World → Prop} (hx : Ends pre x mid raised)
    (hf : ∀ a, Ends (mid a) (f a) post raised) : Ends pre (x >>= f) post raised := by
  refine .of_all fun w r w' hw h => ?_
  obtain ⟨first, w₁, hfirst⟩ : ∃ r w₁, x w = (r, w₁) := ⟨_, _, rfl⟩
  cases first with
  | ok a =>
    rw [bind_of_ok hfirst] at h
    have := hf a w₁ (hx.of_ok hw hfirst)
    rw [h] at this
    cases r <;> exact this
  | error e =>
    rw [bind_of_error hfirst] at h
    cases h
    exact hx.of_error hw hfirst

theorem Ends.tryCatch {post : α → World → Prop} {caught : World → Prop} {handler : Exc → Eff α}
    (hx : Ends pre x post caught) (hh : ∀ e, Ends caught (handler e) post raised) :
    Ends pre (Eff.tryCatch x handler) post raised := by
  intro w hw
  have hfirst := hx w hw
  unfold Eff.tryCatch
  obtain ⟨first, w₁, heq⟩ : ∃ r w₁, x w = (r, w₁) := ⟨_, _, rfl⟩
  rw [heq] at hfirst ⊢
  cases first with
  | ok a => exact hfirst
  | error e => exact hh e w₁ hfirst

/-- The computation without effects raises, or its value is known in what follows. -/
theorem ends_bind_lift {r : Except Exc α} (hraise : ∀ w, pre w → raised w)
    (h : ∀ a, r = .ok a → Ends pre (f a) post raised) : Ends pre (lift r >>= f) post raised := by
  cases r with
  | ok a => exact h a rfl
  | error e => exact fun w hw => hraise w hw

theorem Ends.tryFinally {post : α → World → Prop} {last : Eff Unit} (hx : Ends pre x post raised)
    (hpost : ∀ a, Ends (post a) last (fun _ => post a) raised)
    (hraised : Ends raised last (fun _ => raised) raised) :
    Ends pre (Eff.tryFinally x last) post raised := by
  refine .of_all fun w r w' hw h => ?_
  obtain ⟨first, w₁, hfirst⟩ : ∃ r w₁, x w = (r, w₁) := ⟨_, _, rfl⟩
  obtain ⟨second, w₂, hsecond⟩ : ∃ r w₂, last w₁ = (r, w₂) := ⟨_, _, rfl⟩
  simp only [Eff.tryFinally, hfirst, hsecond] at h
  cases first with
  | ok a =>
    have hafter := hpost a w₁ (hx.of_ok hw hfirst)
    rw [hsecond] at hafter
    cases second <;> (cases h; exact hafter)
  | error e =>
    have hafter := hraised w₁ (hx.of_error hw hfirst)
    rw [hsecond] at hafter
    cases second <;> (cases h; exact hafter)

/-- An invariant of every step is an invariant of the loop. -/
theorem ends_forEach {f : α → Eff Unit} {xs : List α}
    (h : ∀ x ∈ xs, Ends pre (f x) (fun _ => pre) pre) :
    Ends pre (forEach f xs) (fun _ => pre) pre := by
  induction xs with
  | nil => exact fun w hw => hw
  | cons x xs ih =>
    exact (h x List.mem_cons_self).bind fun _ => ih fun y hy => h y (List.mem_cons_of_mem _ hy)

end Ends

/-! ### When it returns -/

/-- The effect returns, in a world and with a value that meet the condition. -/
def Returns (x : Eff α) (w : World) (post : α → World → Prop) : Prop :=
  ∃ a w', x w = (.ok a, w') ∧ post a w'

section Returns

variable {mid : α → World → Prop} {post : β → World → Prop}

theorem returns_pure {post : α → World → Prop} {a : α} (h : post a w) : Returns (pure a) w post :=
  ⟨a, w, rfl, h⟩

theorem returns_bind_of_ok {a : α} {w' : World} (hx : x w = (.ok a, w'))
    (h : Returns (f a) w' post) : Returns (x >>= f) w post := by
  obtain ⟨b, w'', hsecond, hpost⟩ := h
  exact ⟨b, w'', (bind_of_ok hx).trans hsecond, hpost⟩

theorem Returns.bind (hx : Returns x w mid) (hf : ∀ a w', mid a w' → Returns (f a) w' post) :
    Returns (x >>= f) w post := by
  obtain ⟨a, w', hfirst, hmid⟩ := hx
  exact returns_bind_of_ok hfirst (hf a w' hmid)

theorem returns_bind_lift {r : Except Exc α} {a : α} (hr : r = .ok a) (h : Returns (f a) w post) :
    Returns (lift r >>= f) w post := by
  subst hr
  exact h

theorem Returns.tryCatch {handler : Exc → Eff α} (hx : Returns x w mid) :
    Returns (Eff.tryCatch x handler) w mid := by
  obtain ⟨a, w', h, hmid⟩ := hx
  exact ⟨a, w', by simp only [Eff.tryCatch, h], hmid⟩

/-- A loop every step of which returns and keeps an invariant. -/
theorem returns_forEach {f : α → Eff Unit} {xs : List α} {inv : World → Prop}
    (h : ∀ x ∈ xs, ∀ w, inv w → Returns (f x) w fun _ => inv) (hw : inv w) :
    Returns (forEach f xs) w fun _ => inv := by
  induction xs generalizing w with
  | nil => exact returns_pure hw
  | cons x xs ih =>
    refine (h x List.mem_cons_self w hw).bind fun _ w' hw' => ?_
    exact ih (fun y hy => h y (List.mem_cons_of_mem _ hy)) hw'

end Returns

end Eff

/-! ### Files that stay absent -/

/-- There is no file at the paths. -/
def Absent (paths : List Path) (w : World) : Prop := ∀ q ∈ paths, w.fs.fileAt q = none

section Absent

variable {α : Type} {env : Env} {paths : List Path} {lost new : Path → Prop} {x : Eff α}

/-- What an effect does not create stays absent, however it ends. -/
theorem Eff.Touches.ends_absent (h : x.Touches lost new) (hnew : ∀ q ∈ paths, ¬ new q) :
    x.Ends (Absent paths) (fun _ => Absent paths) (Absent paths) := by
  refine .of_all fun w r w' hw hx => ?_
  have hafter : Absent paths w' := by
    intro q hq
    refine Option.eq_none_iff_forall_ne_some.2 fun bytes hbytes => ?_
    have hbefore := (h.changes hx).creates q bytes hbytes (hnew q hq)
    rw [hw q hq] at hbefore
    cases hbefore
  cases r <;> exact hafter

theorem ends_absent_inspect (f : FileSystem → Except Exc α) :
    (inspect env f).Ends (Absent paths) (fun _ => Absent paths) (Absent paths) := by
  have h : (inspect env f).Touches (fun _ => False) (fun _ => False) := touches_inspect f
  exact h.ends_absent fun _ _ => id

theorem ends_absent_mkdirs (p : Path) :
    (mkdirs env p).Ends (Absent paths) (fun _ => Absent paths) (Absent paths) := by
  have h : (mkdirs env p).Touches (fun _ => False) (fun _ => False) := touches_mkdirs p
  exact h.ends_absent fun _ _ => id

theorem ends_absent_unlinkFile (p : Path) :
    (unlinkFile env p).Ends (Absent paths) (fun _ => Absent paths) (Absent paths) :=
  (touches_unlinkFile p).ends_absent fun _ _ => id

theorem ends_absent_writeFile {p : Path} (bytes : ByteArray) (hp : p ∉ paths) :
    (writeFile env p bytes).Ends (Absent paths) (fun _ => Absent paths) (Absent paths) :=
  (touches_writeFile p bytes).ends_absent fun _ hq heq => hp (heq ▸ hq)

/-- A move creates what was at the same place below its source. -/
theorem ends_absent_osReplace {src dst : Path} {pre : World → Prop} (hpre : ∀ w, pre w → Absent paths w)
    (hmoved : ∀ w r, pre w → dst ++ r ∈ paths → w.fs.fileAt (src ++ r) = none) :
    (osReplace env src dst).Ends pre (fun _ => Absent paths) (Absent paths) := by
  refine .of_all fun w r w' hw hx => ?_
  cases r with
  | error e =>
    intro q hq
    rw [change_eq_error hx]
    exact hpre w hw q hq
  | ok _ =>
    intro q hq
    refine Option.eq_none_iff_forall_ne_some.2 fun b hb => ?_
    rcases FileSystem.fileAt_replace_cases (change_eq_ok hx) hb with hold | ⟨r, rfl, hold⟩
    · rw [hpre w hw q hq] at hold
      cases hold
    · rw [hmoved w r hw hq] at hold
      cases hold

end Absent

/-! ### A directory to write in -/

/-- The directory is there, and nothing with a name from the set is a directory in it. -/
structure Writable (fs : FileSystem) (directory : Path) (free : String → Prop) : Prop where
  dir : fs.isDir directory = true
  not_dir : ∀ name, free name → fs.node (directory ++ [name]) ≠ some .dir

namespace Writable

variable {fs fs' : FileSystem} {directory : Path} {free : String → Prop} {name : String}

theorem hasParent (h : Writable fs directory free) : fs.hasParent (directory ++ [name]) = true := by
  simp [FileSystem.hasParent, h.dir]

/-- The root is a directory. -/
theorem root (h : Writable fs directory free) : fs.isDir [] = true := by
  by_cases hne : directory = []
  · subst hne
    exact h.dir
  · refine FileSystem.isDir_above List.nil_prefix (Ne.symm hne) ?_
    rw [FileSystem.isDir_iff.1 h.dir]
    simp

/-- Nothing above is a file. -/
theorem no_file (h : Writable fs directory free) {p : Path} (hp : p <+: directory) :
    fs.fileAt p = none := by
  refine FileSystem.fileAt_eq_none_of_isDir ?_
  by_cases hne : p = directory
  · exact hne ▸ h.dir
  · exact FileSystem.isDir_above hp hne (by rw [FileSystem.isDir_iff.1 h.dir]; simp)

theorem of_node (h : Writable fs directory free) (hdir : fs'.node directory = fs.node directory)
    (hnames : ∀ name, free name → fs'.node (directory ++ [name]) = some .dir →
      fs.node (directory ++ [name]) = some .dir) : Writable fs' directory free :=
  ⟨FileSystem.isDir_iff.2 (hdir.trans (FileSystem.isDir_iff.1 h.dir)),
    fun name hname heq => h.not_dir name hname (hnames name hname heq)⟩

theorem write (h : Writable fs directory free) (hname : free name) (bytes : ByteArray) :
    ∃ fs', fs.write (directory ++ [name]) bytes = .ok fs' ∧ Writable fs' directory free := by
  obtain ⟨fs', hfs'⟩ : ∃ fs', fs.write (directory ++ [name]) bytes = .ok fs' := by
    unfold FileSystem.write
    split
    · exact absurd ‹_› (h.not_dir name hname)
    · exact ⟨_, if_pos h.hasParent⟩
  obtain ⟨hfile, hrest⟩ := FileSystem.write_eq_ok hfs'
  refine ⟨fs', hfs', h.of_node (hrest _ (by simp)) fun other _ heq => ?_⟩
  by_cases hne : other = name
  · subst hne
    rw [hfile] at heq
    cases heq
  · rwa [hrest _ (by simpa using hne)] at heq

theorem unlink (h : Writable fs directory free) (hname : free name) :
    ∃ fs', fs.unlink (directory ++ [name]) = .ok fs' ∧ Writable fs' directory free := by
  obtain ⟨fs', hfs'⟩ : ∃ fs', fs.unlink (directory ++ [name]) = .ok fs' := by
    unfold FileSystem.unlink
    split
    · exact ⟨_, rfl⟩
    · exact absurd ‹_› (h.not_dir name hname)
    · rename_i hnone
      refine ⟨fs, if_neg ?_⟩
      simp only [List.any_eq_true, List.mem_inits, not_exists, not_and]
      intro p hp hfile
      obtain ⟨bytes, hbytes⟩ := FileSystem.isFile_iff.1 hfile
      rcases List.prefix_concat_iff.1 hp with rfl | hp
      · rw [FileSystem.fileAt, hnone] at hbytes
        cases hbytes
      · rw [h.no_file hp] at hbytes
        cases hbytes
  obtain ⟨hnone, hrest⟩ := FileSystem.unlink_eq_ok hfs'
  refine ⟨fs', hfs', h.of_node (hrest _ (by simp)) fun other _ heq => ?_⟩
  by_cases hne : other = name
  · subst hne
    rw [hnone] at heq
    cases heq
  · rwa [hrest _ (by simpa using hne)] at heq

theorem replace {src : String} {bytes : ByteArray} (h : Writable fs directory free)
    (hsrc : fs.fileAt (directory ++ [src]) = some bytes) (hname : free name) (hne : src ≠ name) :
    ∃ fs', fs.replace (directory ++ [src]) (directory ++ [name]) = .ok fs' ∧
      Writable fs' directory free := by
  have hneq : directory ++ [src] ≠ directory ++ [name] := by simpa using hne
  have hnot : ¬ directory ++ [src] <+: directory ++ [name] := by
    simpa [List.prefix_append_right_inj, List.cons_prefix_cons] using hne
  have hfile := FileSystem.fileAt_eq_some.1 hsrc
  obtain ⟨fs', hfs'⟩ : ∃ fs', fs.replace (directory ++ [src]) (directory ++ [name]) = .ok fs' := by
    unfold FileSystem.replace
    simp only [hfile, if_neg hneq, h.hasParent, Bool.true_eq_false, if_false, if_neg hnot]
    have hdst := h.not_dir name hname
    split <;> simp_all
  obtain ⟨-, -, -, -, hmoved, hgone, hrest⟩ := FileSystem.replace_eq_ok hfs' hneq
  have hself : ∀ other, ¬ directory ++ [other] <+: directory := by
    intro other hp
    have := hp.length_le
    simp at this
  refine ⟨fs', hfs', h.of_node (hrest _ (hself src) (hself name)) fun other _ heq => ?_⟩
  by_cases h₁ : other = src
  · subst h₁
    rw [hgone _ (List.prefix_refl _)] at heq
    cases heq
  · by_cases h₂ : other = name
    · subst h₂
      have := hmoved []
      rw [List.append_nil, List.append_nil, hfile] at this
      rw [this] at heq
      cases heq
    · rwa [hrest _ (by simpa [List.prefix_append_right_inj, List.cons_prefix_cons, eq_comm] using h₁)
        (by simpa [List.prefix_append_right_inj, List.cons_prefix_cons, eq_comm] using h₂)] at heq

end Writable

section Calm

variable {env : Env} {w : World} {directory : Path} {free : String → Prop} {name : String}

/-- No call is broken off. -/
def Env.Calm (env : Env) : Prop := ∀ n, env.interrupt n = none

/-- Directories are made where no file is in the way. -/
theorem returns_mkdirs {p : Path} (hcalm : env.Calm) (hroot : w.fs.isDir [] = true)
    (hfree : ∀ q, q <+: p → w.fs.fileAt q = none) :
    (mkdirs env p).Returns w fun _ w' =>
      w'.fs.isDir p = true ∧ ∀ q, ¬ q <+: p → w'.fs.node q = w.fs.node q := by
  have key : ∀ names done w, w.fs.isDir done = true →
      (∀ q, q <+: done ++ names → w.fs.fileAt q = none) →
      (mkdirsBelow env done names).Returns w fun _ w' => w'.fs.isDir (done ++ names) = true ∧
        ∀ q, ¬ q <+: done ++ names → w'.fs.node q = w.fs.node q := by
    intro names
    induction names with
    | nil =>
      intro done w hdir _
      exact Eff.returns_pure ⟨by simpa using hdir, fun _ _ => rfl⟩
    | cons name names ih =>
      intro done w hdir hfree
      have hpath : done ++ name :: names = done ++ [name] ++ names := by simp
      have hbelow : done ++ [name] <+: done ++ name :: names := hpath ▸ List.prefix_append _ _
      -- the first directory is there or is made; either way nothing else changes
      have hstep : (ensureDir env (done ++ [name])).Returns w fun _ w' =>
          w'.fs.isDir (done ++ [name]) = true ∧
            ∀ q, q ≠ done ++ [name] → w'.fs.node q = w.fs.node q := by
        by_cases hthere : w.fs.isDir (done ++ [name]) = true
        · exact ⟨(), _, change_of_ok (hcalm _) (if_pos hthere), hthere, fun _ _ => rfl⟩
        · have hnone : w.fs.node (done ++ [name]) = none := by
            have hfile := hfree _ hbelow
            rcases hnode : w.fs.node (done ++ [name]) with _ | b | _
            · rfl
            · simp [FileSystem.fileAt, hnode] at hfile
            · exact absurd (FileSystem.isDir_iff.2 hnode) hthere
          have hparent : w.fs.hasParent (done ++ [name]) = true := by
            simp [FileSystem.hasParent, hdir]
          obtain ⟨fs', hmkdir⟩ : ∃ fs', w.fs.mkdir (done ++ [name]) = .ok fs' := by
            unfold FileSystem.mkdir
            rw [hnone]
            exact ⟨_, if_pos hparent⟩
          obtain ⟨-, -, hnew, hrest⟩ := FileSystem.mkdir_eq_ok hmkdir
          exact ⟨(), _, change_of_ok (hcalm _) ((if_neg hthere).trans hmkdir),
            FileSystem.isDir_iff.2 hnew, hrest⟩
      refine hstep.bind ?_
      rintro _ w₁ ⟨hdir₁, hsame⟩
      have hfree₁ : ∀ q, q <+: done ++ [name] ++ names → w₁.fs.fileAt q = none := by
        intro q hq
        by_cases heq : q = done ++ [name]
        · exact heq ▸ FileSystem.fileAt_eq_none_of_isDir hdir₁
        · rw [FileSystem.fileAt_congr (hsame q heq)]
          exact hfree q (hpath ▸ hq)
      obtain ⟨a, w₂, hrun, hdir₂, hsame₂⟩ := ih (done ++ [name]) w₁ hdir₁ hfree₁
      refine ⟨a, w₂, hrun, by rwa [hpath], fun q hq => ?_⟩
      rw [hpath] at hq
      rw [hsame₂ q hq, hsame q fun heq => hq (heq ▸ List.prefix_append _ _)]
  exact key p [] w hroot hfree

theorem Writable.returns_mkdirs (h : Writable w.fs directory free) (hcalm : env.Calm) :
    (mkdirs env directory).Returns w fun _ w' => Writable w'.fs directory free := by
  obtain ⟨a, w', hrun, hdir, hsame⟩ := Py.returns_mkdirs hcalm h.root fun q hq => h.no_file hq
  refine ⟨a, w', hrun, hdir, fun name hname => ?_⟩
  rw [hsame _ fun hp => by simpa using hp.length_le]
  exact h.not_dir name hname

theorem Writable.returns_writeFile (h : Writable w.fs directory free) (hcalm : env.Calm)
    (hname : free name) (bytes : ByteArray) :
    (writeFile env (directory ++ [name]) bytes).Returns w fun _ w' =>
      Writable w'.fs directory free ∧ w'.fs.fileAt (directory ++ [name]) = some bytes := by
  obtain ⟨fs', hwrite, hfs'⟩ := h.write hname bytes
  exact ⟨(), _, change_of_ok (hcalm _) hwrite, hfs',
    FileSystem.fileAt_eq_some.2 (FileSystem.write_eq_ok hwrite).1⟩

theorem Writable.returns_unlinkFile (h : Writable w.fs directory free) (hcalm : env.Calm)
    (hname : free name) :
    (unlinkFile env (directory ++ [name])).Returns w fun _ w' => Writable w'.fs directory free := by
  obtain ⟨fs', hunlink, hfs'⟩ := h.unlink hname
  exact ⟨(), _, change_of_ok (hcalm _) hunlink, hfs'⟩

theorem Writable.returns_osReplace {src : String} {bytes : ByteArray}
    (h : Writable w.fs directory free) (hcalm : env.Calm)
    (hsrc : w.fs.fileAt (directory ++ [src]) = some bytes) (hname : free name) (hne : src ≠ name) :
    (osReplace env (directory ++ [src]) (directory ++ [name])).Returns w fun _ w' =>
      Writable w'.fs directory free := by
  obtain ⟨fs', hreplace, hfs'⟩ := h.replace hsrc hname hne
  exact ⟨(), _, change_of_ok (hcalm _) hreplace, hfs'⟩

end Calm

end Py
