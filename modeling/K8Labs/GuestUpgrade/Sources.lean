import K8Labs.GuestUpgrade.Sysexts

/-!
# The trees that a stage is packed from

* `Extracted`, `Holds` : which binaries an artifact holds; for an archive every binary has exactly one
  member.
* `sourceTree` : the template without its own binaries and with the locked ones.
* `prepareSources_eq_ok` : **after the preparation the source of every extension is that tree**, of
  the artifacts that were checked.

However it ends, the preparation stays below `sources` (`within_prepareSources`).
-/

namespace GuestUpgrade

open Py (Exc Value Path FileSystem Eff Env World)

/-! ### Which binaries an artifact holds -/

/-- The binaries of an archive, in the order they are asked for. -/
def Extracted (openTar : OpenTar) (layout : Layout) (binaries : List String) (archive : ByteArray)
    (files : List (String × ByteArray)) : Prop :=
  ∃ members, openTar archive = .ok members ∧ List.Forall₂ (fun binary file =>
    file.1 = binary ∧ file.2.size ≠ 0 ∧ ∃ member, matching members layout binary = [member] ∧
      member.content = .ok (some file.2)) binaries files

/-- The binaries of an artifact. -/
def Holds (openTar : OpenTar) (artifact : ByteArray) (files : List (String × ByteArray)) :
    Extension → Prop
  | .kubelet => files = [("kubelet", artifact)] ∧ artifact.size ≠ 0
  | .kubernetesCp =>
    Extracted openTar .kubernetesServer Extension.kubernetesCp.binaries artifact files
  | .criO => Extracted openTar .criO Extension.criO.binaries artifact files

/-- Files that are put into `usr/bin`. -/
def addBinaries (tree : FileSystem) (files : List (String × ByteArray)) : FileSystem :=
  files.foldl (fun t file => t.place (binDir ++ [file.1]) (.single (.file file.2))) tree

/-- What is packed. -/
def sourceTree (template : FileSystem) (extension : Extension) (files : List (String × ByteArray)) :
    FileSystem :=
  addBinaries ((withoutBinaries template extension.binaries).ensureBelow [] binDir) files

section Prepare

variable {env : Env} {openTar : OpenTar} {w w' : World} {p base : Path} {name : String}
  {names : List String}

/-! ### However the preparation ends -/

theorem within_writeFile {q : Path} (hname : name ∈ names) (hq : p ++ [name] <+: q)
    (bytes : ByteArray) : (Py.writeFile env q bytes).Within p names := by
  refine (Py.confined_writeFile q bytes).within ?_
  rintro r rfl
  exact ⟨name, hname, hq⟩

theorem within_inspect {α : Type} (f : FileSystem → Except Exc α) :
    (Py.inspect env f).Within p names := by
  have hconfined : (Py.inspect env f).Confined fun _ => False := Py.confined_inspect f
  exact hconfined.within fun _ => False.elim

theorem within_copyTree {tree : FileSystem → FileSystem} {q : Path} (hname : name ∈ names)
    (hq : p ++ [name] <+: q.dropLast) : (Py.copyTree env tree q).Within p names := by
  have hbelow : ∀ r, q <+: r → p ++ [name] <+: r := fun r =>
    (hq.trans (List.dropLast_prefix q)).trans
  have hplace : ∀ (i : Py.Interruption) (fs : FileSystem), fs.SameOutside (q <+: ·) (fs.place q i.tree) :=
    fun i fs => FileSystem.sameOutside_place fs q i.tree
  refine (Py.within_mkdirs hname (.inl hq)).bind fun _ =>
    (Py.confined_change (fun fs fs' h => ?_) hplace).within fun r hr => ⟨name, hname, hbelow r hr⟩
  obtain ⟨made, hmade, rfl⟩ := Py.map_eq_ok.1 h
  refine ((FileSystem.sameOutside_mkdir hmade).mono ?_).trans (FileSystem.sameOutside_place _ _ _)
  rintro r rfl
  exact List.prefix_refl r

theorem within_copyTemplate {template q : Path} {extension : Extension} (hname : name ∈ names)
    (hq : p ++ [name] <+: q.dropLast) : (copyTemplate env template q extension).Within p names := by
  refine (within_inspect _).bind fun isDir => ?_
  split_ifs
  · exact within_copyTree hname hq
  · exact Eff.within_throw _

theorem within_copyLockedBinary {source q : Path} (hname : name ∈ names)
    (hq : p ++ [name] <+: q.dropLast) : (copyLockedBinary env source q).Within p names := by
  refine (Py.within_mkdirs hname (.inl hq)).bind fun _ => ((within_inspect _).bind fun bytes =>
    within_writeFile hname (hq.trans (List.dropLast_prefix q)) bytes).bind fun _ =>
      (within_inspect _).bind fun size => ?_
  split_ifs
  · exact Eff.within_lift _
  · exact within_inspect _

theorem within_extractMember {archive : String} {q : Path} {selected : String × TarInfo}
    (hname : name ∈ names) (hq : p ++ [name] <+: q) :
    (extractMember env archive q selected).Within p names := by
  have hwrite : ∀ bytes, (Py.writeFile env (q ++ [selected.1]) bytes).Within p names :=
    within_writeFile hname (hq.trans (List.prefix_append q _))
  unfold extractMember
  split
  · exact Eff.within_lift _
  · refine (hwrite _).bind fun _ => (Eff.within_lift _).bind fun bytes => (hwrite _).bind fun _ =>
      (within_inspect _).bind fun size => ?_
    split_ifs
    · exact Eff.within_lift _
    · exact within_inspect _

theorem within_extractArchiveBinaries {archive q : Path} {binaries : List String} {layout : Layout}
    (hname : name ∈ names) (hq : p ++ [name] <+: q) :
    (extractArchiveBinaries env openTar archive q binaries layout).Within p names :=
  (within_inspect _).bind fun _ => (Eff.within_lift _).bind fun _ =>
    (Py.within_mkdirs hname (.inl hq)).bind fun _ =>
      Eff.within_forEach fun _ _ => within_extractMember hname hq

/-- However it ends, the preparation stays below `sources`. -/
theorem within_prepareSources {repoRoot workDir : Path} {inputs : Inputs} :
    (prepareSources env openTar repoRoot workDir inputs).Within workDir ["sources"] := by
  have hname : "sources" ∈ ["sources"] := List.mem_singleton_self _
  have hsource : ∀ extension rest, workDir ++ ["sources"] <+: sourceOf workDir extension ++ rest := by
    intro extension rest
    exact ⟨extension.name :: rest, by simp [sourceOf]⟩
  refine (Eff.within_forEach fun extension _ => within_copyTemplate hname ?_).bind fun _ =>
    (within_copyLockedBinary hname ?_).bind fun _ =>
      (within_extractArchiveBinaries hname (hsource _ _)).bind fun _ =>
        within_extractArchiveBinaries hname (hsource _ _)
  · exact ⟨[], by simp [sourceOf]⟩
  · rw [List.dropLast_concat]
    exact hsource _ _

/-! ### When the preparation returns -/

theorem copyLockedBinary_eq_ok {source : Path} {binary : String} (hdir : w.fs.isDir base = true)
    (h : copyLockedBinary env source (base ++ binDir ++ [binary]) w = (.ok (), w')) :
    ∃ bytes, w.fs.fileAt source = some bytes ∧ bytes.size ≠ 0 ∧
      w'.fs.subtree base = addBinaries ((w.fs.subtree base).ensureBelow [] binDir) [(binary, bytes)] := by
  obtain ⟨⟨⟩, w₁, hmkdirs, h⟩ := Eff.bind_eq_ok h
  obtain ⟨⟨⟩, w₂, hcopy, h⟩ := Eff.bind_eq_ok h
  obtain ⟨size, w₃, hsize, h⟩ := Eff.bind_eq_ok h
  rw [List.dropLast_concat] at hmkdirs
  obtain ⟨bytes, w₁', hbytes, hfs, hwrite⟩ := Py.copyFile_eq_ok hcopy
  obtain ⟨⟨bytes', hbytes', rfl⟩, hfs₃⟩ := Py.fileSize_eq_ok hsize
  obtain rfl : bytes = bytes' := by
    rw [Py.fileAt_of_writeFile hwrite] at hbytes'
    exact Option.some.inj hbytes'
  rw [Py.fileAt_of_mkdirs hmkdirs] at hbytes
  split_ifs at h with hempty
  · cases h
  · refine ⟨bytes, hbytes, hempty, ?_⟩
    obtain ⟨-, hfs'⟩ := Py.inspect_eq_ok h
    rw [List.append_assoc] at hwrite
    rw [hfs', hfs₃, Py.subtree_of_writeFile (by simp) hwrite, hfs, Py.subtree_of_mkdirs hdir hmkdirs]
    rfl

/-- The binary is written twice, the second time with its bytes. -/
theorem extractMember_eq_ok {archive : String} {selected : String × TarInfo}
    (h : extractMember env archive (base ++ binDir) selected w = (.ok (), w')) :
    ∃ bytes, selected.2.content = .ok (some bytes) ∧ bytes.size ≠ 0 ∧
      w'.fs.subtree base = addBinaries (w.fs.subtree base) [(selected.1, bytes)] := by
  rcases hcontent : selected.2.content with e | found
  · simp only [extractMember, hcontent] at h
    obtain ⟨⟨⟩, w₁, -, h⟩ := Eff.bind_eq_ok h
    obtain ⟨found, hfound, -⟩ := Eff.bind_lift_eq_ok h
    cases hfound
  · cases found with
    | none =>
      simp only [extractMember, hcontent] at h
      cases h
    | some bytes =>
      simp only [extractMember, hcontent] at h
      obtain ⟨⟨⟩, w₁, hopen, h⟩ := Eff.bind_eq_ok h
      obtain ⟨found, hfound, h⟩ := Eff.bind_lift_eq_ok h
      obtain rfl : some bytes = found := Except.ok.inj hfound
      obtain ⟨⟨⟩, w₂, hwrite, h⟩ := Eff.bind_eq_ok h
      obtain ⟨size, w₃, hsize, h⟩ := Eff.bind_eq_ok h
      obtain ⟨⟨bytes', hbytes', rfl⟩, hfs₃⟩ := Py.fileSize_eq_ok hsize
      obtain rfl : bytes = bytes' := by
        rw [Py.fileAt_of_writeFile hwrite] at hbytes'
        exact Option.some.inj hbytes'
      split_ifs at h with hempty
      · cases h
      · refine ⟨bytes, rfl, hempty, ?_⟩
        obtain ⟨-, hfs'⟩ := Py.inspect_eq_ok h
        rw [List.append_assoc] at hopen hwrite
        rw [hfs', hfs₃, Py.subtree_of_writeFile (by simp) hwrite,
          Py.subtree_of_writeFile (by simp) hopen]
        exact FileSystem.place_place_single (by simp) _ _

theorem extractMembers_eq_ok {archive : String} {selected : List (String × TarInfo)}
    (h : Eff.forEach (extractMember env archive (base ++ binDir)) selected w = (.ok (), w')) :
    ∃ files, List.Forall₂ (fun chosen file => file.1 = chosen.1 ∧ file.2.size ≠ 0 ∧
        chosen.2.content = .ok (some file.2)) selected files ∧
      w'.fs.subtree base = addBinaries (w.fs.subtree base) files := by
  induction selected generalizing w with
  | nil =>
    obtain ⟨-, rfl⟩ := Eff.pure_eq_ok h
    exact ⟨[], .nil, rfl⟩
  | cons chosen rest ih =>
    obtain ⟨⟨⟩, w₁, hfirst, hrest⟩ := Eff.bind_eq_ok h
    obtain ⟨bytes, hcontent, hsize, htree⟩ := extractMember_eq_ok hfirst
    obtain ⟨files, hfiles, htree'⟩ := ih hrest
    refine ⟨(chosen.1, bytes) :: files, .cons ⟨rfl, hsize, hcontent⟩ hfiles, ?_⟩
    rw [htree', htree]
    rfl

theorem selectMember_eq_ok {archive : String} {members : List TarInfo} {layout : Layout}
    {binary : String} {selected : String × TarInfo} :
    selectMember archive members layout binary = .ok selected ↔
      matching members layout binary = [selected.2] ∧ selected.1 = binary := by
  unfold selectMember
  split
  · rename_i member hone
    rw [hone, Except.ok.injEq]
    constructor
    · rintro rfl
      exact ⟨rfl, rfl⟩
    · rintro ⟨heq, rfl⟩
      rw [(List.cons.inj heq).1]
  · rename_i found hnot
    exact ⟨fun h => (by cases h), fun h => absurd h.1 (hnot _)⟩

/-- Each binary has its one member, and each member its bytes. -/
theorem forall₂_of_selected {archive : String} {members : List TarInfo} {layout : Layout}
    {binaries : List String} {selected : List (String × TarInfo)} {files : List (String × ByteArray)}
    (hselected : List.Forall₂ (fun binary chosen =>
      selectMember archive members layout binary = .ok chosen) binaries selected)
    (hfiles : List.Forall₂ (fun chosen file => file.1 = chosen.1 ∧ file.2.size ≠ 0 ∧
      chosen.2.content = .ok (some file.2)) selected files) :
    List.Forall₂ (fun binary file => file.1 = binary ∧ file.2.size ≠ 0 ∧
      ∃ member, matching members layout binary = [member] ∧ member.content = .ok (some file.2))
      binaries files := by
  induction hselected generalizing files with
  | nil =>
    cases hfiles
    exact .nil
  | cons hone _ ih =>
    cases hfiles with
    | cons hfile hfiles =>
      obtain ⟨hmatch, hbinary⟩ := selectMember_eq_ok.1 hone
      exact .cons ⟨hfile.1.trans hbinary, hfile.2.1, _, hmatch, hfile.2.2⟩ (ih hfiles)

theorem extractArchiveBinaries_eq_ok {archive : Path} {binaries : List String} {layout : Layout}
    (hdir : w.fs.isDir base = true)
    (h : extractArchiveBinaries env openTar archive (base ++ binDir) binaries layout w =
      (.ok (), w')) :
    ∃ bytes files, w.fs.fileAt archive = some bytes ∧ Extracted openTar layout binaries bytes files ∧
      w'.fs.subtree base = addBinaries ((w.fs.subtree base).ensureBelow [] binDir) files := by
  obtain ⟨members, w₁, hread, h⟩ := Eff.bind_eq_ok h
  obtain ⟨selected, hselected, h⟩ := Eff.bind_lift_eq_ok h
  obtain ⟨⟨⟩, w₂, hmkdirs, h⟩ := Eff.bind_eq_ok h
  obtain ⟨hopened, hfs⟩ := Py.inspect_eq_ok hread
  obtain ⟨bytes, hbytes, hmembers⟩ := Py.bind_eq_ok.1 hopened
  obtain ⟨files, hfiles, htree⟩ := extractMembers_eq_ok h
  refine ⟨bytes, files, FileSystem.read_eq_ok.1 hbytes,
    ⟨members, hmembers, forall₂_of_selected (Py.traverse_eq_ok.1 hselected) hfiles⟩, ?_⟩
  rw [← hfs] at hdir ⊢
  rw [htree, Py.subtree_of_mkdirs hdir hmkdirs]

theorem copyTemplate_eq_ok {template destination : Path} {extension : Extension}
    (h : copyTemplate env template destination extension w = (.ok (), w')) :
    ∃ w₁ w₂, w₁.fs = w.fs ∧ Py.mkdirs env destination.dropLast w₁ = (.ok (), w₂) ∧
      w'.fs.subtree destination = withoutBinaries (w₂.fs.subtree template) extension.binaries := by
  obtain ⟨isDir, w₁, hinspect, h⟩ := Eff.bind_eq_ok h
  obtain ⟨-, hfs⟩ := Py.inspect_eq_ok hinspect
  split_ifs at h
  · obtain ⟨w₂, hmkdirs, htree⟩ := Py.copyTree_eq_ok h
    exact ⟨w₁, w₂, hfs, hmkdirs, htree⟩
  · cases h

/-! ### The sources of all extensions -/

theorem sourceOf_ne {workDir : Path} {extension other : Extension} (hne : extension ≠ other) :
    ¬ sourceOf workDir extension <+: sourceOf workDir other := by
  intro h
  have heq := h.eq_of_length (by simp [sourceOf])
  revert hne
  cases extension <;> cases other <;> simp_all [sourceOf, Extension.name]

/-- What is below a directory that is apart from the working directory. -/
def Apart (workDir q : Path) : Prop := ¬ workDir <+: q ∧ ¬ q <+: workDir

theorem Apart.subtree {α : Type} {x : Eff α} {r : Except Exc α} {q : Path} (hq : Apart p q)
    (hx : x.Within p names) (hdir : w.fs.isDir p = true) (h : x w = (r, w')) :
    w'.fs.subtree q = w.fs.subtree q := by
  refine (hx.same hdir h).subtree ?_
  rintro s hs ⟨name, -, hle⟩
  have hps : p <+: s := (List.prefix_append p [name]).trans hle
  exact (List.prefix_or_prefix_of_prefix hps hs).elim hq.1 hq.2

/-- A copied template leaves the other sources as they are. -/
theorem subtree_of_copyTemplate {template workDir : Path} {extension other : Extension}
    (hne : extension ≠ other)
    (h : copyTemplate env template (sourceOf workDir extension) extension w = (.ok (), w')) :
    w'.fs.subtree (sourceOf workDir other) = w.fs.subtree (sourceOf workDir other) := by
  obtain ⟨isDir, w₁, hinspect, h⟩ := Eff.bind_eq_ok h
  obtain ⟨-, hfs⟩ := Py.inspect_eq_ok hinspect
  split_ifs at h
  · rw [← hfs]
    refine ((Py.confined_copyTree _ _).same h).subtree ?_
    rintro q hq (hle | hle)
    · exact sourceOf_ne (Ne.symm hne) (hq.trans hle)
    · have hlength : (sourceOf workDir other).length = (sourceOf workDir extension).length := by
        simp [sourceOf]
      exact (List.prefix_or_prefix_of_prefix hq hle).elim (sourceOf_ne (Ne.symm hne)) (sourceOf_ne hne)
  · cases h

theorem copyTemplates_eq_ok {repoRoot workDir : Path} (hdir : w.fs.isDir workDir = true)
    (hapart : ∀ extension, Apart workDir (templateOf repoRoot extension))
    (h : Eff.forEach (fun extension => copyTemplate env (templateOf repoRoot extension)
      (sourceOf workDir extension) extension) extensions w = (.ok (), w')) :
    ∀ extension, w'.fs.subtree (sourceOf workDir extension) =
      withoutBinaries (w.fs.subtree (templateOf repoRoot extension)) extension.binaries := by
  have hmem : ∀ extension, extension ∈ extensions := by
    rintro (_ | _ | _) <;> decide
  have hwithin : ∀ extension, (copyTemplate env (templateOf repoRoot extension)
      (sourceOf workDir extension) extension).Within workDir ["sources"] := fun extension =>
    within_copyTemplate (List.mem_singleton_self _) ⟨[], by simp [sourceOf]⟩
  -- the templates stay while the loop runs
  let inv : World → Prop := fun w₁ => w₁.fs.isDir workDir = true ∧ ∀ extension,
    w₁.fs.subtree (templateOf repoRoot extension) = w.fs.subtree (templateOf repoRoot extension)
  have hinv : ∀ extension ∈ extensions, ∀ w₁ w₂, inv w₁ → copyTemplate env
      (templateOf repoRoot extension) (sourceOf workDir extension) extension w₁ = (.ok (), w₂) →
      inv w₂ := by
    rintro extension - w₁ w₂ ⟨hdir₁, hsame⟩ hrun
    exact ⟨(hwithin extension).isDir hdir₁ hrun, fun other =>
      ((hapart other).subtree (hwithin extension) hdir₁ hrun).trans (hsame other)⟩
  have hnew : ∀ extension ∈ extensions, ∀ w₁ w₂, inv w₁ → copyTemplate env
      (templateOf repoRoot extension) (sourceOf workDir extension) extension w₁ = (.ok (), w₂) →
      w₂.fs.subtree (sourceOf workDir extension) =
        withoutBinaries (w.fs.subtree (templateOf repoRoot extension)) extension.binaries := by
    rintro extension - w₁ w₂ ⟨hdir₁, hsame⟩ hrun
    obtain ⟨w₃, w₄, hfs, hmkdirs, htree⟩ := copyTemplate_eq_ok hrun
    have hmade : (Py.mkdirs env (sourceOf workDir extension).dropLast).Within workDir ["sources"] :=
      Py.within_mkdirs (List.mem_singleton_self _) (.inl ⟨[], by simp [sourceOf]⟩)
    rw [htree, (hapart extension).subtree hmade (hfs ▸ hdir₁) hmkdirs, hfs, hsame]
  have hloop := Eff.forEach_establishes_under (R := (· ≠ ·))
    (P := fun extension w₁ => w₁.fs.subtree (sourceOf workDir extension) =
      withoutBinaries (w.fs.subtree (templateOf repoRoot extension)) extension.binaries)
    (by decide) hinv hnew
    (fun extension _ other hne w₁ w₂ hold hrun => (subtree_of_copyTemplate hne.symm hrun).trans hold)
    h ⟨hdir, fun _ => rfl⟩
  exact fun extension => hloop extension (hmem extension)

/-- What happens in the source of one extension leaves the others as they are. -/
theorem subtree_of_within {α : Type} {x : Eff α} {r : Except Exc α} {workDir : Path}
    {extension other : Extension} (hne : extension ≠ other)
    (hx : x.Within (sourceOf workDir extension) names)
    (hdir : w.fs.isDir (sourceOf workDir extension) = true) (h : x w = (r, w')) :
    w'.fs.subtree (sourceOf workDir other) = w.fs.subtree (sourceOf workDir other) := by
  refine (hx.same hdir h).subtree ?_
  rintro q hq ⟨name, -, hle⟩
  exact (List.prefix_or_prefix_of_prefix hq ((List.prefix_append _ [name]).trans hle)).elim
    (sourceOf_ne (Ne.symm hne)) (sourceOf_ne hne)

theorem isDir_withoutBinaries {tree : FileSystem} {binaries : List String} :
    (withoutBinaries tree binaries).isDir [] = tree.isDir [] := by
  unfold withoutBinaries
  induction binaries generalizing tree with
  | nil => rfl
  | cons binary binaries ih =>
    rw [List.foldl_cons, ih]
    have hroot : ¬ binDir ++ [binary] <+: [] := by simp
    rw [FileSystem.isDir, FileSystem.node_place_outside hroot, ← FileSystem.isDir]

theorem isDir_of_subtree {fs fs' : FileSystem} {q r : Path} (h : fs.subtree q = fs'.subtree r) :
    fs.isDir q = fs'.isDir r := by
  have := congrArg (FileSystem.isDir · []) h
  simpa [FileSystem.isDir, FileSystem.subtree] using this

/-- A file outside the working directory stays. -/
theorem fileAt_of_within {α : Type} {x : Eff α} {r : Except Exc α} {q : Path} (hq : ¬ p <+: q)
    (hx : x.Within p names) (hdir : w.fs.isDir p = true) (h : x w = (r, w')) :
    w'.fs.fileAt q = w.fs.fileAt q :=
  FileSystem.fileAt_congr (hx.same hdir h q fun ⟨name, _, hle⟩ =>
    hq ((List.prefix_append p [name]).trans hle))

/-- **After the preparation** the source of every extension is its template with the binaries of its
artifact. -/
theorem prepareSources_eq_ok {repoRoot workDir : Path} {inputs : Inputs}
    {artifact : Extension → ByteArray} (hdir : w.fs.isDir workDir = true)
    (hapart : ∀ extension, Apart workDir (templateOf repoRoot extension))
    (htemplate : ∀ extension, w.fs.isDir (templateOf repoRoot extension) = true)
    (hartifact : ∀ extension, w.fs.fileAt (inputs.paths extension) = some (artifact extension))
    (houtside : ∀ extension, ¬ workDir <+: inputs.paths extension)
    (h : prepareSources env openTar repoRoot workDir inputs w = (.ok (), w')) :
    ∃ files : Extension → List (String × ByteArray),
      (∀ extension, Holds openTar (artifact extension) (files extension) extension) ∧
      ∀ extension, w'.fs.subtree (sourceOf workDir extension) =
        sourceTree (w.fs.subtree (templateOf repoRoot extension)) extension (files extension) := by
  have hsources : "sources" ∈ ["sources"] := List.mem_singleton_self _
  have husr : "usr" ∈ ["usr"] := List.mem_singleton_self _
  have hsource : ∀ extension rest, workDir ++ ["sources"] <+: sourceOf workDir extension ++ rest :=
    fun extension rest => ⟨extension.name :: rest, by simp [sourceOf]⟩
  obtain ⟨⟨⟩, w₁, htemplates, h⟩ := Eff.bind_eq_ok h
  obtain ⟨⟨⟩, w₂, hkubelet, h⟩ := Eff.bind_eq_ok h
  obtain ⟨⟨⟩, w₃, hcp, hcriO⟩ := Eff.bind_eq_ok h
  -- all three steps stay in the working directory, each of the last two in its own source
  have hall₁ : (Eff.forEach (fun extension => copyTemplate env (templateOf repoRoot extension)
      (sourceOf workDir extension) extension) extensions).Within workDir ["sources"] :=
    Eff.within_forEach fun extension _ => within_copyTemplate hsources ⟨[], by simp [sourceOf]⟩
  have hall₂ : (copyLockedBinary env (inputs.paths .kubelet)
      (sourceOf workDir .kubelet ++ binDir ++ ["kubelet"])).Within workDir ["sources"] :=
    within_copyLockedBinary hsources (by rw [List.dropLast_concat]; exact hsource _ _)
  have hall₃ : (extractArchiveBinaries env openTar (inputs.paths .kubernetesCp)
      (sourceOf workDir .kubernetesCp ++ binDir) Extension.kubernetesCp.binaries
      .kubernetesServer).Within workDir ["sources"] :=
    within_extractArchiveBinaries hsources (hsource _ _)
  have hown₂ : (copyLockedBinary env (inputs.paths .kubelet)
      (sourceOf workDir .kubelet ++ binDir ++ ["kubelet"])).Within (sourceOf workDir .kubelet) ["usr"] :=
    within_copyLockedBinary husr
      (by rw [List.dropLast_concat]; exact ⟨["bin"], by simp [binDir]⟩)
  have hown : ∀ {archive binaries layout} extension, (extractArchiveBinaries env openTar archive
      (sourceOf workDir extension ++ binDir) binaries layout).Within (sourceOf workDir extension)
      ["usr"] :=
    fun extension => within_extractArchiveBinaries husr ⟨["bin"], by simp [binDir]⟩
  have hdir₁ := hall₁.isDir hdir htemplates
  have hdir₂ := hall₂.isDir hdir₁ hkubelet
  have htrees := copyTemplates_eq_ok hdir hapart htemplates
  have hisDir₁ : ∀ extension, w₁.fs.isDir (sourceOf workDir extension) = true := fun extension => by
    have := congrArg (FileSystem.isDir · []) (htrees extension)
    rw [isDir_withoutBinaries] at this
    simpa [FileSystem.isDir, FileSystem.subtree] using this.trans
      (by simpa [FileSystem.isDir, FileSystem.subtree] using htemplate extension)
  have hkept₂ : ∀ {other}, Extension.kubelet ≠ other → w₂.fs.subtree (sourceOf workDir other) =
      w₁.fs.subtree (sourceOf workDir other) := fun hne =>
    subtree_of_within hne hown₂ (hisDir₁ _) hkubelet
  have hisDir₂ : ∀ {other}, Extension.kubelet ≠ other → w₂.fs.isDir (sourceOf workDir other) = true :=
    fun hne => (isDir_of_subtree (hkept₂ hne)).trans (hisDir₁ _)
  have hkept₃ : ∀ {other}, Extension.kubernetesCp ≠ other → w₃.fs.subtree (sourceOf workDir other) =
      w₂.fs.subtree (sourceOf workDir other) := fun hne =>
    subtree_of_within hne (hown _) (hisDir₂ (by decide)) hcp
  have hisDir₃ : w₃.fs.isDir (sourceOf workDir .criO) = true :=
    (isDir_of_subtree (hkept₃ (by decide))).trans (hisDir₂ (by decide))
  have hkept₄ : ∀ {other}, Extension.criO ≠ other → w'.fs.subtree (sourceOf workDir other) =
      w₃.fs.subtree (sourceOf workDir other) := fun hne =>
    subtree_of_within hne (hown _) hisDir₃ hcriO
  -- the artifacts are read as they were checked
  have hfile₁ : ∀ extension, w₁.fs.fileAt (inputs.paths extension) = some (artifact extension) :=
    fun extension => (fileAt_of_within (houtside _) hall₁ hdir htemplates).trans (hartifact _)
  have hfile₂ : ∀ extension, w₂.fs.fileAt (inputs.paths extension) = some (artifact extension) :=
    fun extension => (fileAt_of_within (houtside _) hall₂ hdir₁ hkubelet).trans (hfile₁ _)
  have hfile₃ : ∀ extension, w₃.fs.fileAt (inputs.paths extension) = some (artifact extension) :=
    fun extension => (fileAt_of_within (houtside _) hall₃ hdir₂ hcp).trans (hfile₂ _)
  obtain ⟨bytes, hbytes, hsize, htree₂⟩ := copyLockedBinary_eq_ok (hisDir₁ _) hkubelet
  obtain ⟨archive, cpFiles, harchive, hcpFiles, htree₃⟩ :=
    extractArchiveBinaries_eq_ok (hisDir₂ (by decide)) hcp
  obtain ⟨archive', criOFiles, harchive', hcriOFiles, htree₄⟩ :=
    extractArchiveBinaries_eq_ok hisDir₃ hcriO
  obtain rfl := Option.some.inj ((hfile₁ _).symm.trans hbytes)
  obtain rfl := Option.some.inj ((hfile₂ _).symm.trans harchive)
  obtain rfl := Option.some.inj ((hfile₃ _).symm.trans harchive')
  refine ⟨perExtension [("kubelet", artifact .kubelet)] cpFiles criOFiles, ?_, ?_⟩
  · rintro (_ | _ | _)
    · exact ⟨rfl, hsize⟩
    · exact hcpFiles
    · exact hcriOFiles
  · rintro (_ | _ | _)
    · rw [hkept₄ (by decide), hkept₃ (by decide), htree₂, htrees]
      rfl
    · rw [hkept₄ (by decide), htree₃, hkept₂ (by decide), htrees]
      rfl
    · rw [htree₄, hkept₃ (by decide), hkept₂ (by decide), htrees]
      rfl

end Prepare

end GuestUpgrade
