import K8Labs.Python.Effect
import K8Labs.Python.Find
import K8Labs.Python.Text
import K8Labs.Python.TextFile

/-!
# Wiring the enrollment driver into an EDK2 tree

`wire` of `scripts/edk2_wire_enroll.py` copies the driver into a checked-out EDK2 tree and lists it in
two files of the tree, behind an anchor line of each.  The driver directory is outside of the tree.

The driver is copied before the files are looked at, and the first file written before the second
one; and a file in which the driver is mentioned anywhere is taken for one that lists it.

* `atomic_iff` : **a run leaves no half-wired tree if and only if both files are clean where both are
  ready, and otherwise the driver stands in the tree already and no file is changed before the one
  that is not ready.**
* `idempotent` : wiring once more changes nothing, however the first run ended.
-/

namespace Firmware

namespace WireEnroll

open Py (Exc Path FileSystem Effect valueError)

open Py.FileSystem (readText textAt textAt_congr textAt_eq_some node_eq_iff)

open Py.Effect (change change_of_ok change_of_error)

/-! ### The text of a file -/

/-- `text.replace(old, new, 1)`. -/
def replaceFirst (old new text : List Char) : List Char :=
  match Py.find old text with
  | some i => text.take i ++ new ++ text.drop (i + old.length)
  | none => text

/-- A file in which the driver is listed: the line before, the text by which the driver is found, the
line that is added, and the message when there is no anchor. -/
structure Listing where
  anchor : String
  mention : String
  line : String
  refusal : String
  named : mention ≠ ""
  /-- The line that is added is found again. -/
  mention_in : mention.toList <:+: line.toList
  no_return : '\r' ∉ (anchor ++ line).toList

/-- The text with the driver listed. -/
def Listing.wire (l : Listing) (text : String) : Except Exc String :=
  if Py.isIn l.mention text then .ok text
  else if !Py.isIn l.anchor text then valueError l.refusal
  else .ok (String.ofList (replaceFirst l.anchor.toList (l.anchor ++ l.line).toList text.toList))

/-- `DRIVER_INF`. -/
def driverInf : String := "OvmfPkg/K8LabsEnrollKeys/K8LabsEnrollKeys.inf"

/-- The component list. -/
def dscListing : Listing where
  anchor := "  OvmfPkg/EnrollDefaultKeys/EnrollDefaultKeys.inf\n"
  mention := driverInf
  line := "  " ++ driverInf ++ "\n"
  refusal := "DSC anchor (EnrollDefaultKeys.inf) not found"
  named := by decide
  mention_in := by decide
  no_return := by decide

/-- The firmware volume. -/
def fdfListing : Listing where
  anchor := "  INF  SecurityPkg/VariableAuthenticated/SecureBootConfigDxe/SecureBootConfigDxe.inf\n"
  mention := "INF  " ++ driverInf
  line := "  INF  " ++ driverInf ++ "\n"
  refusal := "FDF anchor (SecureBootConfigDxe.inf) not found"
  named := by decide
  mention_in := by decide
  no_return := by decide

/-- `wire_dsc`. -/
def wireDsc : String → Except Exc String := dscListing.wire

/-- `wire_fdf`. -/
def wireFdf : String → Except Exc String := fdfListing.wire

/-! ### The tree -/

/-- The component list, in the tree. -/
def dsc : Path := ["OvmfPkg", "CloudHv", "CloudHvX64.dsc"]

/-- The firmware volume, in the tree. -/
def fdf : Path := ["OvmfPkg", "CloudHv", "CloudHvX64.fdf"]

/-- The driver, in the tree. -/
def targetDriver : Path := ["OvmfPkg", "K8LabsEnrollKeys"]

/-- The generated key header, in the driver directory. -/
def header : Path := ["K8LabsSecureBootKeys.h"]

/-- `path.write_text(f(path.read_text()))`. -/
def rewrite (path : Path) (f : String → Except Exc String) (fs : FileSystem) :
    Except Exc FileSystem :=
  (readText fs path).bind fun text => (f text).bind fun text' => fs.write path text'.toUTF8

/-- `wire`, with the driver that stands at `driverDir`. -/
def wire (driverDir : Path) (driver : FileSystem) : Effect FileSystem Exc Unit := do
  if !driver.isFile header then
    Effect.throw ⟨.fileNotFoundError, "missing generated key header: " ++
      (driverDir ++ header).text ++ " (run scripts/edk2_esl.py --header-out)"⟩
  change fun fs => if fs.present targetDriver then fs.rmtree targetDriver else .ok fs
  change fun fs => fs.copytree driver targetDriver
  change (rewrite dsc wireDsc)
  change (rewrite fdf wireFdf)

/-! ### What it is for -/

/-- A checked-out tree. -/
structure Edk2Tree where
  files : FileSystem
  isDir : files.isDir [] = true

namespace Listing

variable (l : Listing)

/-- The driver stands on the line behind an anchor. -/
def Listed (text : List Char) : Prop :=
  ∃ before body after, text = before ++ l.anchor.toList ++ body ++ after ∧ '\n' ∉ body ∧
    (after = [] ∨ after.head? = some '\n') ∧ Py.strip (String.ofList body) = l.mention

/-- The driver is listed behind the anchor, and all other text is as it was. -/
def Added (text text' : List Char) : Prop :=
  text' = text ∧ l.Listed text ∨
    ∃ before after, text = before ++ l.anchor.toList ++ after ∧
      text' = before ++ l.anchor.toList ++ l.line.toList ++ after

/-- There is a place for the driver, or something that is taken for it. -/
def Finds (text : List Char) : Prop :=
  l.mention.toList <:+: Py.universalNewlines text ∨ l.anchor.toList <:+: Py.universalNewlines text

end Listing

/-- The two files and the driver directory of the tree are as they were. -/
def Untouched (fs fs' : FileSystem) : Prop :=
  fs'.node dsc = fs.node dsc ∧ fs'.node fdf = fs.node fdf ∧
    ∀ p, fs'.node (targetDriver ++ p) = fs.node (targetDriver ++ p)

/-- The driver is listed in a file. -/
def Wired (l : Listing) (path : Path) (fs fs' : FileSystem) : Prop :=
  ∃ text text', textAt fs path = some text ∧ textAt fs' path = some text' ∧ l.Added text text'

/-- The run raises and leaves everything as it was, or returns with the driver wired. -/
def Atomic (driverDir : Path) (driver : FileSystem) (tree : Edk2Tree) : Prop :=
  match wire driverDir driver tree.files with
  | (.error _, fs') => Untouched tree.files fs'
  | (.ok _, fs') => Wired dscListing dsc tree.files fs' ∧ Wired fdfListing fdf tree.files fs' ∧
      ∀ p, fs'.node (targetDriver ++ p) = driver.node p

/-- Wiring once more changes nothing. -/
def Idempotent (driverDir : Path) (driver : FileSystem) (tree : Edk2Tree) : Prop :=
  (wire driverDir driver (wire driverDir driver tree.files).2).2 = (wire driverDir driver tree.files).2

/-- The file can be read, and there is a place for the driver or something that is taken for it. -/
def Ready (l : Listing) (path : Path) (fs : FileSystem) : Prop :=
  ∃ text, textAt fs path = some text ∧ l.Finds text

/-- The file has no carriage return, and where the driver is found it is listed. -/
def Clean (l : Listing) (path : Path) (fs : FileSystem) : Prop :=
  ∀ text, textAt fs path = some text →
    '\r' ∉ text ∧ (l.mention.toList <:+: text → l.Listed text)

/-- The file has no carriage return, and the driver is found in it. -/
def Settled (l : Listing) (path : Path) (fs : FileSystem) : Prop :=
  ∀ text, textAt fs path = some text → '\r' ∉ text ∧ l.mention.toList <:+: text

/-- The package that the driver stands in. -/
def ovmfPkg : Path := ["OvmfPkg"]

/-- The run gets to the driver: there is a header, and no file stands in the way. -/
def Copies (driver fs : FileSystem) : Prop :=
  driver.isFile header = true ∧ fs.isFile targetDriver = false ∧ fs.isFile ovmfPkg = false

/-- A run that gets to the driver finds both files ready and clean, or the driver copied already and
no file to change before the one that is not ready. -/
def Sound (driver fs : FileSystem) : Prop :=
  Copies driver fs →
    (Ready dscListing dsc fs → Ready fdfListing fdf fs →
      Clean dscListing dsc fs ∧ Clean fdfListing fdf fs) ∧
    (¬(Ready dscListing dsc fs ∧ Ready fdfListing fdf fs) →
      (∀ p, fs.node (targetDriver ++ p) = driver.node p) ∧
        (Ready dscListing dsc fs → Settled dscListing dsc fs))

/-! ### The text with the driver -/

section Text

variable {l : Listing} {text text' : List Char}

/-- What comes out for a text. -/
def Listing.Result (l : Listing) (text text' : List Char) : Prop :=
  l.mention.toList <:+: text ∧ text' = text ∨
    ¬l.mention.toList <:+: text ∧ ∃ before after, text = before ++ l.anchor.toList ++ after ∧
      text' = before ++ l.anchor.toList ++ l.line.toList ++ after

theorem Listing.wire_cases (l : Listing) (text : List Char) :
    (∃ e, l.wire (String.ofList text) = .error e) ∧
        ¬(l.mention.toList <:+: text ∨ l.anchor.toList <:+: text) ∨
      (∃ text', l.wire (String.ofList text) = .ok (String.ofList text') ∧ l.Result text text') ∧
        (l.mention.toList <:+: text ∨ l.anchor.toList <:+: text) := by
  have hmention : Py.isIn l.mention (String.ofList text) = true ↔ l.mention.toList <:+: text := by
    rw [Py.isIn_iff, String.toList_ofList]
  have hanchor : Py.isIn l.anchor (String.ofList text) = true ↔ l.anchor.toList <:+: text := by
    rw [Py.isIn_iff, String.toList_ofList]
  unfold wire
  by_cases hin : l.mention.toList <:+: text
  · rw [if_pos (hmention.2 hin)]
    exact .inr ⟨⟨text, rfl, .inl ⟨hin, rfl⟩⟩, .inl hin⟩
  rw [if_neg (mt hmention.1 hin)]
  by_cases hfound : l.anchor.toList <:+: text
  · rw [hanchor.2 hfound]
    refine .inr ⟨⟨_, rfl, .inr ⟨hin, ?_⟩⟩, .inr hfound⟩
    obtain ⟨i, hi⟩ := Option.ne_none_iff_exists'.1 (mt Py.find_eq_none_iff.1 (not_not.2 hfound))
    refine ⟨text.take i, text.drop (i + l.anchor.toList.length), Py.eq_of_find hi, ?_⟩
    rw [String.toList_ofList, replaceFirst, hi, String.toList_append]
    simp only [List.append_assoc]
  · rw [Bool.eq_false_iff.2 (mt hanchor.1 hfound)]
    exact .inl ⟨⟨_, rfl⟩, not_or.2 ⟨hin, hfound⟩⟩

theorem Listing.Result.mention (h : l.Result text text') : l.mention.toList <:+: text' := by
  rcases h with ⟨hin, rfl⟩ | ⟨-, before, after, -, rfl⟩
  · exact hin
  · exact l.mention_in.trans ⟨before ++ l.anchor.toList, after, rfl⟩

theorem Listing.no_return_anchor (l : Listing) : '\r' ∉ l.anchor.toList ∧ '\r' ∉ l.line.toList := by
  have h := l.no_return
  rwa [String.toList_append, List.mem_append, not_or] at h

theorem Listing.Result.no_return (h : l.Result text text') (hno : '\r' ∉ text) : '\r' ∉ text' := by
  rcases h with ⟨-, rfl⟩ | ⟨-, before, after, rfl, rfl⟩
  · exact hno
  · simp only [List.mem_append, not_or] at hno ⊢
    exact ⟨⟨hno.1, l.no_return_anchor.2⟩, hno.2⟩

theorem Listing.line_ne_nil (l : Listing) : l.line.toList ≠ [] := by
  intro hnil
  have h := l.mention_in
  rw [hnil, List.infix_nil] at h
  exact l.named (String.toList_injective h)

/-- **When a file is wired**: it has no carriage return, and where the driver is found it is listed. -/
theorem Listing.Result.added_iff (h : l.Result (Py.universalNewlines text) text') :
    l.Added text text' ↔ '\r' ∉ text ∧ (l.mention.toList <:+: text → l.Listed text) := by
  constructor
  · intro hadded
    have hno' := h.no_return (Py.return_notMem_universalNewlines text)
    have hno : '\r' ∉ text := by
      rcases hadded with ⟨rfl, -⟩ | ⟨before, after, rfl, rfl⟩
      · exact hno'
      · simp only [List.mem_append, not_or] at hno' ⊢
        exact ⟨hno'.1.1, hno'.2⟩
    refine ⟨hno, fun hin => ?_⟩
    rw [Py.universalNewlines_eq_self hno] at h
    obtain rfl : text' = text := h.elim And.right fun h => absurd hin h.1
    rcases hadded with ⟨-, hlisted⟩ | ⟨before, after, htext, htext'⟩
    · exact hlisted
    · -- a line that is added makes the text longer
      have hlength := congrArg List.length (htext.symm.trans htext')
      have hpos := List.length_pos_iff.2 l.line_ne_nil
      simp only [List.length_append] at hlength
      omega
  · rintro ⟨hno, hlisted⟩
    rw [Py.universalNewlines_eq_self hno] at h
    rcases h with ⟨hin, rfl⟩ | ⟨-, before, after, rfl, rfl⟩
    · exact .inl ⟨rfl, hlisted hin⟩
    · exact .inr ⟨before, after, rfl, rfl⟩

/-- When a file is as it was. -/
theorem Listing.Result.eq_self_iff (h : l.Result (Py.universalNewlines text) text') :
    text' = text ↔ '\r' ∉ text ∧ l.mention.toList <:+: text := by
  constructor
  · rintro rfl
    have hno := h.no_return (Py.return_notMem_universalNewlines text')
    exact ⟨hno, h.mention⟩
  · rintro ⟨hno, hin⟩
    rw [Py.universalNewlines_eq_self hno] at h
    exact h.elim And.right fun h => absurd hin h.1

end Text

/-! ### Rewriting a file -/

section Rewrite

variable {l : Listing} {fs fs' : FileSystem} {path : Path} {text : List Char}

/-- **What rewriting a file does.** -/
theorem rewrite_cases (l : Listing) (hpath : path ≠ []) (fs : FileSystem) :
    (∃ e, rewrite path l.wire fs = .error e) ∧ ¬Ready l path fs ∨
      Ready l path fs ∧ ∃ text text' fs', rewrite path l.wire fs = .ok fs' ∧
        textAt fs path = some text ∧ l.Result (Py.universalNewlines text) text' ∧
        textAt fs' path = some text' ∧ ∀ q, q ≠ path → fs'.node q = fs.node q := by
  rcases htext : textAt fs path with _ | text
  · obtain ⟨e, he⟩ := FileSystem.readText_of_textAt_none htext
    refine .inl ⟨⟨e, ?_⟩, ?_⟩
    · rw [rewrite, he]
      rfl
    · rintro ⟨text, h, -⟩
      cases htext.symm.trans h
  have hread := FileSystem.readText_of_textAt htext
  rcases l.wire_cases (Py.universalNewlines text) with ⟨⟨e, he⟩, hnot⟩ | ⟨⟨text', hwire, hresult⟩, hfinds⟩
  · refine .inl ⟨⟨e, ?_⟩, ?_⟩
    · rw [rewrite, hread]
      change (l.wire (String.ofList (Py.universalNewlines text))).bind _ = _
      rw [he]
      rfl
    · rintro ⟨text₂, h, hfinds⟩
      cases htext.symm.trans h
      exact hnot hfinds
  · obtain ⟨fs', hwrite⟩ := FileSystem.exists_write hpath (textAt_eq_some.1 htext)
      (String.ofList text').toUTF8
    obtain ⟨hfile, hrest⟩ := FileSystem.write_eq_ok hwrite
    refine .inr ⟨⟨text, htext, hfinds⟩, text, text', fs', ?_, rfl, hresult, ?_, hrest⟩
    · rw [rewrite, hread]
      change (l.wire (String.ofList (Py.universalNewlines text))).bind _ = _
      rw [hwire]
      exact hwrite
    · exact textAt_eq_some.2 (FileSystem.fileAt_eq_some.2 hfile)

end Rewrite

/-! ### Copying the driver -/

section Copy

variable {driverDir : Path} {driver fs fs' : FileSystem}

/-- The driver is in the tree, which is else as it was. -/
structure Copied (driver fs fs' : FileSystem) : Prop where
  below : ∀ p, fs'.node (targetDriver ++ p) = driver.node p
  beside : ∀ p, ¬targetDriver <+: p → p ≠ ovmfPkg → fs'.node p = fs.node p
  parent : fs'.isDir ovmfPkg = true

/-- The package is a directory before the driver is made. -/
theorem ensure_ovmfPkg (hroot : fs.isDir [] = true) (hparent : fs.isFile ovmfPkg = false) :
    ∃ fs', (if fs.present ovmfPkg then .ok fs else fs.mkdir ovmfPkg) = .ok fs' ∧
      fs'.isDir ovmfPkg = true ∧ ∀ p, p ≠ ovmfPkg → fs'.node p = fs.node p := by
  rcases FileSystem.isDir_or_none hparent with hdir | hnone
  · exact ⟨fs, if_pos (FileSystem.present_of_node (FileSystem.isDir_iff.1 hdir)), hdir, fun _ _ => rfl⟩
  · obtain ⟨fs', hfs'⟩ := FileSystem.exists_mkdir hnone (FileSystem.hasParent_iff.2 ⟨by decide, hroot⟩)
    obtain ⟨-, -, hdir, hrest⟩ := FileSystem.mkdir_eq_ok hfs'
    exact ⟨fs', (if_neg (FileSystem.not_present hnone)).trans hfs', FileSystem.isDir_iff.2 hdir, hrest⟩

/-- The driver is copied to a place where nothing stands. -/
theorem copytree_of_none (driver : FileSystem) (hroot : fs.isDir [] = true)
    (hnone : fs.node targetDriver = none) (hparent : fs.isFile ovmfPkg = false) :
    ∃ fs', fs.copytree driver targetDriver = .ok fs' ∧ Copied driver fs fs' := by
  obtain ⟨fs₁, hfs₁, hdir, hrest⟩ := ensure_ovmfPkg hroot hparent
  have hnone₁ : fs₁.node targetDriver = none := (hrest targetDriver (by decide)).trans hnone
  have hparent₁ : fs₁.hasParent targetDriver = true := FileSystem.hasParent_iff.2 ⟨by decide, hdir⟩
  obtain ⟨fs₂, hfs₂⟩ := FileSystem.exists_mkdir hnone₁ hparent₁
  obtain ⟨-, -, hmade, hrest₂⟩ := FileSystem.mkdir_eq_ok hfs₂
  have hdir₂ : fs₂.isDir ovmfPkg = true := by
    rw [FileSystem.isDir_iff, hrest₂ ovmfPkg (by decide)]
    exact FileSystem.isDir_iff.1 hdir
  have hmakedirs : fs.makedirs targetDriver = .ok fs₂ := by
    have hpresent := FileSystem.present_of_node (FileSystem.isDir_iff.1 hroot)
    have hinits : targetDriver.dropLast.inits = [[], ovmfPkg] := rfl
    rw [FileSystem.makedirs, hinits]
    exact Py.bind_eq_ok.2 ⟨fs₁, Py.bind_eq_ok.2 ⟨fs, if_pos hpresent,
      Py.bind_eq_ok.2 ⟨fs₁, hfs₁, rfl⟩⟩, hfs₂⟩
  refine ⟨fs₂.place targetDriver driver, ?_, ?_, ?_, ?_⟩
  · rw [FileSystem.copytree, hmakedirs]
    rfl
  · exact fun p => FileSystem.node_place_append (.inr (.inr hdir₂))
  · intro p hp hne
    rw [FileSystem.node_place_outside hp, hrest₂ p (fun h => hp (h ▸ List.prefix_refl _)),
      hrest p hne]
  · rw [FileSystem.isDir_iff, FileSystem.node_place_outside (by decide)]
    exact FileSystem.isDir_iff.1 hdir₂

/-- The two rewritten files, after the driver. -/
def rewriteBoth : Effect FileSystem Exc Unit :=
  change (rewrite dsc wireDsc) >>= fun _ => change (rewrite fdf wireFdf)

/-- The run behind the check of the header. -/
def install (driver : FileSystem) : Effect FileSystem Exc Unit :=
  change (fun fs => if fs.present targetDriver then fs.rmtree targetDriver else .ok fs) >>= fun _ =>
    change (fun fs => fs.copytree driver targetDriver) >>= fun _ => rewriteBoth

theorem wire_eq (hheader : driver.isFile header = true) : wire driverDir driver fs = install driver fs := by
  rw [wire, hheader]
  rfl

theorem wire_of_no_header (hheader : driver.isFile header = false) :
    ∃ e, wire driverDir driver fs = (.error e, fs) := by
  rw [wire, hheader]
  exact ⟨_, rfl⟩

/-- What stands at the place of the driver is removed. -/
theorem remove_cases (fs : FileSystem) :
    (∃ e, (if fs.present targetDriver then fs.rmtree targetDriver else .ok fs) = .error e) ∧
      fs.isFile targetDriver = true ∨
    ∃ fs', (if fs.present targetDriver then fs.rmtree targetDriver else .ok fs) = .ok fs' ∧
      fs.isFile targetDriver = false ∧ fs'.node targetDriver = none ∧
      (∀ p, ¬targetDriver <+: p → fs'.node p = fs.node p) := by
  cases hnode : fs.node targetDriver with
  | none =>
    refine .inr ⟨fs, if_neg (FileSystem.not_present hnode), ?_, hnode, fun _ _ => rfl⟩
    rw [FileSystem.isFile, FileSystem.fileAt, hnode]
    rfl
  | some n =>
    rw [if_pos (FileSystem.present_of_node hnode), FileSystem.rmtree, hnode]
    cases n with
    | dir =>
      refine .inr ⟨_, rfl, ?_, FileSystem.node_place_empty (List.prefix_refl _),
        fun p hp => FileSystem.node_place_outside hp⟩
      rw [FileSystem.isFile, FileSystem.fileAt, hnode]
      rfl
    | file bytes =>
      refine .inl ⟨⟨_, rfl⟩, ?_⟩
      rw [FileSystem.isFile, FileSystem.fileAt, hnode]
      rfl

theorem node_targetDriver_of_file (hparent : fs.isFile ovmfPkg = true) :
    fs.node targetDriver = none := by
  obtain ⟨bytes, hbytes⟩ := FileSystem.isFile_iff.1 hparent
  exact FileSystem.node_eq_none_of_file hbytes ⟨["K8LabsEnrollKeys"], rfl⟩ (by decide)

/-- Below a file nothing is made. -/
theorem copytree_of_file (driver : FileSystem) (hparent : fs.isFile ovmfPkg = true) :
    ∃ e, fs.copytree driver targetDriver = .error e := by
  obtain ⟨bytes, hbytes⟩ := FileSystem.isFile_iff.1 hparent
  have hnode := FileSystem.fileAt_eq_some.1 hbytes
  have hpresent := FileSystem.present_of_node hnode
  have hroot : fs.present [] = true := by
    have hdir : fs.isDir [] = true :=
      FileSystem.isDir_above (List.nil_prefix (l := ovmfPkg)) (by decide) (by simp [hnode])
    exact FileSystem.present_of_node (FileSystem.isDir_iff.1 hdir)
  have hfold : Py.fold (fun fs q => if fs.present q then .ok fs else fs.mkdir q) fs
      targetDriver.dropLast.inits = .ok fs :=
    Py.bind_eq_ok.2 ⟨fs, if_pos hroot, Py.bind_eq_ok.2 ⟨fs, if_pos hpresent, rfl⟩⟩
  have hnot : ¬fs.hasParent targetDriver = true := by
    rw [FileSystem.hasParent_iff]
    rintro ⟨-, hdir⟩
    cases (FileSystem.isDir_iff.1 hdir).symm.trans hnode
  have hmkdir : fs.mkdir targetDriver = .error (fs.missing targetDriver) := by
    rw [FileSystem.mkdir, node_targetDriver_of_file hparent]
    exact if_neg hnot
  refine ⟨fs.missing targetDriver, ?_⟩
  rw [FileSystem.copytree, FileSystem.makedirs, hfold]
  exact congrArg (Except.map fun fs => fs.place targetDriver driver) hmkdir

/-- **A run that does not get to the driver** raises, and changes nothing. -/
theorem wire_of_not_copies (driverDir : Path) (h : ¬Copies driver fs) :
    ∃ e, wire driverDir driver fs = (.error e, fs) := by
  cases hheader : driver.isFile header with
  | false => exact wire_of_no_header hheader
  | true =>
    rw [wire_eq hheader, install]
    rcases remove_cases fs with ⟨⟨e, he⟩, -⟩ | ⟨fs', hfs', hnot, hnone, hrest⟩
    · exact ⟨e, Effect.bind_of_error (change_of_error he)⟩
    · have hparent : fs.isFile ovmfPkg = true := by
        by_contra hparent
        exact h ⟨hheader, hnot, Bool.eq_false_iff.2 hparent⟩
      -- nothing stood below a file, so that nothing was removed
      have hsame : fs' = fs := by
        rw [if_neg (FileSystem.not_present (node_targetDriver_of_file hparent))] at hfs'
        exact (Except.ok.inj hfs').symm
      obtain ⟨e, he⟩ := copytree_of_file driver hparent
      rw [Effect.bind_of_ok (change_of_ok hfs'), hsame]
      exact ⟨e, Effect.bind_of_error (change_of_error he)⟩

/-- **A run that gets to the driver** copies it and goes on with the files. -/
theorem wire_of_copies (driverDir : Path) (hroot : fs.isDir [] = true) (h : Copies driver fs) :
    ∃ fs', Copied driver fs fs' ∧ wire driverDir driver fs = rewriteBoth fs' := by
  obtain ⟨hheader, hnot, hparent⟩ := h
  rw [wire_eq hheader, install]
  rcases remove_cases fs with ⟨-, hfile⟩ | ⟨fs₁, hfs₁, -, hnone, hrest⟩
  · cases hnot.symm.trans hfile
  have hroot₁ : fs₁.isDir [] = true := by
    rw [FileSystem.isDir_iff, hrest [] (by decide)]
    exact FileSystem.isDir_iff.1 hroot
  have hparent₁ : fs₁.isFile ovmfPkg = false := by
    rw [FileSystem.isFile, FileSystem.fileAt_congr (hrest ovmfPkg (by decide))]
    exact hparent
  obtain ⟨fs₂, hfs₂, hcopied⟩ := copytree_of_none driver hroot₁ hnone hparent₁
  refine ⟨fs₂, ⟨hcopied.below, fun p hp hne => ?_, hcopied.parent⟩, ?_⟩
  · exact (hcopied.beside p hp hne).trans (hrest p hp)
  · rw [Effect.bind_of_ok (change_of_ok hfs₁)]
    exact Effect.bind_of_ok (change_of_ok hfs₂)

end Copy

/-! ### How a run ends -/

section Ends

variable {l : Listing} {driverDir path : Path} {driver fs fs₁ fs₂ fs₃ : FileSystem} {text : List Char}

theorem ready_congr (h : fs₁.node path = fs.node path) : Ready l path fs₁ ↔ Ready l path fs := by
  rw [Ready, textAt_congr h, Ready]

/-- The two files are beside the driver. -/
theorem Copied.files (h : Copied driver fs fs₁) :
    fs₁.node dsc = fs.node dsc ∧ fs₁.node fdf = fs.node fdf :=
  ⟨h.beside dsc (by decide) (by decide), h.beside fdf (by decide) (by decide)⟩

/-- How the rewriting of both files ends. -/
theorem rewriteBoth_cases (fs : FileSystem) :
    (∃ e, rewriteBoth fs = (.error e, fs)) ∧ ¬Ready dscListing dsc fs ∨
    ∃ text text' fs₁, textAt fs dsc = some text ∧
      dscListing.Result (Py.universalNewlines text) text' ∧ textAt fs₁ dsc = some text' ∧
      (∀ q, q ≠ dsc → fs₁.node q = fs.node q) ∧ Ready dscListing dsc fs ∧
      ((∃ e, rewriteBoth fs = (.error e, fs₁)) ∧ ¬Ready fdfListing fdf fs ∨
        Ready fdfListing fdf fs ∧ ∃ text₂ text₂' fs₂, rewriteBoth fs = (.ok (), fs₂) ∧
          textAt fs fdf = some text₂ ∧ fdfListing.Result (Py.universalNewlines text₂) text₂' ∧
          textAt fs₂ fdf = some text₂' ∧ ∀ q, q ≠ fdf → fs₂.node q = fs₁.node q) := by
  rcases rewrite_cases dscListing (show dsc ≠ [] by decide) fs with
    ⟨⟨e, he⟩, hnot⟩ | ⟨hready, text, text', fs₁, hok, htext, hresult, htext', hrest⟩
  · exact .inl ⟨⟨e, Effect.bind_of_error (change_of_error he)⟩, hnot⟩
  have hfdf : fs₁.node fdf = fs.node fdf := hrest fdf (by decide)
  refine .inr ⟨text, text', fs₁, htext, hresult, htext', hrest, hready, ?_⟩
  have hfirst : rewriteBoth fs = change (rewrite fdf wireFdf) fs₁ :=
    Effect.bind_of_ok (change_of_ok hok)
  rw [hfirst]
  rcases rewrite_cases fdfListing (show fdf ≠ [] by decide) fs₁ with
    ⟨⟨e, he⟩, hnot⟩ | ⟨hready₂, text₂, text₂', fs₂, hok₂, htext₂, hresult₂, htext₂', hrest₂⟩
  · exact .inl ⟨⟨e, change_of_error he⟩, fun h => hnot ((ready_congr hfdf).2 h)⟩
  · refine .inr ⟨(ready_congr hfdf).1 hready₂, text₂, text₂', fs₂, change_of_ok hok₂, ?_, hresult₂,
      htext₂', hrest₂⟩
    rwa [textAt_congr hfdf] at htext₂

theorem wired_iff {text' : List Char} (h : textAt fs path = some text)
    (h' : textAt fs₁ path = some text') (hresult : l.Result (Py.universalNewlines text) text') :
    Wired l path fs fs₁ ↔ Clean l path fs := by
  constructor
  · rintro ⟨u, u', hu, hu', hadded⟩ v hv
    cases h.symm.trans hu
    cases h.symm.trans hv
    cases h'.symm.trans hu'
    exact hresult.added_iff.1 hadded
  · intro hclean
    exact ⟨text, text', h, h', hresult.added_iff.2 (hclean text h)⟩

theorem settled_iff {text' : List Char} (h : textAt fs path = some text)
    (h' : textAt fs₁ path = some text') (hresult : l.Result (Py.universalNewlines text) text') :
    fs₁.node path = fs.node path ↔ Settled l path fs := by
  rw [node_eq_iff h h', hresult.eq_self_iff]
  constructor
  · intro hsame v hv
    cases h.symm.trans hv
    exact hsame
  · exact fun hsettled => hsettled text h

theorem targetDriver_append_ne (p : Path) : targetDriver ++ p ≠ dsc ∧ targetDriver ++ p ≠ fdf := by
  simp [targetDriver, dsc, fdf]

/-- **When a run is atomic.** -/
theorem atomic_iff (tree : Edk2Tree) : Atomic driverDir driver tree ↔ Sound driver tree.files := by
  by_cases hcopies : Copies driver tree.files
  swap
  · obtain ⟨e, he⟩ := wire_of_not_copies driverDir hcopies
    rw [Atomic, he]
    exact iff_of_true ⟨rfl, rfl, fun _ => rfl⟩ fun h => absurd h hcopies
  rw [Sound, imp_iff_right hcopies]
  obtain ⟨fs₁, hcopied, hwire⟩ := wire_of_copies driverDir tree.isDir hcopies
  obtain ⟨hdsc, hfdf⟩ := hcopied.files
  rw [Atomic, hwire]
  rcases rewriteBoth_cases fs₁ with ⟨⟨e, he⟩, hnot⟩ |
    ⟨text, text', fs₂, htext, hresult, htext', hrest, hready, hsecond⟩
  · -- the component list is not ready: only the driver was copied
    rw [ready_congr hdsc] at hnot
    rw [he]
    constructor
    · rintro ⟨-, -, hbelow⟩
      refine ⟨fun h => absurd h hnot, fun _ => ⟨fun p => ?_, fun h => absurd h hnot⟩⟩
      rw [← hbelow, hcopied.below]
    · rintro ⟨-, hsound⟩
      obtain ⟨hsame, -⟩ := hsound fun h => hnot h.1
      exact ⟨hdsc, hfdf, fun p => by rw [hcopied.below, hsame]⟩
  rw [ready_congr hdsc] at hready
  rw [textAt_congr hdsc] at htext
  rw [ready_congr hfdf, textAt_congr hfdf] at hsecond
  have hbelow : ∀ p, fs₂.node (targetDriver ++ p) = driver.node p := fun p => by
    rw [hrest _ (targetDriver_append_ne p).1, hcopied.below]
  rcases hsecond with ⟨⟨e, he⟩, hnot⟩ | ⟨hready₂, text₂, text₂', fs₃, hok, htext₂, hresult₂, htext₂', hrest₂⟩
  · -- the firmware volume is not ready: the component list was written
    rw [he]
    have hboth : ¬(Ready dscListing dsc tree.files ∧ Ready fdfListing fdf tree.files) := fun h => hnot h.2
    constructor
    · rintro ⟨hnode, -, hsame⟩
      refine ⟨fun _ h => absurd h hnot, fun _ => ⟨fun p => ?_, fun _ => ?_⟩⟩
      · rw [← hsame, hbelow]
      · exact (settled_iff htext htext' hresult).1 hnode
    · rintro ⟨-, hsound⟩
      obtain ⟨hsame, hsettled⟩ := hsound hboth
      refine ⟨(settled_iff htext htext' hresult).2 (hsettled hready), ?_, fun p => ?_⟩
      · exact (hrest fdf (by decide)).trans hfdf
      · rw [hbelow, hsame]
  · -- both files were written
    rw [hok]
    have hdsc₃ : textAt fs₃ dsc = some text' := (textAt_congr (hrest₂ dsc (by decide))).trans htext'
    have hbelow₃ : ∀ p, fs₃.node (targetDriver ++ p) = driver.node p := fun p =>
      (hrest₂ _ (targetDriver_append_ne p).2).trans (hbelow p)
    change (Wired _ _ _ _ ∧ Wired _ _ _ _ ∧ _) ↔ _
    rw [wired_iff htext hdsc₃ hresult, wired_iff htext₂ htext₂' hresult₂, and_iff_left hbelow₃]
    constructor
    · exact fun hclean => ⟨fun _ _ => hclean, fun h => absurd ⟨hready, hready₂⟩ h⟩
    · exact fun hsound => hsound.1 hready hready₂

/-- A file in which the driver is found is written as it is. -/
theorem rewrite_settled (hpath : path ≠ []) (htext : textAt fs path = some text)
    (hno : '\r' ∉ text) (hin : l.mention.toList <:+: text) : rewrite path l.wire fs = .ok fs := by
  rcases rewrite_cases l hpath fs with ⟨-, hnot⟩ | ⟨-, text₁, text', fs', hok, htext₁, hresult, htext', hrest⟩
  · refine absurd ⟨text, htext, ?_⟩ hnot
    rw [Listing.Finds, Py.universalNewlines_eq_self hno]
    exact .inl hin
  cases htext.symm.trans htext₁
  obtain rfl := hresult.eq_self_iff.2 ⟨hno, hin⟩
  have hsame : fs' = fs := FileSystem.ext_node fun q => by
    by_cases hq : q = path
    · rw [hq]
      exact (node_eq_iff htext htext').2 rfl
    · exact hrest q hq
  rw [hok, hsame]

/-- Rewriting both files once more changes nothing. -/
theorem rewriteBoth_again (fs : FileSystem) :
    (rewriteBoth (rewriteBoth fs).2).2 = (rewriteBoth fs).2 := by
  have hsettled : ∀ {l : Listing} {text text' : List Char},
      l.Result (Py.universalNewlines text) text' → '\r' ∉ text' ∧ l.mention.toList <:+: text' :=
    fun h => ⟨h.no_return (Py.return_notMem_universalNewlines _), h.mention⟩
  rcases rewriteBoth_cases fs with ⟨⟨e, he⟩, -⟩ |
    ⟨text, text', fs₁, -, hresult, htext', hrest, -, ⟨⟨e, he⟩, hnot⟩ |
      ⟨-, text₂, text₂', fs₂, hok, -, hresult₂, htext₂', hrest₂⟩⟩
  · rw [he]
    exact congrArg Prod.snd he
  · -- the second file is not ready again
    rw [he]
    have hfirst : rewriteBoth fs₁ = change (rewrite fdf wireFdf) fs₁ :=
      Effect.bind_of_ok (change_of_ok (rewrite_settled (by decide) htext' (hsettled hresult).1
        (hsettled hresult).2))
    rcases rewrite_cases fdfListing (show fdf ≠ [] by decide) fs₁ with ⟨⟨e', he'⟩, -⟩ | ⟨hready, -⟩
    · have hend := hfirst.trans (change_of_error he')
      rw [hend]
    · exact absurd ((ready_congr (hrest fdf (by decide))).1 hready) hnot
  · rw [hok]
    have hdsc : textAt fs₂ dsc = some text' := (textAt_congr (hrest₂ dsc (by decide))).trans htext'
    have hfirst : rewriteBoth fs₂ = change (rewrite fdf wireFdf) fs₂ :=
      Effect.bind_of_ok (change_of_ok (rewrite_settled (by decide) hdsc (hsettled hresult).1
        (hsettled hresult).2))
    have hsecond := rewrite_settled (l := fdfListing) (by decide) htext₂' (hsettled hresult₂).1
      (hsettled hresult₂).2
    exact congrArg Prod.snd (hfirst.trans (change_of_ok hsecond))

/-- What the rewriting of the files leaves. -/
theorem rewriteBoth_node (fs : FileSystem) {p : Path} (hdsc : p ≠ dsc) (hfdf : p ≠ fdf) :
    (rewriteBoth fs).2.node p = fs.node p := by
  rcases rewriteBoth_cases fs with ⟨⟨e, he⟩, -⟩ |
    ⟨text, text', fs₁, -, -, -, hrest, -, ⟨⟨e, he⟩, -⟩ | ⟨-, text₂, text₂', fs₂, hok, -, -, -, hrest₂⟩⟩
  · rw [he]
  · rw [he]
    exact hrest p hdsc
  · rw [hok]
    exact (hrest₂ p hfdf).trans (hrest p hdsc)

/-- **A second run changes nothing**, however the first one ended. -/
theorem idempotent (tree : Edk2Tree) : Idempotent driverDir driver tree := by
  unfold Idempotent
  by_cases hcopies : Copies driver tree.files
  swap
  · obtain ⟨e, he⟩ := wire_of_not_copies driverDir hcopies
    rw [he]
    exact congrArg Prod.snd he
  obtain ⟨fs₁, hcopied, hwire⟩ := wire_of_copies driverDir tree.isDir hcopies
  rw [hwire]
  have hroot : (rewriteBoth fs₁).2.isDir [] = true := by
    rw [FileSystem.isDir_iff, rewriteBoth_node _ (by decide) (by decide),
      hcopied.beside [] (by decide) (by decide)]
    exact FileSystem.isDir_iff.1 tree.isDir
  have hbelow : ∀ p, (rewriteBoth fs₁).2.node (targetDriver ++ p) = driver.node p := fun p => by
    rw [rewriteBoth_node _ (targetDriver_append_ne p).1 (targetDriver_append_ne p).2, hcopied.below]
  have hparent : (rewriteBoth fs₁).2.node ovmfPkg = some .dir := by
    rw [rewriteBoth_node _ (by decide) (by decide)]
    exact FileSystem.isDir_iff.1 hcopied.parent
  have hagain : Copies driver (rewriteBoth fs₁).2 := by
    obtain ⟨bytes, hbytes⟩ := FileSystem.isFile_iff.1 hcopies.1
    have hdriver : driver.isDir [] = true :=
      FileSystem.isDir_above (List.nil_prefix (l := header)) (by decide)
        (by simp [FileSystem.fileAt_eq_some.1 hbytes])
    refine ⟨hcopies.1, ?_, ?_⟩
    · have htarget := hbelow []
      rw [List.append_nil, FileSystem.isDir_iff.1 hdriver] at htarget
      rw [FileSystem.isFile, FileSystem.fileAt, htarget]
      rfl
    · rw [FileSystem.isFile, FileSystem.fileAt, hparent]
      rfl
  obtain ⟨fs₂, hcopied₂, hwire₂⟩ := wire_of_copies driverDir hroot hagain
  -- copying the driver to where it is changes nothing
  have hsame : fs₂ = (rewriteBoth fs₁).2 := FileSystem.ext_node fun p => by
    by_cases hp : targetDriver <+: p
    · obtain ⟨q, rfl⟩ := hp
      rw [hcopied₂.below, hbelow]
    · by_cases hne : p = ovmfPkg
      · rw [hne, hparent]
        exact FileSystem.isDir_iff.1 hcopied₂.parent
      · exact hcopied₂.beside p hp hne
  rw [hwire₂, hsame]
  exact rewriteBoth_again fs₁

/-- **When wiring is right.** -/
theorem wire_iff (driverDir : Path) (driver : FileSystem) (tree : Edk2Tree) :
    Atomic driverDir driver tree ∧ Idempotent driverDir driver tree ↔ Sound driver tree.files :=
  (and_iff_left (idempotent tree)).trans (atomic_iff tree)

/-- A driver directory with its header. -/
def smallDriver : FileSystem := .ofLists [[]] [(header, ⟨#[]⟩)] (by decide)

/-- A tree whose firmware volume has no anchor. -/
def volumeWithoutAnchor : Edk2Tree where
  files := .ofLists [[], ["OvmfPkg"], ["OvmfPkg", "CloudHv"]]
    [(dsc, dscListing.anchor.toUTF8), (fdf, "[FV.DXEFV]\n".toUTF8)] (by decide)
  isDir := by decide

/-- The run raises behind the component list, which has the driver then. -/
theorem volumeWithoutAnchor_half_wired : ¬∀ driverDir driver tree,
    Atomic driverDir driver tree ∧ Idempotent driverDir driver tree := by
  intro hall
  have hsound := (atomic_iff volumeWithoutAnchor).1 (hall ["driver"] smallDriver _).1
  have hfdf : ¬Ready fdfListing fdf volumeWithoutAnchor.files := by
    rintro ⟨text, htext, hfinds⟩
    have hvolume : textAt volumeWithoutAnchor.files fdf = some "[FV.DXEFV]\n".toList :=
      textAt_eq_some.2 (by rw [String.ofList_toList]; rfl)
    cases hvolume.symm.trans htext
    revert hfinds
    unfold Listing.Finds
    decide
  have hsame := ((hsound ⟨by decide, by decide, by decide⟩).2 fun h => hfdf h.2).1 []
  cases hsame

end Ends

end WireEnroll

end Firmware
