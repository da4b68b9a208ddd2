import K8Labs.GuestUpgrade.Sources

/-!
# The images of a stage

* `Packs` : what an image tool makes of a tree.
* `buildImages_eq_ok` : **every image is what a tool made of the source of its extension**, and the
  list says its digest and its size.
* `stageTree` : a manifest, the images, and nothing else.
* `finishStage_eq_ok` : **at the end the working directory is that tree.**
-/

namespace GuestUpgrade

open Py (Exc Items Value Path FileSystem Eff Env World)

/-- The tool that `build.sh` finds packs the tree. -/
def Packs (tools : Tools) (tree : FileSystem) (raw : ByteArray) : Prop :=
  ∃ n pack, tools.packer = some pack ∧ (pack n tree).ran.code = 0 ∧ (pack n tree).image = some raw

/-- The entry of an image. -/
def imageOf (raw : Extension → ByteArray) (extension : Extension) : Image :=
  ⟨extension, Py.sha256 (raw extension), (raw extension).size⟩

section Build

variable {env : Env} {tools : Tools} {w w' : World} {workDir : Path} {extension other : Extension}

/-! ### The build script -/

/-- Where the script writes for an extension. -/
def Written (workDir : Path) (extension : Extension) (q : Path) : Prop :=
  q = builderOf workDir ++ ["release"] ∨ rawOf workDir extension <+: q ∨
    builderOf workDir ++ ["release", extension.name] <+: q

theorem Written.release {q : Path} (h : Written workDir extension q) :
    builderOf workDir ++ ["release"] <+: q := by
  rcases h with rfl | h | h
  · exact List.prefix_refl _
  · exact .trans ⟨[extension.rawName], by simp [rawOf]⟩ h
  · exact .trans ⟨[extension.name], by simp⟩ h

theorem not_written_raw (hne : extension ≠ other) : ¬ Written workDir extension (rawOf workDir other) := by
  have hraw : ∀ a b : Extension, a ≠ b → a.rawName ≠ b.rawName ∧ a.name ≠ b.rawName := by
    rintro (_ | _ | _) (_ | _ | _) h <;> first | exact absurd rfl h | decide
  obtain ⟨h₁, h₂⟩ := hraw extension other hne
  rintro (h | h | h)
  · simp [rawOf] at h
  · have heq := h.eq_of_length (by simp [rawOf])
    exact h₁ (by simpa [rawOf] using heq)
  · have heq := h.eq_of_length (by simp [rawOf])
    exact h₂ (by simpa [rawOf] using heq)

theorem sameOutside_buildSh (n : ℕ) (fs : FileSystem) :
    fs.SameOutside (Written workDir extension)
      (buildSh tools n (builderOf workDir) (sourceOf workDir extension) extension.name fs).2 := by
  have hmade : fs.SameOutside (Written workDir extension)
      (fs.ensure (builderOf workDir ++ ["release"])) :=
    (FileSystem.sameOutside_ensure fs _).mono fun _ => .inl
  have hplaced : ∀ (fs : FileSystem) bytes, fs.SameOutside (Written workDir extension)
      (fs.place (builderOf workDir ++ ["release", extension.name ++ ".raw"])
        (.single (.file bytes))) := fun fs bytes =>
    (FileSystem.sameOutside_place fs _ _).mono fun _ h => .inr (.inl h)
  unfold buildSh
  split
  · exact .refl fs
  · dsimp only
    split
    · split_ifs
      · exact hmade
      · cases (Packed.image _) with
        | none => exact hmade
        | some bytes => exact hmade.trans (hplaced _ _)
    · exact hmade.trans ((FileSystem.sameOutside_place _ _ _).mono fun _ h => .inr (.inr h))

/-- An image that was not there before is the work of the tool. -/
theorem packs_of_buildSh {n : ℕ} {fs fs' : FileSystem} {ran : Ran} {raw : ByteArray}
    (hnone : fs.node (rawOf workDir extension) = none)
    (h : buildSh tools n (builderOf workDir) (sourceOf workDir extension) extension.name fs = (ran, fs'))
    (hcode : ran.code = 0) (hraw : fs'.fileAt (rawOf workDir extension) = some raw) :
    Packs tools (fs.subtree (sourceOf workDir extension)) raw := by
  have hmade : (fs.ensure (builderOf workDir ++ ["release"])).node (rawOf workDir extension) = none := by
    rw [FileSystem.sameOutside_ensure fs _ _ (by simp [rawOf]), hnone]
  have hmadeFile : (fs.ensure (builderOf workDir ++ ["release"])).fileAt (rawOf workDir extension) =
      none := by rw [FileSystem.fileAt, hmade]
  have hsource : (fs.ensure (builderOf workDir ++ ["release"])).subtree (sourceOf workDir extension) =
      fs.subtree (sourceOf workDir extension) := by
    refine (FileSystem.sameOutside_ensure fs _).subtree ?_
    rintro q hq rfl
    simp [sourceOf, builderOf, List.prefix_append_right_inj] at hq
  unfold buildSh at h
  split at h
  · cases h
    simp [die] at hcode
  · dsimp only at h
    split at h
    · rename_i pack hpack
      rw [FileSystem.isFile] at h
      have hpath : builderOf workDir ++ ["release", extension.name ++ ".raw"] =
        rawOf workDir extension := rfl
      rw [hpath, hmadeFile, hsource] at h
      simp only [Option.isSome_none, Bool.and_false, Bool.false_and, Bool.false_eq_true,
        if_false] at h
      obtain ⟨rfl, rfl⟩ := Prod.mk.inj h
      refine ⟨n, pack, hpack, hcode, ?_⟩
      cases himage : (pack n (fs.subtree (sourceOf workDir extension))).image with
      | none =>
        rw [himage, Option.elim_none, hmadeFile] at hraw
        cases hraw
      | some bytes =>
        rw [himage, Option.elim_some] at hraw
        rcases FileSystem.fileAt_place_cases hraw with hold | ⟨r, hr, hfile⟩
        · rw [hmadeFile] at hold
          cases hold
        · obtain rfl : r = [] := by simpa using hr
          exact congrArg some (Option.some.inj hfile)
    · -- in directory mode no image is written
      cases h
      have houtside : ¬ builderOf workDir ++ ["release", extension.name] <+:
          rawOf workDir extension := by
        intro hle
        have heq := hle.eq_of_length (by simp [rawOf])
        revert heq
        cases extension <;> simp [rawOf, Extension.rawName, Extension.name]
      rw [FileSystem.fileAt_place_outside houtside, hmadeFile] at hraw
      cases hraw

/-! ### One image after the other -/

theorem within_runBuilder : (runBuilder env tools workDir extension).Within workDir ["builder"] := by
  have hbelow : workDir ++ ["builder"] <+: builderOf workDir ++ ["release"] :=
    ⟨["extensions", "release"], by simp [builderOf]⟩
  have hconfined : (runBuilder env tools workDir extension).Confined
      (builderOf workDir ++ ["release"] <+: ·) := by
    refine Py.confined_call (fun n fs a fs' h => ?_) fun i fs => FileSystem.sameOutside_place _ _ _
    rw [← (Prod.mk.inj (Except.ok.inj h)).2]
    exact (sameOutside_buildSh n fs).mono fun _ => Written.release
  exact hconfined.within fun q hq => ⟨"builder", List.mem_singleton_self _, hbelow.trans hq⟩

theorem within_buildImage : (buildImage env tools workDir extension).Within workDir ["builder"] := by
  refine within_runBuilder.bind fun result => ?_
  split_ifs
  · exact Eff.within_throw _
  · refine (within_inspect _).bind fun produced => ?_
    split_ifs
    · exact (within_inspect _).bind fun _ => (within_inspect _).bind fun _ => Eff.within_pure _
    · exact Eff.within_throw _

theorem within_makeBuilder : (Py.makeDirs env (builderOf workDir)).Within workDir ["builder"] := by
  have hbuilder : "builder" ∈ ["builder"] := List.mem_singleton_self _
  refine (Py.within_mkdirs hbuilder (.inl ⟨[], by simp [builderOf]⟩)).bind fun _ =>
    (Py.confined_makeDir _).within ?_
  rintro q rfl
  exact ⟨"builder", hbuilder, ⟨["extensions"], by simp [builderOf]⟩⟩

theorem within_copyScript {script : Path} :
    (Py.copyFile env script (builderOf workDir ++ ["build.sh"])).Within workDir ["builder"] :=
  (within_inspect _).bind fun _ =>
    within_writeFile (List.mem_singleton_self _) ⟨["extensions", "build.sh"], by simp [builderOf]⟩ _

theorem within_buildImages {repoRoot : Path} :
    (buildImages env tools repoRoot workDir).Within workDir ["builder"] :=
  within_makeBuilder.bind fun _ => within_copyScript.bind fun _ =>
    Eff.within_collect fun _ _ => within_buildImage

theorem buildImage_eq_ok {image : Image} (hnone : w.fs.node (rawOf workDir extension) = none)
    (h : buildImage env tools workDir extension w = (.ok image, w')) :
    ∃ raw, image = ⟨extension, Py.sha256 raw, raw.size⟩ ∧ raw.size ≠ 0 ∧
      Packs tools (w.fs.subtree (sourceOf workDir extension)) raw ∧
      w'.fs.fileAt (rawOf workDir extension) = some raw ∧
      w.fs.SameOutside (Written workDir extension) w'.fs := by
  obtain ⟨result, w₁, hrun, h⟩ := Eff.bind_eq_ok h
  have hbuild := Except.ok.inj (Py.call_eq_ok hrun)
  split_ifs at h with hcode
  · cases h
  obtain ⟨produced, w₂, hproduced, h⟩ := Eff.bind_eq_ok h
  obtain ⟨hproduced, hfs₂⟩ := Py.inspect_eq_ok hproduced
  split_ifs at h with hyes
  swap
  · cases h
  obtain ⟨digest, w₃, hdigest, h⟩ := Eff.bind_eq_ok h
  obtain ⟨hdigest, hfs₃⟩ := Py.inspect_eq_ok hdigest
  obtain ⟨raw, hread, rfl⟩ := Py.map_eq_ok.1 hdigest
  obtain ⟨size, w₄, hsize, h⟩ := Eff.bind_eq_ok h
  obtain ⟨⟨raw', hraw', rfl⟩, hfs₄⟩ := Py.fileSize_eq_ok hsize
  obtain ⟨rfl, rfl⟩ := Eff.pure_eq_ok h
  have hraw : w₂.fs.fileAt (rawOf workDir extension) = some raw := FileSystem.read_eq_ok.1 hread
  rw [hfs₃] at hraw'
  obtain rfl := Option.some.inj (hraw.symm.trans hraw')
  rw [hfs₂] at hraw
  have hnonempty : raw.size ≠ 0 := by
    rw [← Except.ok.inj hproduced, hraw] at hyes
    simpa using hyes
  refine ⟨raw, rfl, hnonempty, packs_of_buildSh hnone hbuild (not_not.1 hcode) hraw, ?_, ?_⟩
  · rw [hfs₄, hfs₃, hfs₂, hraw]
  · rw [hfs₄, hfs₃, hfs₂]
    rw [show w₁.fs = (buildSh tools w.clock (builderOf workDir) (sourceOf workDir extension)
      extension.name w.fs).2 by rw [hbuild]]
    exact sameOutside_buildSh w.clock w.fs

theorem collect_buildImage_eq_ok {xs : List Extension} {images : List Image} (hnodup : xs.Nodup)
    (hnone : ∀ extension ∈ xs, w.fs.node (rawOf workDir extension) = none)
    (h : Eff.collect (buildImage env tools workDir) xs w = (.ok images, w')) :
    ∃ raw : Extension → ByteArray, images = xs.map (imageOf raw) ∧
      (∀ extension ∈ xs, (raw extension).size ≠ 0 ∧
        Packs tools (w.fs.subtree (sourceOf workDir extension)) (raw extension) ∧
        w'.fs.fileAt (rawOf workDir extension) = some (raw extension)) ∧
      w.fs.SameOutside (fun q => ∃ extension ∈ xs, Written workDir extension q) w'.fs := by
  induction xs generalizing w images with
  | nil =>
    obtain ⟨rfl, rfl⟩ := Eff.pure_eq_ok h
    exact ⟨fun _ => .empty, rfl, by simp, .refl _⟩
  | cons extension xs ih =>
    obtain ⟨hfresh, hnodup⟩ := List.nodup_cons.1 hnodup
    obtain ⟨image, w₁, hfirst, h⟩ := Eff.bind_eq_ok h
    obtain ⟨rest, w₂, hrest, h⟩ := Eff.bind_eq_ok h
    obtain ⟨rfl, rfl⟩ := Eff.pure_eq_ok h
    obtain ⟨bytes, rfl, hsize, hpacks, hfile, hsame⟩ :=
      buildImage_eq_ok (hnone extension List.mem_cons_self) hfirst
    have hother : ∀ other ∈ xs, extension ≠ other := fun other hmem heq => hfresh (heq ▸ hmem)
    obtain ⟨raw, rfl, hraw, hsame'⟩ := ih hnodup
      (fun other hmem => (hsame _ (not_written_raw (hother other hmem))).trans
        (hnone other (List.mem_cons_of_mem _ hmem))) hrest
    -- a build leaves the sources alone
    have hsource : ∀ other, w₁.fs.subtree (sourceOf workDir other) =
        w.fs.subtree (sourceOf workDir other) := by
      refine fun other => hsame.subtree fun q hq hwritten => ?_
      have hsources : workDir ++ ["sources"] <+: q := .trans ⟨[other.name], by simp [sourceOf]⟩ hq
      have hbuilder : workDir ++ ["builder"] <+: q :=
        .trans ⟨["extensions", "release"], by simp [builderOf]⟩ hwritten.release
      exact absurd (Py.eq_of_below_both hsources hbuilder) (by decide)
    refine ⟨Function.update raw extension bytes, ?_, ?_, ?_⟩
    · rw [List.map_cons, imageOf, Function.update_self]
      refine congrArg _ (List.map_congr_left fun other hmem => ?_)
      rw [imageOf, imageOf, Function.update_of_ne (hother other hmem).symm]
    · refine List.forall_mem_cons.2 ⟨?_, fun other hmem => ?_⟩
      · rw [Function.update_self]
        refine ⟨hsize, hpacks, ?_⟩
        have hnot : ¬ ∃ other ∈ xs, Written workDir other (rawOf workDir extension) := by
          rintro ⟨other, hmem, hwritten⟩
          exact not_written_raw (hother other hmem).symm hwritten
        rw [FileSystem.fileAt_congr (hsame' _ hnot), hfile]
      · rw [Function.update_of_ne (hother other hmem).symm]
        obtain ⟨hsize', hpacks', hfile'⟩ := hraw other hmem
        exact ⟨hsize', hsource other ▸ hpacks', hfile'⟩
    · refine (hsame.mono fun q hq => ⟨extension, List.mem_cons_self, hq⟩).trans (hsame'.mono ?_)
      rintro q ⟨other, hmem, hq⟩
      exact ⟨other, List.mem_cons_of_mem _ hmem, hq⟩

theorem mem_extensions (extension : Extension) : extension ∈ extensions := by
  cases extension <;> decide

/-- **Every image** is what a tool made of the source of its extension. -/
theorem buildImages_eq_ok {repoRoot : Path} {images : List Image}
    (hdir : w.fs.isDir workDir = true)
    (h : buildImages env tools repoRoot workDir w = (.ok images, w')) :
    ∃ raw : Extension → ByteArray, images = extensions.map (imageOf raw) ∧ ∀ extension,
      (raw extension).size ≠ 0 ∧
      Packs tools (w.fs.subtree (sourceOf workDir extension)) (raw extension) ∧
      w'.fs.fileAt (rawOf workDir extension) = some (raw extension) := by
  obtain ⟨⟨⟩, w₁, hmakeRun, h⟩ := Eff.bind_eq_ok h
  obtain ⟨⟨⟩, w₂, hcopyRun, h⟩ := Eff.bind_eq_ok h
  have hdir₁ := within_makeBuilder.isDir hdir hmakeRun
  have hsource : ∀ extension, w₂.fs.subtree (sourceOf workDir extension) =
      w.fs.subtree (sourceOf workDir extension) := fun extension =>
    (within_copyScript.subtree hdir₁ hcopyRun (by decide)).trans
      (within_makeBuilder.subtree hdir hmakeRun (by decide))
  -- the directory of the builder is new, so there is no image in it
  have hnone : ∀ extension, w₂.fs.node (rawOf workDir extension) = none := by
    intro extension
    obtain ⟨⟨⟩, w₀, -, hmakeDir⟩ := Eff.bind_eq_ok hmakeRun
    have hempty := FileSystem.subtree_of_mkdir (Py.mkdir_of_makeDir hmakeDir)
    have hnode : w₁.fs.node (rawOf workDir extension) = none :=
      congrArg (FileSystem.node · ["release", extension.rawName]) hempty
    rw [(Py.confined_copyFile _ _).same hcopyRun _ (by simp [rawOf]), hnode]
  obtain ⟨raw, himages, hraw, -⟩ := collect_buildImage_eq_ok (by decide)
    (fun extension _ => hnone extension) h
  exact ⟨raw, himages, fun extension => hsource extension ▸ hraw extension (mem_extensions extension)⟩

end Build

/-! ### The finished stage -/

/-- The directory of the images. -/
def imagesTree (raw : Extension → ByteArray) : FileSystem :=
  extensions.foldl (fun t extension => t.place [extension.rawName] (.single (.file (raw extension))))
    (.single .dir)

/-- The manifest, the images, and nothing else. -/
def stageTree (manifest : ByteArray) (raw : Extension → ByteArray) : FileSystem :=
  ((FileSystem.single .dir).place ["images"] (imagesTree raw)).place ["manifest.json"]
    (.single (.file manifest))

section Finish

variable {env : Env} {w w' : World} {workDir : Path} {raw : Extension → ByteArray}

theorem subtree_stageTree_images (manifest : ByteArray) (raw : Extension → ByteArray) :
    (stageTree manifest raw).subtree ["images"] = imagesTree raw := by
  rw [stageTree, FileSystem.subtree_place_apart (by simp) (by simp)]
  have hroot : (FileSystem.single .dir).isDir [] = true := rfl
  exact FileSystem.subtree_place_self (.inr (.inr hroot))

theorem subtree_stageTree_manifest (manifest : ByteArray) (raw : Extension → ByteArray) :
    (stageTree manifest raw).subtree ["manifest.json"] = .single (.file manifest) := by
  have hroot : ((FileSystem.single .dir).place ["images"] (imagesTree raw)).isDir [] = true := by
    rw [FileSystem.isDir, FileSystem.node_place_outside (by simp)]
    rfl
  exact FileSystem.subtree_place_self (.inr (.inr hroot))

theorem node_stageTree_root (manifest : ByteArray) : (stageTree manifest raw).node [] = some .dir := by
  rw [stageTree, FileSystem.node_place_outside (by simp), FileSystem.node_place_outside (by simp)]
  rfl

theorem node_stageTree_other (manifest : ByteArray) {name : String} {r : Path}
    (himages : name ≠ "images") (hmanifest : name ≠ "manifest.json") :
    (stageTree manifest raw).node (name :: r) = none := by
  rw [stageTree,
    FileSystem.node_place_outside (by simpa [List.cons_prefix_cons] using Ne.symm hmanifest),
    FileSystem.node_place_outside (by simpa [List.cons_prefix_cons] using Ne.symm himages)]
  rfl

theorem within_moveImage (image : Image) : (Py.osReplace env (rawOf workDir image.extension)
    (workDir ++ ["images", image.extension.rawName])).Within workDir ["images", "builder"] := by
  refine (Py.confined_osReplace _ _).within ?_
  rintro q (hq | hq)
  · exact ⟨"builder", by simp, .trans ⟨["extensions", "release", image.extension.rawName],
      by simp [rawOf, builderOf]⟩ hq⟩
  · exact ⟨"images", by simp, .trans ⟨[image.extension.rawName], by simp⟩ hq⟩

/-- One image is moved. -/
theorem moveImage_eq_ok {extension : Extension}
    (hraw : w.fs.fileAt (rawOf workDir extension) = some (raw extension))
    (h : Py.osReplace env (rawOf workDir extension) (workDir ++ ["images", extension.rawName]) w =
      (.ok (), w')) :
    w'.fs.subtree (workDir ++ ["images"]) = (w.fs.subtree (workDir ++ ["images"])).place
        [extension.rawName] (.single (.file (raw extension))) ∧
      ∀ other, extension ≠ other →
        w'.fs.fileAt (rawOf workDir other) = w.fs.fileAt (rawOf workDir other) := by
  have hne : rawOf workDir extension ≠ workDir ++ ["images", extension.rawName] := by
    intro heq
    simpa [rawOf, builderOf] using congrArg List.length heq
  have hapart : ∀ other rest, ¬ workDir ++ "images" :: rest <+: rawOf workDir other := by
    intro other rest hle
    rw [rawOf, builderOf, List.append_assoc, List.prefix_append_right_inj] at hle
    simp at hle
  have hapart' : ∀ rest, ¬ rawOf workDir extension <+: workDir ++ "images" :: rest := by
    intro rest hle
    rw [rawOf, builderOf, List.append_assoc, List.prefix_append_right_inj] at hle
    simp at hle
  have hfs := FileSystem.replace_eq_place (Py.change_eq_ok h) hne
  constructor
  · rw [hfs, show workDir ++ ["images", extension.rawName] =
      (workDir ++ ["images"]) ++ [extension.rawName] by simp, FileSystem.subtree_place (by simp),
      FileSystem.subtree_place_apart (hapart _ _) (hapart' _), FileSystem.subtree_of_file hraw]
  · intro other hother
    have hrawApart : ¬ rawOf workDir extension <+: rawOf workDir other := fun hle =>
      not_written_raw hother (.inr (.inl hle))
    rw [hfs, FileSystem.fileAt_place_outside (hapart other _),
      FileSystem.fileAt_place_outside hrawApart]

theorem moveImages_eq_ok {xs : List Extension} (hnodup : xs.Nodup)
    (hraw : ∀ extension ∈ xs, w.fs.fileAt (rawOf workDir extension) = some (raw extension))
    (h : Eff.forEach (fun image : Image => Py.osReplace env (rawOf workDir image.extension)
      (workDir ++ ["images", image.extension.rawName])) (xs.map (imageOf raw)) w = (.ok (), w')) :
    w'.fs.subtree (workDir ++ ["images"]) = xs.foldl (fun t extension =>
      t.place [extension.rawName] (.single (.file (raw extension))))
      (w.fs.subtree (workDir ++ ["images"])) := by
  induction xs generalizing w with
  | nil =>
    obtain ⟨-, rfl⟩ := Eff.pure_eq_ok h
    rfl
  | cons extension xs ih =>
    obtain ⟨hfresh, hnodup⟩ := List.nodup_cons.1 hnodup
    obtain ⟨⟨⟩, w₁, hfirst, hrest⟩ := Eff.bind_eq_ok h
    obtain ⟨htree, hkept⟩ := moveImage_eq_ok (hraw extension List.mem_cons_self) hfirst
    rw [List.foldl_cons, ← htree]
    refine ih hnodup (fun other hmem => ?_) hrest
    rw [hkept other fun heq => hfresh (heq ▸ hmem), hraw other (List.mem_cons_of_mem _ hmem)]

theorem within_finishStage {lock stage : Items} {ids : Extension → Value} {images : List Image} :
    (finishStage env lock stage workDir ids images).Within workDir
      ["images", "manifest.json", "sources", "builder"] := by
  have hbelow : ∀ name ∈ ["images", "manifest.json", "sources", "builder"], ∀ q,
      workDir ++ [name] <+: q → ∃ name' ∈ ["images", "manifest.json", "sources", "builder"],
        workDir ++ [name'] <+: q := fun name hname q hq => ⟨name, hname, hq⟩
  refine ((Py.confined_makeDir _).within fun q hq => hbelow "images" (by simp) q ?_).bind fun _ =>
    (Eff.within_forEach fun image _ => (within_moveImage image).mono (by simp)).bind fun _ =>
      (Eff.within_lift _).bind fun _ => (Eff.within_lift _).bind fun bytes =>
        (within_writeFile (by simp) (List.prefix_refl _) bytes).bind fun _ =>
          ((Py.confined_removeTree _).within (hbelow "sources" (by simp))).bind fun _ =>
            (Py.confined_removeTree _).within (hbelow "builder" (by simp))
  rw [hq]

/-- **At the end** the working directory holds the manifest and the images. -/
theorem finishStage_eq_ok {lock stage : Items} {ids : Extension → Value}
    (hdir : w.fs.isDir workDir = true)
    (hraw : ∀ extension, w.fs.fileAt (rawOf workDir extension) = some (raw extension))
    (honly : ∀ q, workDir <+: q → q ≠ workDir → ¬ workDir ++ ["sources"] <+: q →
      ¬ workDir ++ ["builder"] <+: q → w.fs.node q = none)
    (h : finishStage env lock stage workDir ids (extensions.map (imageOf raw)) w = (.ok (), w')) :
    ∃ manifest bytes,
      stageManifest env lock stage ids (extensions.map (imageOf raw)) = .ok manifest ∧
      manifestBytes env manifest = .ok bytes ∧ w'.fs.subtree workDir = stageTree bytes raw := by
  have hend := within_finishStage.same hdir h
  have hdir' := within_finishStage.isDir hdir h
  obtain ⟨⟨⟩, w₁, hmake, h⟩ := Eff.bind_eq_ok h
  obtain ⟨⟨⟩, w₂, hmove, h⟩ := Eff.bind_eq_ok h
  obtain ⟨manifest, hmanifest, h⟩ := Eff.bind_lift_eq_ok h
  obtain ⟨bytes, hbytes, h⟩ := Eff.bind_lift_eq_ok h
  obtain ⟨⟨⟩, w₃, hwrite, h⟩ := Eff.bind_eq_ok h
  obtain ⟨⟨⟩, w₄, hsources, hbuilder⟩ := Eff.bind_eq_ok h
  refine ⟨manifest, bytes, hmanifest, hbytes, ?_⟩
  -- the last steps leave what the first ones made
  have hkept : ∀ q, (∀ name ∈ ["sources", "builder"], ¬ workDir ++ [name] <+: q) →
      w'.fs.node q = w₃.fs.node q := by
    intro q hq
    rw [(Py.confined_removeTree _).same hbuilder q (hq _ (by simp)),
      (Py.confined_removeTree _).same hsources q (hq _ (by simp))]
  have happart : ∀ {name name' : String} {r : Path}, name ≠ name' →
      ¬ workDir ++ [name'] <+: workDir ++ name :: r := by
    intro name name' r hne hle
    rw [List.prefix_append_right_inj, List.cons_prefix_cons] at hle
    exact hne hle.1.symm
  have himages : w'.fs.subtree (workDir ++ ["images"]) = imagesTree raw := by
    have hmoved := moveImages_eq_ok (by decide) (fun extension _ => ?_) hmove
    · rw [FileSystem.subtree_of_mkdir (Py.mkdir_of_makeDir hmake)] at hmoved
      rw [imagesTree, ← hmoved]
      refine FileSystem.ext_node fun r => ?_
      have hne : workDir ++ ["images"] ++ r ≠ workDir ++ ["manifest.json"] := by simp
      refine (hkept _ ?_).trans ((Py.confined_writeFile _ _).same hwrite _ hne)
      intro name hname
      rw [List.append_assoc, List.singleton_append]
      refine happart ?_
      rintro rfl
      simp at hname
    · rw [FileSystem.fileAt_congr ((Py.confined_makeDir _).same hmake _ (by simp [rawOf, builderOf])),
        hraw]
  have hmanifestTree : w'.fs.subtree (workDir ++ ["manifest.json"]) = .single (.file bytes) := by
    refine FileSystem.subtree_of_file ?_
    rw [FileSystem.fileAt_congr (hkept _ (by simp)), Py.fileAt_of_writeFile hwrite]
  have hremoved : ∀ name ∈ ["sources", "builder"], ∀ r, w'.fs.node (workDir ++ name :: r) = none := by
    have hgone : ∀ {fs fs' : FileSystem} {name : String} {r : Path},
        fs.rmtree (workDir ++ [name]) = .ok fs' → fs'.node (workDir ++ name :: r) = none := by
      intro fs fs' name r hrm
      rw [(FileSystem.rmtree_eq_ok hrm).2]
      exact FileSystem.node_place_empty ⟨r, by simp⟩
    simp only [List.forall_mem_cons, List.not_mem_nil, false_implies, implies_true, and_true]
    refine ⟨fun r => ?_, fun r => hgone (Py.change_eq_ok hbuilder)⟩
    rw [(Py.confined_removeTree _).same hbuilder _ (happart (by decide))]
    exact hgone (Py.change_eq_ok hsources)
  refine FileSystem.ext_node fun r => ?_
  cases r with
  | nil =>
    rw [node_stageTree_root]
    exact (congrArg w'.fs.node (List.append_nil workDir)).trans (FileSystem.isDir_iff.1 hdir')
  | cons name r =>
    have hcons : workDir ++ name :: r = workDir ++ [name] ++ r := by simp
    by_cases hname : name = "images"
    · subst hname
      exact (congrArg w'.fs.node hcons).trans (congrArg (FileSystem.node · r)
        (himages.trans (subtree_stageTree_images bytes raw).symm))
    by_cases hname' : name = "manifest.json"
    · subst hname'
      exact (congrArg w'.fs.node hcons).trans (congrArg (FileSystem.node · r)
        (hmanifestTree.trans (subtree_stageTree_manifest bytes raw).symm))
    rw [node_stageTree_other _ hname hname']
    by_cases hrest : name ∈ ["sources", "builder"]
    · exact hremoved name hrest r
    · rw [List.mem_cons, List.mem_singleton, not_or] at hrest
      refine (hend _ ?_).trans (honly _ (List.prefix_append _ _) (by simp)
        (happart hrest.1) (happart hrest.2))
      rintro ⟨other, hother, hle⟩
      have heq := Py.eq_of_below_both (hcons ▸ List.prefix_append _ r) hle
      simp only [← heq, List.mem_cons, List.not_mem_nil, or_false] at hother
      rcases hother with h | h | h | h
      · exact hname h
      · exact hname' h
      · exact hrest.1 h
      · exact hrest.2 h

end Finish

end GuestUpgrade
