import K8Labs.GuestUpgrade.Publish

/-!
# All stages of a lock

`buildStages` on a lock that `load_lock` has accepted, whose versions are names that differ
(`exists_versions`).  The loop keeps `Partway`: the stages so far are published, and nothing else is
below the output.

* `buildStages_publishes` : **however `build_stages` ends, every stage directory is absent or a whole
  stage, and the manifest over all stages is there only when all of them are.**
-/

namespace GuestUpgrade

open Py (Exc Items Value Path FileSystem Eff Env World)
open Artifacts (UrlParse)

/-! ### The versions of a lock -/

/-- The version of a stage is the name of its directory. -/
structure Versioned (stage : Items) (version : String) : Prop where
  get_eq : stage.get "kubernetes" = .str version
  head : version.toList.head? = some 'v'
  no_slash : '/' ∉ version.toList

theorem Versioned.pathParts {stage : Items} {version : String} (h : Versioned stage version) :
    Py.pathParts version = [version] := by
  have hname : ∀ name ∈ [version], Py.IsName name := by
    simp only [List.mem_singleton, forall_eq]
    have hhead := h.head
    refine ⟨?_, ?_, ?_, h.no_slash⟩
    all_goals
      rintro rfl
      revert hhead
      decide
  simpa using Py.pathParts_intercalate hname

theorem matchVersion_shape {cs minor : List Char} (h : Artifacts.matchVersion cs = some minor) :
    cs.head? = some 'v' ∧ '/' ∉ cs := by
  unfold Artifacts.matchVersion at h
  split at h
  · cases h
  · rename_i rest hrest
    dsimp only at h
    split at h
    · rename_i patch hpatch
      split_ifs at h with hall
      have hrest' : rest = rest.takeWhile Py.isDigit ++ '.' :: patch := by
        rw [← hpatch, List.takeWhile_append_dropWhile]
      have hcs : cs = "v1.".toList ++ rest := by
        obtain ⟨rfl⟩ := List.isPrefixOf?_eq_some_iff_append_eq.1 hrest
        rfl
      have hdigits : ∀ c ∈ rest.takeWhile Py.isDigit, c ≠ '/' := by
        rintro c hc rfl
        have := List.mem_takeWhile_imp hc
        revert this
        decide
      have hpatchDigits : '/' ∉ patch := by
        intro hmem
        have := List.all_eq_true.1 hall.2.2 '/' hmem
        revert this
        decide
      subst hcs
      refine ⟨rfl, ?_⟩
      rw [hrest']
      simp only [List.mem_append, List.mem_cons, not_or]
      exact ⟨by decide, fun hmem => hdigits _ hmem rfl, by decide, hpatchDigits⟩
    · cases h

theorem kubernetesVersion_shape {version : String} {minor : ℕ}
    (h : Artifacts.kubernetesVersion version = .ok (some minor)) :
    version.toList.head? = some 'v' ∧ '/' ∉ version.toList := by
  unfold Artifacts.kubernetesVersion at h
  split at h
  · cases h
  · exact matchVersion_shape ‹_›

/-- Two stages with one version would have one minor. -/
theorem exists_named {artifacts : List (String × Items)} {stages : List Items} {minors : List ℕ}
    (h : List.Forall₂ (Artifacts.ValidStage artifacts) stages minors) (hnodup : minors.Nodup) :
    ∃ named : List (Items × String), named.map Prod.fst = stages ∧
      (∀ s ∈ named, Versioned s.1 s.2) ∧
      (∀ s ∈ named, ∃ minor ∈ minors, Artifacts.kubernetesVersion s.2 = .ok (some minor)) ∧
      (named.map Prod.snd).Nodup := by
  induction h with
  | nil => exact ⟨[], rfl, by simp, by simp, List.nodup_nil⟩
  | @cons stage minor stages minors hstage _ ih =>
    obtain ⟨version, _, hget, hversion, -⟩ := hstage.versions
    obtain ⟨hhead, hslash⟩ := kubernetesVersion_shape hversion
    obtain ⟨hfresh, hnodup⟩ := List.nodup_cons.1 hnodup
    obtain ⟨named, rfl, hversioned, hminors, hnames⟩ := ih hnodup
    refine ⟨(stage, version) :: named, rfl, List.forall_mem_cons.2 ⟨⟨hget, hhead, hslash⟩, hversioned⟩,
      List.forall_mem_cons.2 ⟨⟨minor, List.mem_cons_self, hversion⟩, fun s hs => ?_⟩,
      List.nodup_cons.2 ⟨fun hmem => ?_, hnames⟩⟩
    · obtain ⟨other, hother, heq⟩ := hminors s hs
      exact ⟨other, List.mem_cons_of_mem _ hother, heq⟩
    · obtain ⟨s, hs, rfl⟩ := List.mem_map.1 hmem
      obtain ⟨other, hother, heq⟩ := hminors s hs
      obtain rfl := Option.some.inj (Except.ok.inj (heq.symm.trans hversion))
      exact hfresh hother

/-- The stages of an accepted lock have names that differ. -/
theorem exists_versions {urlparse : UrlParse} {data : Value} {lock : Items}
    (h : Artifacts.loadLock urlparse data = .ok lock) :
    ∃ stages : List (Items × String),
      lock.get "kubernetes_upgrade_matrix" = .list (stages.map fun s => .dict s.1) ∧
      (∀ s ∈ stages, Versioned s.1 s.2) ∧ (stages.map Prod.snd).Nodup := by
  obtain ⟨-, -, artifacts, -, hmatrix⟩ := Artifacts.loadLock_eq_ok h
  obtain ⟨stages, minors, target, hvalid⟩ := Artifacts.validateUpgradeMatrix_eq_ok hmatrix
  obtain ⟨first, targetMinor, -, -, hminors⟩ := hvalid.minors_eq
  obtain ⟨named, rfl, hversioned, -, hnames⟩ :=
    exists_named hvalid.stages_valid (hminors ▸ List.nodup_range')
  exact ⟨named, by rw [hvalid.matrix_eq, List.map_map]; rfl, hversioned, hnames⟩

theorem index_of_get {items : Items} {key : String} {v : Value} (h : items.get key = v)
    (hne : v ≠ .none) : (Value.dict items).index key = .ok v := by
  cases hlookup : Py.Items.lookup items key with
  | none =>
    rw [Py.Items.get, hlookup] at h
    exact absurd h.symm hne
  | some value =>
    rw [Py.Items.get, hlookup] at h
    simp only [Value.index, hlookup]
    exact congrArg Except.ok h

/-- What is selected is a part of the matrix. -/
theorem selectStages_eq_ok {lock : Items} {stages : List (Items × String)} {selected : List Value}
    {version : Option String}
    (hmatrix : lock.get "kubernetes_upgrade_matrix" = .list (stages.map fun s => .dict s.1))
    (h : selectStages lock version = .ok selected) :
    ∃ chosen : List (Items × String), chosen.Sublist stages ∧ selected = chosen.map fun s => .dict s.1 := by
  have hindex := index_of_get hmatrix (by simp [Value.none])
  simp only [selectStages, hindex, Except.bind, Value.iterate] at h
  cases version with
  | none =>
    obtain rfl := Except.ok.inj h
    exact ⟨stages, List.Sublist.refl _, rfl⟩
  | some version =>
    obtain ⟨parts, hparts, rfl⟩ := Py.map_eq_ok.1 h
    replace hparts := Py.traverse_eq_ok.1 hparts
    clear h hindex hmatrix
    induction stages generalizing parts with
    | nil =>
      cases hparts
      exact ⟨[], List.Sublist.refl _, rfl⟩
    | cons s stages ih =>
      cases hparts with
      | cons hpart hparts =>
        obtain ⟨chosen, hsub, heq⟩ := ih _ hparts
        obtain ⟨value, -, rfl⟩ := Py.map_eq_ok.1 hpart
        rw [List.flatten_cons, heq]
        split_ifs
        · exact ⟨s :: chosen, hsub.cons_cons s, rfl⟩
        · exact ⟨chosen, hsub.cons s, rfl⟩

/-! ### From one stage to the next -/

section Loop

variable {urlparse : UrlParse} {env : Env} {openTar : OpenTar} {tools : Tools} {lock : Items}
  {cacheRoot repoRoot outputDir : Path} {w w' : World} {fs fs' : FileSystem}
  {done rest : List (Items × String)}

/-- A stage is built from the templates and the cache only. -/
theorem PublishedAs.of_same {stage : Items} {images : List Image} {tree : FileSystem}
    (h : PublishedAs urlparse env openTar tools lock cacheRoot repoRoot stage fs' images tree)
    (htemplate : ∀ extension, fs'.subtree (templateOf repoRoot extension) =
      fs.subtree (templateOf repoRoot extension))
    (hcache : fs'.subtree cacheRoot = fs.subtree cacheRoot) :
    PublishedAs urlparse env openTar tools lock cacheRoot repoRoot stage fs images tree := by
  obtain ⟨ids, artifact, files, raw, manifest, bytes, hlocked, hholds, hpacks, hrest⟩ := h
  refine ⟨ids, artifact, files, raw, manifest, bytes, fun extension => ?_, hholds,
    fun extension => htemplate extension ▸ hpacks extension, hrest⟩
  obtain ⟨hnamed, inventory, item, directory, hinventory, hitem, hdir, hfile, hsha⟩ := hlocked extension
  refine ⟨hnamed, inventory, item, directory, hinventory, hitem, hdir, ?_, hsha⟩
  obtain ⟨digest, -, rfl⟩ := Py.map_eq_ok.1 hdir
  have hpath : (cacheRoot ++ ["locks", digest]).join item.cachePath =
      cacheRoot ++ (["locks", digest] ++ Py.pathParts item.cachePath) := by simp [Path.join]
  rw [hpath] at hfile ⊢
  rw [← hfile]
  exact FileSystem.fileAt_congr (congrArg (FileSystem.node · _) hcache).symm

/-- Where the stages of an output are, with their temporary directories. -/
def Occupied (outputDir : Path) (xs : List (Items × String)) (q : Path) : Prop :=
  ∃ x ∈ xs, outputDir ++ [x.2] <+: q ∨ Staging (outputDir ++ [x.2]) q

/-- The stages so far are published, and nothing else is new but directories above the output. -/
structure Partway (urlparse : UrlParse) (env : Env) (openTar : OpenTar) (tools : Tools) (lock : Items)
    (cacheRoot repoRoot outputDir : Path) (fs fs' : FileSystem) (done : List (Items × String)) :
    Prop where
  kept : fs.Extends fs'
  built : ∀ x ∈ done, ∃ images, PublishedAs urlparse env openTar tools lock cacheRoot repoRoot x.1 fs
    images (fs'.subtree (outputDir ++ [x.2]))
  new : ∀ q, fs.node q = none → fs'.node q ≠ none →
    q <+: outputDir ∨ ∃ x ∈ done, outputDir ++ [x.2] <+: q

/-- However the loop is left. -/
structure Left (urlparse : UrlParse) (env : Env) (openTar : OpenTar) (tools : Tools) (lock : Items)
    (cacheRoot repoRoot outputDir : Path) (fs fs' : FileSystem) (xs : List (Items × String)) :
    Prop where
  kept : fs.Extends fs'
  whole : ∀ x ∈ xs, fs'.node (outputDir ++ [x.2]) = none ∨ ∃ images, PublishedAs urlparse env openTar
    tools lock cacheRoot repoRoot x.1 fs images (fs'.subtree (outputDir ++ [x.2]))
  new : ∀ q, fs.node q = none → fs'.node q ≠ none → q <+: outputDir ∨ Occupied outputDir xs q

/-- What the output must be apart from. -/
structure Elsewhere (cacheRoot repoRoot outputDir : Path) : Prop where
  templates : ∀ extension, Apart outputDir (templateOf repoRoot extension)
  cache : Apart outputDir cacheRoot

/-- What is apart from the output is not changed by what is new in it. -/
theorem subtree_of_new {q : Path} {area : Path → Prop} (hq : Apart outputDir q)
    (hkept : fs.Extends fs') (hnew : ∀ s, fs.node s = none → fs'.node s ≠ none →
      s <+: outputDir ∨ area s) (harea : ∀ s, area s → outputDir <+: s) :
    fs'.subtree q = fs.subtree q := by
  refine FileSystem.ext_node fun r => ?_
  change fs'.node (q ++ r) = fs.node (q ++ r)
  cases hold : fs.node (q ++ r) with
  | some n => exact hkept _ _ hold
  | none =>
    by_contra hpresent
    rcases hnew _ hold hpresent with habove | hin
    · exact hq.2 ((List.prefix_append q r).trans habove)
    · exact (List.prefix_or_prefix_of_prefix (harea _ hin) (List.prefix_append q r)).elim hq.1 hq.2

theorem head_stagingName (name text : String) :
    ("." ++ name ++ ".stage-" ++ text).toList.head? = some '.' := by
  simp [String.toList_append]

/-- A name below the output that begins with `v` is not a temporary directory. -/
theorem eq_of_occupied {x y : Items × String} (hy : Versioned y.1 y.2) {q : Path}
    (hx : outputDir ++ [x.2] <+: q ∨ Staging (outputDir ++ [x.2]) q) (hq : outputDir ++ [y.2] <+: q) :
    x.2 = y.2 := by
  rcases hx with hle | ⟨text, hle⟩
  · exact Py.eq_of_below_both hle hq
  · rw [List.dropLast_concat] at hle
    have hname := Py.eq_of_below_both hle hq
    have hhead := hy.head
    rw [← hname, head_stagingName] at hhead
    exact absurd hhead (by decide)

/-- Another stage leaves a stage as it is. -/
theorem subtree_of_outcome {stage : Items} {x y : Items × String} {r : Except Exc (List Image)}
    (hy : Versioned y.1 y.2) (hne : x.2 ≠ y.2)
    (h : Outcome urlparse env openTar tools lock cacheRoot repoRoot stage (outputDir ++ [x.2]) fs fs' r) :
    fs'.subtree (outputDir ++ [y.2]) = fs.subtree (outputDir ++ [y.2]) := by
  refine FileSystem.ext_node fun s => ?_
  change fs'.node (outputDir ++ [y.2] ++ s) = fs.node (outputDir ++ [y.2] ++ s)
  have hs := List.prefix_append (outputDir ++ [y.2]) s
  cases hold : fs.node (outputDir ++ [y.2] ++ s) with
  | some n => exact h.kept _ _ hold
  | none =>
    by_contra hpresent
    rcases h.new _ hold hpresent with habove | hin | hstaging
    · exact hne (Py.eq_of_below_both (List.prefix_refl _) (hs.trans habove))
    · exact hne (eq_of_occupied hy (.inl hin) hs)
    · exact hne (eq_of_occupied hy (.inr hstaging) hs)

theorem buildSelected_cases {x : Items × String} (hx : Versioned x.1 x.2) {r : Except Exc Value}
    (hpaths : ∀ extension, ¬ templateOf repoRoot extension <+: outputDir ++ [x.2])
    (h : buildSelected urlparse env openTar tools lock cacheRoot repoRoot outputDir (.dict x.1) w =
      (r, w')) :
    ∃ r', Outcome urlparse env openTar tools lock cacheRoot repoRoot x.1 (outputDir ++ [x.2]) w.fs
        w'.fs r' ∧
      ∀ output, r = .ok output → ∃ images, r' = .ok images ∧ stageOutput x.1 images = .ok output := by
  have hindex := index_of_get hx.get_eq (by simp [Value.none])
  have habsolute : Py.isAbsolute x.2 = false := by
    rw [Py.isAbsolute, hx.head]
    rfl
  have hpath : stagePath outputDir (.str x.2) = .ok (outputDir ++ [x.2]) := by
    change Except.ok (if Py.isAbsolute x.2 then _ else _) = _
    rw [habsolute, if_neg Bool.false_ne_true, Path.join, hx.pathParts]
  have hname : '/' ∉ (outputDir ++ [x.2]).name.toList := by
    rw [Path.name_concat]
    exact hx.no_slash
  have hrun : buildSelected urlparse env openTar tools lock cacheRoot repoRoot outputDir (.dict x.1) w =
      (buildStage urlparse env openTar tools lock cacheRoot repoRoot x.1 (outputDir ++ [x.2]) >>=
        fun images => Eff.lift (stageOutput x.1 images)) w :=
    (Eff.bind_lift_of_ok hindex).trans
      ((Eff.bind_lift_of_ok hpath).trans (Eff.bind_lift_of_ok rfl))
  rw [hrun] at h
  obtain ⟨r', w₁, hstage⟩ : ∃ r w₁, buildStage urlparse env openTar tools lock cacheRoot repoRoot x.1
    (outputDir ++ [x.2]) w = (r, w₁) := ⟨_, _, rfl⟩
  have houtcome := buildStage_publishes hname hpaths hstage
  refine ⟨r', ?_, ?_⟩
  · cases r' with
    | error e =>
      rw [Eff.bind_of_error hstage] at h
      cases h
      exact houtcome
    | ok images =>
      rw [Eff.bind_of_ok hstage] at h
      cases h
      exact houtcome
  · rintro output rfl
    obtain ⟨images, w₂, hrun', hlift⟩ := Eff.bind_eq_ok h
    rw [hstage] at hrun'
    exact ⟨images, (Prod.mk.inj hrun').1, (Eff.lift_eq_ok hlift).1⟩

theorem Elsewhere.paths (helse : Elsewhere cacheRoot repoRoot outputDir) (version : String)
    (extension : Extension) : ¬ templateOf repoRoot extension <+: outputDir ++ [version] := by
  intro hle
  rcases List.prefix_concat_iff.1 hle with heq | hle
  · exact (helse.templates extension).1 (heq ▸ List.prefix_append _ _)
  · exact (helse.templates extension).2 hle

theorem Partway.left (h : Partway urlparse env openTar tools lock cacheRoot repoRoot outputDir fs fs'
    done) : Left urlparse env openTar tools lock cacheRoot repoRoot outputDir fs fs' done :=
  ⟨h.kept, fun x hx => .inr (h.built x hx), fun q hq hq' =>
    (h.new q hq hq').imp_right fun ⟨x, hx, hle⟩ => ⟨x, hx, .inl hle⟩⟩

/-- Where a loop has been left, the stages after that are missing. -/
theorem Left.append {xs ys : List (Items × String)} (hnone : fs.node outputDir = none)
    (hversions : ∀ y ∈ ys, Versioned y.1 y.2) (hnodup : ((xs ++ ys).map Prod.snd).Nodup)
    (h : Left urlparse env openTar tools lock cacheRoot repoRoot outputDir fs fs' xs) :
    Left urlparse env openTar tools lock cacheRoot repoRoot outputDir fs fs' (xs ++ ys) := by
  refine ⟨h.kept, fun y hy => ?_, fun q hq hq' => (h.new q hq hq').imp_right
    fun ⟨x, hx, hle⟩ => ⟨x, List.mem_append_left _ hx, hle⟩⟩
  rcases List.mem_append.1 hy with hy | hy
  · exact h.whole y hy
  · left
    by_contra hpresent
    have hbefore := FileSystem.node_eq_none_below hnone (List.prefix_append outputDir [y.2])
    rcases h.new _ hbefore hpresent with habove | ⟨x, hx, hle⟩
    · simpa using habove.length_le
    · have heq := eq_of_occupied (hversions y hy) hle (List.prefix_refl _)
      rw [List.map_append] at hnodup
      exact List.disjoint_of_nodup_append hnodup (List.mem_map_of_mem hx)
        (heq ▸ List.mem_map_of_mem hy)

/-- **One stage** is added to those that are published, or the loop is left. -/
theorem partway_step {x : Items × String} {r : Except Exc Value} (hnone : fs.node outputDir = none)
    (helse : Elsewhere cacheRoot repoRoot outputDir) (hx : Versioned x.1 x.2)
    (hdone : ∀ y ∈ done, Versioned y.1 y.2 ∧ x.2 ≠ y.2)
    (hstate : Partway urlparse env openTar tools lock cacheRoot repoRoot outputDir fs w.fs done)
    (h : buildSelected urlparse env openTar tools lock cacheRoot repoRoot outputDir (.dict x.1) w =
      (r, w')) :
    (∀ y ∈ done, w'.fs.subtree (outputDir ++ [y.2]) = w.fs.subtree (outputDir ++ [y.2])) ∧
    Left urlparse env openTar tools lock cacheRoot repoRoot outputDir fs w'.fs (done ++ [x]) ∧
    ∀ output, r = .ok output →
      Partway urlparse env openTar tools lock cacheRoot repoRoot outputDir fs w'.fs (done ++ [x]) ∧
      ∃ images, stageOutput x.1 images = .ok output ∧ PublishedAs urlparse env openTar tools lock
        cacheRoot repoRoot x.1 fs images (w'.fs.subtree (outputDir ++ [x.2])) := by
  obtain ⟨r', houtcome, hok⟩ := buildSelected_cases hx (helse.paths x.2) h
  have hsame : ∀ y ∈ done,
      w'.fs.subtree (outputDir ++ [y.2]) = w.fs.subtree (outputDir ++ [y.2]) := fun y hy =>
    subtree_of_outcome (hdone y hy).1 (hdone y hy).2 houtcome
  have hbuilt : ∀ y ∈ done, ∃ images, PublishedAs urlparse env openTar tools lock cacheRoot repoRoot
      y.1 fs images (w'.fs.subtree (outputDir ++ [y.2])) := fun y hy => by
    rw [hsame y hy]
    exact hstate.built y hy
  -- the stage began with the templates and the cache that the loop began with
  have hbelow : ∀ s, (∃ y ∈ done, outputDir ++ [y.2] <+: s) → outputDir <+: s :=
    fun s ⟨y, _, hle⟩ => (List.prefix_append _ _).trans hle
  have hback : ∀ {images tree}, PublishedAs urlparse env openTar tools lock cacheRoot repoRoot x.1 w.fs
      images tree → PublishedAs urlparse env openTar tools lock cacheRoot repoRoot x.1 fs images tree :=
    fun hpublished => hpublished.of_same
      (fun extension => subtree_of_new (helse.templates extension) hstate.kept hstate.new hbelow)
      (subtree_of_new helse.cache hstate.kept hstate.new hbelow)
  have hmissing : w.fs.node (outputDir ++ [x.2]) = none := by
    by_contra hpresent
    have hbefore := FileSystem.node_eq_none_below hnone (List.prefix_append outputDir [x.2])
    rcases hstate.new _ hbefore hpresent with habove | ⟨y, hy, hle⟩
    · simpa using habove.length_le
    · exact (hdone y hy).2 (Py.eq_of_below_both hle (List.prefix_refl _)).symm
  have hkept := hstate.kept.trans houtcome.kept
  -- a path that is new now was new before, or is new since
  have hnew : ∀ q, fs.node q = none → w'.fs.node q ≠ none → q <+: outputDir ∨
      (∃ y ∈ done, outputDir ++ [y.2] <+: q) ∨ outputDir ++ [x.2] <+: q ∨
      (Staging (outputDir ++ [x.2]) q ∧ w.fs.node q = none) := by
    intro q hq hq'
    by_cases hmid : w.fs.node q = none
    · rcases houtcome.new q hmid hq' with habove | hin | hstaging
      · rcases List.prefix_concat_iff.1 habove with rfl | habove
        · exact .inr (.inr (.inl (List.prefix_refl _)))
        · exact .inl habove
      · exact .inr (.inr (.inl hin))
      · exact .inr (.inr (.inr ⟨hstaging, hmid⟩))
    · exact (hstate.new q hq hmid).imp_right .inl
  refine ⟨hsame, ⟨hkept, ?_, fun q hq hq' => ?_⟩, ?_⟩
  · intro y hy
    rcases List.mem_append.1 hy with hy | hy
    · exact .inr (hbuilt y hy)
    · obtain rfl := List.mem_singleton.1 hy
      exact (houtcome.whole hmissing).imp_right fun ⟨images, hpublished⟩ => ⟨images, hback hpublished⟩
  · rcases hnew q hq hq' with habove | ⟨y, hy, hle⟩ | hin | ⟨hstaging, -⟩
    · exact .inl habove
    · exact .inr ⟨y, List.mem_append_left _ hy, .inl hle⟩
    · exact .inr ⟨x, by simp, .inl hin⟩
    · exact .inr ⟨x, by simp, .inr hstaging⟩
  · intro output houtput
    obtain ⟨images, rfl, hstageOutput⟩ := hok output houtput
    obtain ⟨-, hpublished, hclean⟩ := houtcome.returned images rfl
    refine ⟨⟨hkept, fun y hy => ?_, fun q hq hq' => ?_⟩, images, hstageOutput, hback hpublished⟩
    · rcases List.mem_append.1 hy with hy | hy
      · exact hbuilt y hy
      · obtain rfl := List.mem_singleton.1 hy
        exact ⟨images, hback hpublished⟩
    · rcases hnew q hq hq' with habove | ⟨y, hy, hle⟩ | hin | ⟨hstaging, hmid⟩
      · exact .inl habove
      · exact .inr ⟨y, List.mem_append_left _ hy, hle⟩
      · exact .inr ⟨x, by simp, hin⟩
      · exact absurd ((hclean q hstaging).trans hmid) hq'

/-- **The loop**: all stages are published, or it is left at one of them. -/
theorem collect_buildSelected {r : Except Exc (List Value)} (hnone : fs.node outputDir = none)
    (helse : Elsewhere cacheRoot repoRoot outputDir)
    (hversions : ∀ x ∈ done ++ rest, Versioned x.1 x.2)
    (hnodup : ((done ++ rest).map Prod.snd).Nodup)
    (hstate : Partway urlparse env openTar tools lock cacheRoot repoRoot outputDir fs w.fs done)
    (h : Eff.collect (buildSelected urlparse env openTar tools lock cacheRoot repoRoot outputDir)
      (rest.map fun x => .dict x.1) w = (r, w')) :
    Left urlparse env openTar tools lock cacheRoot repoRoot outputDir fs w'.fs (done ++ rest) ∧
    ∀ outputs, r = .ok outputs →
      Partway urlparse env openTar tools lock cacheRoot repoRoot outputDir fs w'.fs (done ++ rest) ∧
      (∀ y ∈ done, w'.fs.subtree (outputDir ++ [y.2]) = w.fs.subtree (outputDir ++ [y.2])) ∧
      List.Forall₂ (fun x output => ∃ images, stageOutput x.1 images = .ok output ∧
        PublishedAs urlparse env openTar tools lock cacheRoot repoRoot x.1 fs images
          (w'.fs.subtree (outputDir ++ [x.2]))) rest outputs := by
  induction rest generalizing done w w' r with
  | nil =>
    cases h
    rw [List.append_nil]
    refine ⟨hstate.left, fun outputs houtputs => ⟨hstate, fun _ _ => rfl, ?_⟩⟩
    cases houtputs
    exact .nil
  | cons x rest ih =>
    have hassoc : done ++ x :: rest = done ++ [x] ++ rest := by simp
    rw [hassoc] at hversions hnodup ⊢
    have hnodup₁ : ((done ++ [x]).map Prod.snd).Nodup := by
      rw [List.map_append] at hnodup
      exact (List.nodup_append.1 hnodup).1
    have hdone : ∀ y ∈ done, Versioned y.1 y.2 ∧ x.2 ≠ y.2 := fun y hy => by
      refine ⟨hversions y (by simp [hy]), fun heq => ?_⟩
      rw [List.map_append] at hnodup₁
      exact List.disjoint_of_nodup_append hnodup₁ (List.mem_map_of_mem hy) (by simp [heq])
    have hrest : ∀ y ∈ rest, Versioned y.1 y.2 := fun y hy => hversions y (by simp [hy])
    rw [List.map_cons] at h
    obtain ⟨r₁, w₁, hfirst⟩ : ∃ r w₁, buildSelected urlparse env openTar tools lock cacheRoot repoRoot
      outputDir (.dict x.1) w = (r, w₁) := ⟨_, _, rfl⟩
    obtain ⟨hsame, hleft, hok⟩ := partway_step hnone helse (hversions x (by simp)) hdone hstate hfirst
    unfold Eff.collect at h
    cases r₁ with
    | error e =>
      rw [Eff.bind_of_error hfirst] at h
      cases h
      exact ⟨hleft.append hnone hrest hnodup, by simp⟩
    | ok output =>
      obtain ⟨hstate₁, images, houtput, hpublished⟩ := hok output rfl
      rw [Eff.bind_of_ok hfirst] at h
      obtain ⟨r₂, w₂, hsecond⟩ : ∃ r w₂, Eff.collect (buildSelected urlparse env openTar tools lock
        cacheRoot repoRoot outputDir) (rest.map fun x => .dict x.1) w₁ = (r, w₂) := ⟨_, _, rfl⟩
      obtain ⟨hleft₂, hok₂⟩ := ih hversions hnodup hstate₁ hsecond
      cases r₂ with
      | error e =>
        rw [Eff.bind_of_error hsecond] at h
        cases h
        exact ⟨hleft₂, by simp⟩
      | ok outputs =>
        rw [Eff.bind_of_ok hsecond] at h
        cases h
        obtain ⟨hstate₂, hsame₂, hall⟩ := hok₂ outputs rfl
        refine ⟨hleft₂, fun all hall' => ?_⟩
        cases hall'
        refine ⟨hstate₂, fun y hy => (hsame₂ y (by simp [hy])).trans (hsame y hy), .cons ?_ hall⟩
        exact ⟨images, houtput, by rw [hsame₂ x (by simp)]; exact hpublished⟩

/-! ### The whole run -/

/-- What is true when `build_stages` has ended. -/
structure RunOutcome (urlparse : UrlParse) (env : Env) (openTar : OpenTar) (tools : Tools)
    (lock : Items) (cacheRoot repoRoot outputDir : Path) (chosen : List (Items × String))
    (fs fs' : FileSystem) (r : Except Exc (List Value)) : Prop where
  /-- What was there before is as it was. -/
  kept : fs.Extends fs'
  refused : fs.node outputDir ≠ none → fs' = fs
  /-- A stage directory is absent or a whole stage. -/
  whole : fs.node outputDir = none → ∀ x ∈ chosen, fs'.node (outputDir ++ [x.2]) = none ∨
    ∃ images, PublishedAs urlparse env openTar tools lock cacheRoot repoRoot x.1 fs images
      (fs'.subtree (outputDir ++ [x.2]))
  /-- The manifest over all stages is there only when all of them are. -/
  manifest : fs.node outputDir = none → fs'.node (outputDir ++ ["manifest.json"]) ≠ none →
    ∀ x ∈ chosen, ∃ images, PublishedAs urlparse env openTar tools lock cacheRoot repoRoot x.1 fs
      images (fs'.subtree (outputDir ++ [x.2]))
  new : ∀ q, fs.node q = none → fs'.node q ≠ none →
    q <+: outputDir ∨ q = outputDir ++ ["manifest.json"] ∨ Occupied outputDir chosen q
  /-- The manifest says what was returned, which is what stands in the directories. -/
  returned : ∀ outputs, r = .ok outputs → fs.node outputDir = none ∧
    (∃ manifest bytes, stagesManifest env lock outputs = .ok manifest ∧
      manifestBytes env manifest = .ok bytes ∧
      fs'.fileAt (outputDir ++ ["manifest.json"]) = some bytes) ∧
    List.Forall₂ (fun x output => ∃ images, stageOutput x.1 images = .ok output ∧
      PublishedAs urlparse env openTar tools lock cacheRoot repoRoot x.1 fs images
        (fs'.subtree (outputDir ++ [x.2]))) chosen outputs ∧
    ∀ x ∈ chosen, ∀ q, Staging (outputDir ++ [x.2]) q → fs'.node q = none

variable {chosen : List (Items × String)}

/-- A run that raises before it writes anything. -/
theorem RunOutcome.unchanged (e : Exc) : RunOutcome urlparse env openTar tools lock cacheRoot repoRoot
    outputDir chosen fs fs (.error e) := by
  refine ⟨.refl _, fun _ => rfl, fun hnone x _ => .inl ?_, fun hnone hpresent => absurd ?_ hpresent,
    fun q hq hq' => absurd hq hq', by simp⟩
  · exact FileSystem.node_eq_none_below hnone (List.prefix_append _ _)
  · exact FileSystem.node_eq_none_below hnone (List.prefix_append _ _)

/-- Where the loop has been left, there is no manifest. -/
theorem RunOutcome.of_left {r : Except Exc (List Value)} (hversions : ∀ x ∈ chosen, Versioned x.1 x.2)
    (hrefused : fs.node outputDir ≠ none → fs' = fs)
    (h : Left urlparse env openTar tools lock cacheRoot repoRoot outputDir fs fs' chosen)
    (hr : ∀ outputs, r ≠ .ok outputs) :
    RunOutcome urlparse env openTar tools lock cacheRoot repoRoot outputDir chosen fs fs' r := by
  refine ⟨h.kept, hrefused, fun _ => h.whole, fun hnone hpresent => ?_,
    fun q hq hq' => (h.new q hq hq').imp_right .inr, fun outputs hok => absurd hok (hr outputs)⟩
  have hbefore := FileSystem.node_eq_none_below hnone (List.prefix_append outputDir ["manifest.json"])
  rcases h.new _ hbefore hpresent with habove | ⟨x, hx, hle | ⟨text, hle⟩⟩
  · simpa using habove.length_le
  · have hhead := (hversions x hx).head
    rw [Py.eq_of_below_both hle (List.prefix_refl _)] at hhead
    exact absurd hhead (by decide)
  · rw [List.dropLast_concat] at hle
    have hhead := congrArg (fun s : String => s.toList.head?)
      (Py.eq_of_below_both hle (List.prefix_refl _))
    rw [head_stagingName] at hhead
    exact absurd hhead (by decide)

theorem openOutput_ends {r : Except Exc Unit} (h : openOutput env outputDir w = (r, w')) :
    (w.fs.node outputDir ≠ none → w'.fs = w.fs ∧ ∃ e, r = .error e) ∧ w.fs.Extends w'.fs ∧
      ∀ q, w.fs.node q = none → w'.fs.node q ≠ none → q <+: outputDir := by
  have hunchanged : ∀ {fs : FileSystem}, fs = w.fs →
      w.fs.Extends fs ∧ ∀ q, w.fs.node q = none → fs.node q ≠ none → q <+: outputDir := by
    rintro _ rfl
    exact ⟨.refl _, fun q hq hq' => absurd hq hq'⟩
  obtain ⟨r₁, w₁, hfirst⟩ : ∃ r w₁, Py.inspect env (fun fs => .ok (fs.present outputDir)) w = (r, w₁) :=
    ⟨_, _, rfl⟩
  have hfs₁ := (Py.confined_inspect _).eq hfirst
  unfold openOutput at h
  cases r₁ with
  | error e =>
    rw [Eff.bind_of_error hfirst] at h
    cases h
    exact ⟨fun _ => ⟨hfs₁, e, rfl⟩, hunchanged hfs₁⟩
  | ok present =>
    rw [Eff.bind_of_ok hfirst] at h
    obtain ⟨hpresent, -⟩ := Py.inspect_eq_ok hfirst
    have hpresent := Except.ok.inj hpresent
    split_ifs at h with hyes
    · cases h
      exact ⟨fun _ => ⟨hfs₁, _, rfl⟩, hunchanged hfs₁⟩
    · have hnone : w.fs.node outputDir = none := by
        rw [← hpresent, FileSystem.present] at hyes
        simpa using hyes
      have hadds := (Py.adds_makeDirs outputDir).extends h
      have hsame := (Py.confined_makeDirs outputDir).same h
      rw [hfs₁] at hadds hsame
      refine ⟨fun hnot => absurd hnone hnot, hadds, fun q hq hq' => ?_⟩
      by_contra hnot
      exact hq' ((hsame q hnot).trans hq)

/-- The manifest over all stages is written when all are published. -/
theorem outcome_of_written {w₁ : World} {outputs : List Value} {bytes : ByteArray}
    {r : Except Exc Unit} (hnone : fs.node outputDir = none)
    (hversions : ∀ x ∈ chosen, Versioned x.1 x.2)
    (hstate : Partway urlparse env openTar tools lock cacheRoot repoRoot outputDir fs w.fs chosen)
    (hall : List.Forall₂ (fun x output => ∃ images, stageOutput x.1 images = .ok output ∧
      PublishedAs urlparse env openTar tools lock cacheRoot repoRoot x.1 fs images
        (w.fs.subtree (outputDir ++ [x.2]))) chosen outputs)
    (hmanifest : ∃ manifest, stagesManifest env lock outputs = .ok manifest ∧
      manifestBytes env manifest = .ok bytes)
    (h : Py.writeFile env (outputDir ++ ["manifest.json"]) bytes w = (r, w₁)) :
    RunOutcome urlparse env openTar tools lock cacheRoot repoRoot outputDir chosen fs w₁.fs
      (r.map fun _ => outputs) := by
  have hsame := (Py.confined_writeFile _ _).same h
  have hname : ∀ x ∈ chosen, x.2 ≠ "manifest.json" := by
    intro x hx heq
    have hhead := (hversions x hx).head
    rw [heq] at hhead
    exact absurd hhead (by decide)
  have hstages : ∀ x ∈ chosen,
      w₁.fs.subtree (outputDir ++ [x.2]) = w.fs.subtree (outputDir ++ [x.2]) := by
    refine fun x hx => hsame.subtree ?_
    rintro q hq rfl
    exact hname x hx (Py.eq_of_below_both hq (List.prefix_refl _))
  have hbuilt : ∀ x ∈ chosen, ∃ images, PublishedAs urlparse env openTar tools lock cacheRoot repoRoot
      x.1 fs images (w₁.fs.subtree (outputDir ++ [x.2])) := fun x hx => by
    rw [hstages x hx]
    exact hstate.built x hx
  have hbefore : fs.node (outputDir ++ ["manifest.json"]) = none :=
    FileSystem.node_eq_none_below hnone (List.prefix_append _ _)
  have hnew : ∀ q, fs.node q = none → w₁.fs.node q ≠ none → q <+: outputDir ∨
      q = outputDir ++ ["manifest.json"] ∨ ∃ x ∈ chosen, outputDir ++ [x.2] <+: q := by
    intro q hq hq'
    by_cases heq : q = outputDir ++ ["manifest.json"]
    · exact .inr (.inl heq)
    · exact (hstate.new q hq (hsame q heq ▸ hq')).imp_right .inr
  refine ⟨fun q n hn => ?_, fun hnot => absurd hnone hnot, fun _ x hx => .inr (hbuilt x hx),
    fun _ _ => hbuilt, fun q hq hq' => ?_, fun outputs' hok => ⟨hnone, ?_, ?_, ?_⟩⟩
  · rw [hsame q fun heq => by rw [heq, hbefore] at hn; cases hn]
    exact hstate.kept q n hn
  · exact (hnew q hq hq').imp_right (Or.imp_right fun ⟨x, hx, hle⟩ => ⟨x, hx, .inl hle⟩)
  all_goals
    obtain ⟨⟨⟩, rfl, rfl⟩ := Py.map_eq_ok.1 hok
  · obtain ⟨manifest, hmanifest, hbytes⟩ := hmanifest
    exact ⟨manifest, bytes, hmanifest, hbytes, Py.fileAt_of_writeFile h⟩
  · exact Py.forall₂_imp_mem hall fun x hx output ⟨images, houtput, hpublished⟩ =>
      ⟨images, houtput, by rw [hstages x hx]; exact hpublished⟩
  · rintro x hx q ⟨text, hle⟩
    rw [List.dropLast_concat] at hle
    by_contra hpresent
    have hbelow : outputDir <+: q := (List.prefix_append _ _).trans hle
    rcases hnew q (FileSystem.node_eq_none_below hnone hbelow) hpresent with habove | rfl | ⟨y, hy, hin⟩
    · simpa using (hle.trans habove).length_le
    · have hhead := congrArg (fun s : String => s.toList.head?)
        (Py.eq_of_below_both hle (List.prefix_refl _))
      rw [head_stagingName] at hhead
      exact absurd hhead (by decide)
    · have hhead := (hversions y hy).head
      rw [← Py.eq_of_below_both hle hin, head_stagingName] at hhead
      exact absurd hhead (by decide)

/-- **However `build_stages` ends**, every stage directory is absent or a whole stage, and the
manifest over all stages is there only when all of them are. -/
theorem buildStages_publishes {data : Value} {selected : List Value} {version : Option String}
    {r : Except Exc (List Value)} (hlock : Artifacts.loadLock urlparse data = .ok lock)
    (helse : Elsewhere cacheRoot repoRoot outputDir)
    (hselected : selectStages lock version = .ok selected)
    (h : buildStages urlparse env openTar tools lock cacheRoot repoRoot outputDir version w = (r, w')) :
    ∃ chosen : List (Items × String), selected = chosen.map (fun x => .dict x.1) ∧
      (∀ x ∈ chosen, Versioned x.1 x.2) ∧
      RunOutcome urlparse env openTar tools lock cacheRoot repoRoot outputDir chosen w.fs w'.fs r := by
  obtain ⟨stages, hmatrix, hversions, hnodup⟩ := exists_versions hlock
  obtain ⟨chosen, hsub, rfl⟩ := selectStages_eq_ok hmatrix hselected
  have hversions : ∀ x ∈ chosen, Versioned x.1 x.2 := fun x hx => hversions x (hsub.subset hx)
  have hnodup : (chosen.map Prod.snd).Nodup := (hsub.map Prod.snd).nodup hnodup
  refine ⟨chosen, rfl, hversions, ?_⟩
  have hleft : ∀ {fs' : FileSystem}, w.fs.Extends fs' →
      (∀ q, w.fs.node q = none → fs'.node q ≠ none → q <+: outputDir) →
      Partway urlparse env openTar tools lock cacheRoot repoRoot outputDir w.fs fs' [] :=
    fun hkept hnew => ⟨hkept, by simp, fun q hq hq' => .inl (hnew q hq hq')⟩
  unfold buildStages at h
  rw [Eff.bind_lift_of_ok hselected] at h
  split_ifs at h
  · cases h
    exact .unchanged _
  obtain ⟨r₁, w₁, hfirst⟩ : ∃ r w₁, openOutput env outputDir w = (r, w₁) := ⟨_, _, rfl⟩
  obtain ⟨hrefused, hkept, hnew⟩ := openOutput_ends hfirst
  cases r₁ with
  | error e =>
    rw [Eff.bind_of_error hfirst] at h
    cases h
    by_cases hnone : w.fs.node outputDir = none
    · have hpart := (hleft hkept hnew).left.append hnone hversions (by simpa using hnodup)
      exact .of_left hversions (fun h => absurd hnone h) (by simpa using hpart) (by simp)
    · rw [(hrefused hnone).1]
      exact .unchanged _
  | ok _ =>
  have hnone : w.fs.node outputDir = none := by
    by_contra hpresent
    obtain ⟨e, he⟩ := (hrefused hpresent).2
    cases he
  rw [Eff.bind_of_ok hfirst] at h
  obtain ⟨r₂, w₂, hsecond⟩ : ∃ r w₂, Eff.collect (buildSelected urlparse env openTar tools lock
    cacheRoot repoRoot outputDir) (chosen.map fun x => .dict x.1) w₁ = (r, w₂) := ⟨_, _, rfl⟩
  obtain ⟨hleft₂, hok⟩ := collect_buildSelected hnone helse (by simpa using hversions)
    (by simpa using hnodup) (hleft hkept hnew) hsecond
  rw [List.nil_append] at hleft₂
  have hstopped : ∀ {e}, RunOutcome urlparse env openTar tools lock cacheRoot repoRoot outputDir
      chosen w.fs w₂.fs (.error e) :=
    .of_left hversions (fun h => absurd hnone h) hleft₂ (by simp)
  cases r₂ with
  | error e =>
    rw [Eff.bind_of_error hsecond] at h
    cases h
    exact hstopped
  | ok outputs =>
  obtain ⟨hstate, -, hall⟩ := hok outputs rfl
  rw [Eff.bind_of_ok hsecond] at h
  cases hmanifest : stagesManifest env lock outputs with
  | error e =>
    rw [hmanifest] at h
    cases h
    exact hstopped
  | ok manifest =>
  rw [Eff.bind_lift_of_ok hmanifest] at h
  cases hbytes : manifestBytes env manifest with
  | error e =>
    rw [hbytes] at h
    cases h
    exact hstopped
  | ok bytes =>
  rw [Eff.bind_lift_of_ok hbytes] at h
  obtain ⟨r₃, w₃, hthird⟩ : ∃ r w₃, Py.writeFile env (outputDir ++ ["manifest.json"]) bytes w₂ =
    (r, w₃) := ⟨_, _, rfl⟩
  have houtcome := outcome_of_written hnone hversions (by simpa using hstate) hall
    ⟨manifest, hmanifest, hbytes⟩ hthird
  cases r₃ with
  | error e =>
    rw [Eff.bind_of_error hthird] at h
    cases h
    exact houtcome
  | ok _ =>
    rw [Eff.bind_of_ok hthird] at h
    cases h
    exact houtcome

end Loop

/-- Both stages are published, with the manifest over them; when a call within the second stage is
broken off, the first one stays. -/
theorem buildStages_publishes_twoStages :
    (∃ chosen outputs fs', outputs.length = 2 ∧ RunOutcome Artifacts.httpsParse Artifacts.servingEnv
      openBinaries squashing Artifacts.twoStageLock ["cache"] ["repo"] ["out"] chosen sampleFiles fs'
      (.ok outputs)) ∧
    ∃ chosen e fs', FileSystem.isFile fs' ["out", "v1.33.5", "manifest.json"] = true ∧
      FileSystem.present fs' ["out", "v1.34.1"] = false ∧
      RunOutcome Artifacts.httpsParse (stoppedAt 150) openBinaries squashing Artifacts.twoStageLock
        ["cache"] ["repo"] ["out"] chosen sampleFiles fs' (.error e) := by
  have helse : Elsewhere ["cache"] ["repo"] ["out"] :=
    ⟨fun extension => by cases extension <;> exact ⟨by decide, by decide⟩, by decide, by decide⟩
  have hselected : selectStages Artifacts.twoStageLock none =
      .ok (Artifacts.twoStages.map .dict) := rfl
  constructor
  · have hreturns : Py.okAnd (buildStages Artifacts.httpsParse Artifacts.servingEnv openBinaries
        squashing Artifacts.twoStageLock ["cache"] ["repo"] ["out"] none ⟨sampleFiles, 0⟩).1
        (fun outputs => outputs.length == 2) = true := by decide +kernel
    obtain ⟨outputs, hrun, hlength⟩ := eq_ok_of_check hreturns
    obtain ⟨chosen, -, -, houtcome⟩ :=
      buildStages_publishes Artifacts.loadLock_twoStageLock helse hselected hrun
    exact ⟨chosen, outputs, _, beq_iff_eq.1 hlength, houtcome⟩
  · have hstops : (fun x : Except Exc (List Value) × World => !Py.okAnd x.1 (fun _ => true) &&
        (x.2.fs.isFile ["out", "v1.33.5", "manifest.json"] && !x.2.fs.present ["out", "v1.34.1"]))
        (buildStages Artifacts.httpsParse (stoppedAt 150) openBinaries squashing Artifacts.twoStageLock
          ["cache"] ["repo"] ["out"] none ⟨sampleFiles, 0⟩) = true := by decide +kernel
    obtain ⟨hstops, hleft⟩ := Bool.and_eq_true_iff.1 hstops
    obtain ⟨hfirst, habsent⟩ := Bool.and_eq_true_iff.1 hleft
    rw [Bool.not_eq_true'] at hstops habsent
    obtain ⟨e, hrun⟩ := eq_error_of_check hstops
    obtain ⟨chosen, -, -, houtcome⟩ :=
      buildStages_publishes Artifacts.loadLock_twoStageLock helse hselected hrun
    exact ⟨chosen, e, _, hfirst, habsent, houtcome⟩

end GuestUpgrade
