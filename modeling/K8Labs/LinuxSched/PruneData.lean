import K8Labs.Python.Comprehension
import K8Labs.Python.Disk
import K8Labs.Python.Sorted
import Mathlib.Data.Int.ConditionallyCompleteOrder
import Mathlib.Data.List.DropRight
import Mathlib.Data.Prod.Lex
import Mathlib.Order.WithBot

/-!
# Pruning the data root

`plan_pruning` of `research/linux-sched/analysis/prune_data.py` lists the large raw files of the
blocks that are older than the newest ones of their scenario; with `--apply` they are removed.  The
data root is a tree without links.

A block without a number in its name is sorted as the number `10 ^ 9`, so that it is not behind one
that is numbered from there on; and a directory that has blocks is not looked into for scenarios.

* `prunes_iff` : **the right files are pruned if and only if neither puts a large raw file on the
  wrong side**; everything else that a plan should be, it is in any case.
-/

namespace LinuxSched

namespace PruneData

open Py

/-! ### Patterns -/

/-- A name matches a pattern with no special character but a star at its end. -/
def globMatches (pattern name : String) : Bool :=
  match pattern.toList.getLast? with
  | some '*' => startsWith name (String.ofList pattern.toList.dropLast)
  | _ => name = pattern

/-- `BULK_PATTERNS`. -/
def bulkPatterns : List String := ["perf.data*", "sched-trace.csv.gz", "sched-trace.txt*"]

/-- `NEVER_REMOVE`. -/
def neverRemove : List String := ["blocks.csv", "analysis"]

/-! ### The plan -/

section Plan

variable (d : Disk)

/-- The directories of a directory, sorted. -/
def subdirectories (dir : Path) : List Path := (d.glob dir "").filter d.fs.isDir

/-- The directories `block-*` of a directory, in the order of a listing. -/
def blockDirs (dir : Path) : List Path :=
  (d.glob dir "").filter fun p => globMatches "block-*" p.name && d.fs.isDir p

/-- `_has_blocks`. -/
def hasBlocks (dir : Path) : Bool := blockDirs d dir ≠ []

/-- `scenario_dirs`. -/
def scenarioDirs (dataRoot : Path) : List Path :=
  (subdirectories d dataRoot).flatMap fun child =>
    if child.name ∈ neverRemove then []
    else if hasBlocks d child then [child]
    else (subdirectories d child).filter fun grandchild =>
      grandchild.name ∉ neverRemove && hasBlocks d grandchild

/-- `text.removeprefix(start)`. -/
def removePrefix (text start : String) : String :=
  if startsWith text start then String.ofList (text.toList.drop start.length) else text

/-- The number in the name of a block. -/
def suffixNumber (name : String) : Except Exc ℤ := parseInt (removePrefix name "block-")

/-- `block_sort_key`. -/
def blockSortKey (path : Path) : ℤ ×ₗ String :=
  match suffixNumber path.name with
  | .ok n => toLex (n, path.name)
  | .error _ => toLex (10 ^ 9, path.name)

/-- The files below a directory. -/
def filesBelow (dir : Path) : List Path := (d.rglob dir "").filter d.fs.isFile

/-- `bulk_files`. -/
def bulkFiles (blockDir : Path) : List Path :=
  bulkPatterns.flatMap fun pattern =>
    (filesBelow d blockDir).filter fun p => globMatches pattern p.name

/-- `path.stat().st_size` of a file. -/
def size (p : Path) : ℕ := ((d.fileAt p).map ByteArray.size).getD 0

/-- The result of `plan_pruning`. -/
structure Plan where
  removable : List Path
  removableBytes : ℕ
  keptBytes : ℕ
  scenarios : List Path

/-- One file below a block. -/
def visitFile (removeHere : List Path) (plan : Plan) (path : Path) : Plan :=
  if path ∈ removeHere then
    { plan with
      removable := plan.removable ++ [path]
      removableBytes := plan.removableBytes + size d path }
  else { plan with keptBytes := plan.keptBytes + size d path }

/-- One block of a scenario. -/
def visitBlock (keep : List Path) (plan : Plan) (blockDir : Path) : Plan :=
  let candidates := if blockDir ∉ keep then bulkFiles d blockDir else []
  (filesBelow d blockDir).foldl (visitFile d candidates) plan

/-- The blocks of a directory, sorted by a key. -/
def sortedBlocks {β : Type*} [LinearOrder β] (key : Path → β) (dir : Path) : List Path :=
  (blockDirs d dir).insertionSort fun a b => key a ≤ key b

/-- One scenario. -/
def visitScenario (keepBlocks : ℕ) (plan : Plan) (scenarioDir : Path) : Plan :=
  let blocks := sortedBlocks d blockSortKey scenarioDir
  let keep := if 0 < keepBlocks then blocks.rtake keepBlocks else []
  blocks.foldl (visitBlock d keep) plan

/-- `plan_pruning`. -/
def planPruning (dataRoot : Path) (keepBlocks : ℕ) : Except Exc Plan :=
  if !d.fs.isDir dataRoot then
    .error ⟨.fileNotFoundError, "no data root at " ++ dataRoot.text⟩
  else
    let scenarios := scenarioDirs d dataRoot
    .ok (scenarios.foldl (visitScenario d keepBlocks) ⟨[], 0, 0, scenarios⟩)

/-- The removal of `--apply`. -/
def applyPlan (removable : List Path) : Except Exc Disk := fold Disk.unlink d removable

end Plan

/-! ### What it is for -/

/-- A directory that is there. -/
structure DataRoot where
  disk : Disk
  root : Path
  isDir : disk.fs.isDir root = true

namespace DataRoot

variable (r : DataRoot)

/-- A block of a directory. -/
def IsBlock (dir block : Path) : Prop :=
  ∃ name, block = dir ++ [name] ∧ globMatches "block-*" name = true ∧ r.disk.fs.isDir block = true

/-- A directory with blocks, under the root or under a phase; a block is no scenario, and neither is
what is never removed. -/
def IsScenario (dir : Path) : Prop :=
  (∃ block, r.IsBlock dir block) ∧
    ((∃ name, dir = r.root ++ [name] ∧ name ∉ neverRemove) ∨
      ∃ phase name, dir = r.root ++ [phase, name] ∧ phase ∉ neverRemove ∧ name ∉ neverRemove ∧
        globMatches "block-*" name = false)

/-- The order of blocks: by number, other names last. -/
def blockOrder (path : Path) : WithTop ℤ ×ₗ String :=
  match suffixNumber path.name with
  | .ok n => toLex ((n : WithTop ℤ), path.name)
  | .error _ => toLex (⊤, path.name)

/-- The last blocks of a scenario in an order. -/
def lastBlocks {β : Type} [LinearOrder β] (key : Path → β) (keepBlocks : ℕ) (dir : Path) : List Path :=
  (sortedBlocks r.disk key dir).rtake keepBlocks

/-- The name is one of the large raw files. -/
def IsBulk (p : Path) : Prop := ∃ pattern ∈ bulkPatterns, globMatches pattern p.name = true

/-- A file below a directory. -/
def FileBelow (dir p : Path) : Prop := dir <+: p ∧ r.disk.fs.isFile p = true

/-- A large raw file in a block that is not among the last ones of its scenario. -/
def Prunable (keepBlocks : ℕ) (p : Path) : Prop :=
  ∃ scenario block, r.IsScenario scenario ∧ r.IsBlock scenario block ∧
    block ∉ r.lastBlocks blockOrder keepBlocks scenario ∧ r.FileBelow block p ∧ IsBulk p

/-- The scenario stands in a directory that has blocks itself. -/
def Hidden (dir : Path) : Prop := dir.dropLast ≠ r.root ∧ ∃ block, r.IsBlock dir.dropLast block

/-- How many blocks of the directory are behind a block. -/
def behind {β : Type} [LinearOrder β] (key : Path → β) (dir block : Path) : ℕ :=
  (blockDirs r.disk dir).countP fun b => key block < key b

/-- For a block with large raw files it makes no difference that names without a number are sorted as
the number `10 ^ 9`; in a hidden scenario, it is among the last ones. -/
def Ordered (keepBlocks : ℕ) : Prop :=
  ∀ scenario block p, r.IsScenario scenario → r.IsBlock scenario block → r.FileBelow block p →
    IsBulk p →
      (¬r.Hidden scenario →
        (r.behind blockSortKey scenario block < keepBlocks ↔
          r.behind blockOrder scenario block < keepBlocks)) ∧
      (r.Hidden scenario → r.behind blockOrder scenario block < keepBlocks)

end DataRoot

/-- What a plan should be. -/
structure Correct (r : DataRoot) (keepBlocks : ℕ) (plan : Plan) : Prop where
  exact : ∀ p, p ∈ plan.removable ↔ r.Prunable keepBlocks p
  once : plan.removable.Nodup
  in_blocks : ∀ p ∈ plan.removable, ∃ scenario ∈ plan.scenarios, ∃ block, r.IsBlock scenario block ∧
    r.FileBelow block p
  not_protected : ∀ p ∈ plan.removable, p.name ≠ "blocks.csv" ∧ ¬r.root ++ ["analysis"] <+: p ∧
    ∀ phase, ¬r.root ++ [phase, "analysis"] <+: p
  bytes : ∃ files : List Path, files.Nodup ∧
    (∀ p, p ∈ files ↔ ∃ scenario ∈ plan.scenarios, ∃ block, r.IsBlock scenario block ∧
      r.FileBelow block p) ∧
    plan.removableBytes + plan.keptBytes = (files.map (size r.disk)).sum
  again : ∃ disk', applyPlan r.disk plan.removable = .ok disk' ∧
    ∃ plan', planPruning disk' r.root keepBlocks = .ok plan' ∧ plan'.removable = []

/-- The plan is made, and is what it should be. -/
def Prunes (r : DataRoot) (keepBlocks : ℕ) : Prop :=
  ∃ plan, planPruning r.disk r.root keepBlocks = .ok plan ∧ Correct r keepBlocks plan

/-! ### Listings -/

section Listings

variable {r : DataRoot} {d : Disk} {dir p block scenario : Path}

theorem mem_subdirectories :
    p ∈ subdirectories d dir ↔ (∃ name, p = dir ++ [name]) ∧ d.fs.isDir p = true := by
  rw [subdirectories, List.mem_filter, Disk.mem_glob]
  constructor
  · rintro ⟨⟨name, rfl, -⟩, hdir⟩
    exact ⟨⟨name, rfl⟩, hdir⟩
  · rintro ⟨⟨name, rfl⟩, hdir⟩
    have hnode : d.node (dir ++ [name]) ≠ none := by
      rw [Disk.node, FileSystem.isDir_iff.1 hdir]
      exact Option.some_ne_none _
    exact ⟨⟨name, rfl, hnode, endsWith_empty name⟩, hdir⟩

theorem mem_blockDirs : p ∈ blockDirs r.disk dir ↔ r.IsBlock dir p := by
  have hfilter : blockDirs r.disk dir =
      (subdirectories r.disk dir).filter fun p => globMatches "block-*" p.name := by
    rw [blockDirs, subdirectories, List.filter_filter]
  rw [hfilter, List.mem_filter, mem_subdirectories]
  constructor
  · rintro ⟨⟨⟨name, rfl⟩, hdir⟩, hname⟩
    exact ⟨name, rfl, by rwa [Path.name_concat] at hname, hdir⟩
  · rintro ⟨name, rfl, hname, hdir⟩
    exact ⟨⟨⟨name, rfl⟩, hdir⟩, by rwa [Path.name_concat]⟩

theorem hasBlocks_iff : hasBlocks r.disk dir = true ↔ ∃ block, r.IsBlock dir block := by
  rw [hasBlocks, decide_eq_true_eq]
  constructor
  · intro hne
    obtain ⟨block, hblock⟩ := List.exists_mem_of_ne_nil _ hne
    exact ⟨block, mem_blockDirs.1 hblock⟩
  · rintro ⟨block, hblock⟩
    exact List.ne_nil_of_mem (mem_blockDirs.2 hblock)

theorem mem_filesBelow (hdir : r.disk.fs.isDir dir = true) :
    p ∈ filesBelow r.disk dir ↔ r.FileBelow dir p := by
  rw [filesBelow, List.mem_filter, Disk.mem_rglob]
  constructor
  · rintro ⟨⟨-, ⟨rel, -, rfl⟩, -⟩, hfile⟩
    exact ⟨List.prefix_append dir rel, hfile⟩
  · rintro ⟨⟨rel, rfl⟩, hfile⟩
    obtain ⟨bytes, hbytes⟩ := FileSystem.isFile_iff.1 hfile
    refine ⟨⟨?_, ⟨rel, ?_, rfl⟩, endsWith_empty _⟩, hfile⟩
    · rw [Disk.node, FileSystem.fileAt_eq_some.1 hbytes]
      exact Option.some_ne_none _
    · rintro rfl
      rw [List.append_nil, FileSystem.fileAt_eq_none_of_isDir hdir] at hbytes
      cases hbytes

theorem mem_bulkFiles : p ∈ bulkFiles d dir ↔ p ∈ filesBelow d dir ∧ DataRoot.IsBulk p := by
  simp only [bulkFiles, DataRoot.IsBulk, List.mem_flatMap, List.mem_filter]
  constructor
  · rintro ⟨pattern, hpattern, hp, hname⟩
    exact ⟨hp, pattern, hpattern, hname⟩
  · rintro ⟨hp, pattern, hpattern, hname⟩
    exact ⟨pattern, hpattern, hp, hname⟩

/-- A directory that has blocks is there. -/
theorem DataRoot.IsBlock.isDir (h : r.IsBlock dir block) : r.disk.fs.isDir dir = true := by
  obtain ⟨name, rfl, -, hdir⟩ := h
  refine FileSystem.isDir_above (List.prefix_append dir [name]) (by simp) ?_
  rw [FileSystem.isDir_iff.1 hdir]
  exact Option.some_ne_none _

/-- **The scenarios that are walked**: those that are not hidden. -/
theorem mem_scenarioDirs :
    scenario ∈ scenarioDirs r.disk r.root ↔ r.IsScenario scenario ∧ ¬r.Hidden scenario := by
  rw [scenarioDirs, List.mem_flatMap]
  constructor
  · rintro ⟨child, hchild, hmem⟩
    obtain ⟨⟨phase, rfl⟩, hdir⟩ := mem_subdirectories.1 hchild
    rw [Path.name_concat] at hmem
    split_ifs at hmem with hnever hblocks
    · cases hmem
    · obtain rfl := List.mem_singleton.1 hmem
      exact ⟨⟨hasBlocks_iff.1 hblocks, .inl ⟨phase, rfl, hnever⟩⟩, fun h => h.1 List.dropLast_concat⟩
    · obtain ⟨hgrandchild, hmem⟩ := List.mem_filter.1 hmem
      obtain ⟨⟨name, rfl⟩, hdir'⟩ := mem_subdirectories.1 hgrandchild
      rw [Path.name_concat, Bool.and_eq_true, decide_eq_true_eq] at hmem
      rw [hasBlocks_iff] at hblocks
      have hname : globMatches "block-*" name = false := by
        by_contra hname
        exact hblocks ⟨_, name, rfl, Bool.not_eq_false _ ▸ hname, hdir'⟩
      refine ⟨⟨hasBlocks_iff.1 hmem.2, .inr ⟨phase, name, ?_, hnever, hmem.1, hname⟩⟩, fun h => ?_⟩
      · exact List.append_assoc _ _ _
      · exact hblocks (by simpa only [List.dropLast_concat] using h.2)
  · rintro ⟨⟨⟨block, hblock⟩, ⟨name, rfl, hnever⟩ | ⟨phase, name, rfl, hphase, hnever, hname⟩⟩, hhidden⟩
    · refine ⟨r.root ++ [name], mem_subdirectories.2 ⟨⟨name, rfl⟩, hblock.isDir⟩, ?_⟩
      rw [Path.name_concat, if_neg hnever, if_pos (hasBlocks_iff.2 ⟨block, hblock⟩)]
      exact List.mem_singleton_self _
    · have hdrop : (r.root ++ [phase, name]).dropLast = r.root ++ [phase] := by
        rw [List.append_cons, List.dropLast_concat]
      have hblocks : hasBlocks r.disk (r.root ++ [phase]) ≠ true := by
        rw [Ne, hasBlocks_iff]
        exact fun h => hhidden ⟨by rw [hdrop]; simp, by rwa [hdrop]⟩
      have hnode : r.disk.node (r.root ++ [phase, name]) ≠ none := by
        rw [Disk.node, FileSystem.isDir_iff.1 hblock.isDir]
        exact Option.some_ne_none _
      have hdir : r.disk.fs.isDir (r.root ++ [phase]) = true :=
        FileSystem.isDir_above ⟨[name], by simp⟩ (by simp) hnode
      refine ⟨r.root ++ [phase], mem_subdirectories.2 ⟨⟨phase, rfl⟩, hdir⟩, ?_⟩
      rw [Path.name_concat, if_neg hphase, if_neg hblocks]
      refine List.mem_filter.2 ⟨mem_subdirectories.2 ⟨⟨name, by simp⟩, hblock.isDir⟩, ?_⟩
      rw [List.append_cons, Path.name_concat, Bool.and_eq_true, decide_eq_true_eq]
      exact ⟨hnever, hasBlocks_iff.2 ⟨block, by rwa [List.append_cons] at hblock⟩⟩

/-- No block of a scenario is above another one. -/
theorem block_eq_of_isPrefix {dir dir' : Path} {name name' : String} (hs : r.IsScenario dir)
    (hs' : r.IsScenario dir') (hname : globMatches "block-*" name = true)
    (h : dir ++ [name] <+: dir' ++ [name']) : dir ++ [name] = dir' ++ [name'] := by
  rcases hs.2 with ⟨c, rfl, -⟩ | ⟨c, g, rfl, -⟩ <;> rcases hs'.2 with ⟨c', rfl, -⟩ | ⟨c', g', rfl, -, -, hg⟩
  · exact h.eq_of_length (by simp)
  · -- the name of the block would be the one of a scenario
    have hnames : [c, name] <+: [c', g', name'] := by simpa using h
    obtain ⟨rfl, rfl⟩ : c = c' ∧ name = g' := by simpa using hnames
    rw [hname] at hg
    cases hg
  · have hlength := h.length_le
    simp at hlength
  · exact h.eq_of_length (by simp)

/-- **A file lies in one block of one scenario at most.** -/
theorem block_unique {scenario' block' : Path} (hs : r.IsScenario scenario)
    (hs' : r.IsScenario scenario') (hb : r.IsBlock scenario block) (hb' : r.IsBlock scenario' block')
    (hp : block <+: p) (hp' : block' <+: p) : scenario = scenario' ∧ block = block' := by
  obtain ⟨name, rfl, hname, -⟩ := hb
  obtain ⟨name', rfl, hname', -⟩ := hb'
  have heq : scenario ++ [name] = scenario' ++ [name'] := by
    rcases List.prefix_or_prefix_of_prefix hp hp' with h | h
    · exact block_eq_of_isPrefix hs hs' hname h
    · exact (block_eq_of_isPrefix hs' hs hname' h).symm
  exact ⟨(List.append_inj_left' heq rfl), heq⟩

end Listings

/-! ### What a plan lists -/

/-- A plan that goes on over some files and lists some of them. -/
structure Extends (d : Disk) (plan plan' : Plan) (files removed : List Path) : Prop where
  removable : plan'.removable = plan.removable ++ removed
  bytes : plan'.removableBytes + plan'.keptBytes =
    plan.removableBytes + plan.keptBytes + (files.map (size d)).sum
  scenarios : plan'.scenarios = plan.scenarios

section Lists

variable {r : DataRoot} {d : Disk} {plan plan' : Plan} {keepBlocks : ℕ} {p : Path}

theorem foldl_extends {α : Type} {f : Plan → α → Plan} {files removed : α → List Path}
    (hstep : ∀ plan x, Extends d plan (f plan x) (files x) (removed x)) (xs : List α) (plan : Plan) :
    Extends d plan (xs.foldl f plan) (xs.flatMap files) (xs.flatMap removed) := by
  induction xs generalizing plan with
  | nil => exact ⟨(List.append_nil _).symm, rfl, rfl⟩
  | cons x xs ih =>
    have hfirst := hstep plan x
    have hrest := ih (f plan x)
    refine ⟨?_, ?_, hrest.scenarios.trans hfirst.scenarios⟩
    · rw [List.foldl_cons, hrest.removable, hfirst.removable, List.append_assoc, List.flatMap_cons]
    · rw [List.foldl_cons, hrest.bytes, hfirst.bytes, List.flatMap_cons, List.map_append,
        List.sum_append, Nat.add_assoc]

theorem visitFile_extends (removeHere : List Path) (plan : Plan) (path : Path) :
    Extends d plan (visitFile d removeHere plan path) [path]
      (if path ∈ removeHere then [path] else []) := by
  unfold visitFile
  split_ifs
  · exact ⟨rfl, by simp; omega, rfl⟩
  · exact ⟨(List.append_nil _).symm, by simp; omega, rfl⟩

/-- What is listed of a block. -/
def listed (d : Disk) (keep : List Path) (block : Path) : List Path :=
  (filesBelow d block).filter (· ∈ if block ∉ keep then bulkFiles d block else [])

theorem visitBlock_extends (keep : List Path) (plan : Plan) (block : Path) :
    Extends d plan (visitBlock d keep plan block) (filesBelow d block) (listed d keep block) := by
  have hfiles := foldl_extends (visitFile_extends (d := d)
    (if block ∉ keep then bulkFiles d block else [])) (filesBelow d block) plan
  rwa [List.flatMap_singleton', Py.flatMap_ite_singleton, List.map_id'] at hfiles

/-- The blocks of a scenario that are kept in full. -/
theorem keep_eq (r : DataRoot) (keepBlocks : ℕ) (scenario : Path) :
    (if 0 < keepBlocks then (sortedBlocks r.disk blockSortKey scenario).rtake keepBlocks else []) =
      r.lastBlocks blockSortKey keepBlocks scenario := by
  split_ifs with hkeep
  · rfl
  · obtain rfl := Nat.eq_zero_of_not_pos hkeep
    exact (List.rtake_zero _).symm

theorem visitScenario_extends (r : DataRoot) (keepBlocks : ℕ) (plan : Plan) (scenario : Path) :
    Extends r.disk plan (visitScenario r.disk keepBlocks plan scenario)
      ((sortedBlocks r.disk blockSortKey scenario).flatMap (filesBelow r.disk))
      ((sortedBlocks r.disk blockSortKey scenario).flatMap
        (listed r.disk (r.lastBlocks blockSortKey keepBlocks scenario))) := by
  rw [visitScenario, keep_eq]
  exact foldl_extends (visitBlock_extends _) _ plan

/-- All files below the blocks that are walked. -/
def walkedFiles (r : DataRoot) : List Path :=
  (scenarioDirs r.disk r.root).flatMap fun scenario =>
    (sortedBlocks r.disk blockSortKey scenario).flatMap (filesBelow r.disk)

theorem planPruning_eq (r : DataRoot) (keepBlocks : ℕ) :
    ∃ plan, planPruning r.disk r.root keepBlocks = .ok plan ∧
      plan.removable = ((scenarioDirs r.disk r.root).flatMap fun scenario =>
        (sortedBlocks r.disk blockSortKey scenario).flatMap
          (listed r.disk (r.lastBlocks blockSortKey keepBlocks scenario))) ∧
      plan.removableBytes + plan.keptBytes = ((walkedFiles r).map (size r.disk)).sum ∧
      plan.scenarios = scenarioDirs r.disk r.root := by
  have hall := foldl_extends (visitScenario_extends r keepBlocks) (scenarioDirs r.disk r.root)
    ⟨[], 0, 0, scenarioDirs r.disk r.root⟩
  refine ⟨_, ?_, hall.removable.trans (List.nil_append _), hall.bytes.trans (Nat.zero_add _),
    hall.scenarios⟩
  rw [planPruning, r.isDir]
  rfl

theorem mem_sortedBlocks {β : Type} [LinearOrder β] {key : Path → β} {dir block : Path} :
    block ∈ sortedBlocks r.disk key dir ↔ r.IsBlock dir block := by
  rw [sortedBlocks, List.mem_insertionSort, mem_blockDirs]

theorem mem_listed {keep : List Path} {block : Path} :
    p ∈ listed d keep block ↔ p ∈ filesBelow d block ∧ block ∉ keep ∧ DataRoot.IsBulk p := by
  rw [listed, List.mem_filter, decide_eq_true_eq]
  by_cases hkept : block ∈ keep
  · rw [if_neg (not_not.2 hkept)]
    exact iff_of_false (fun h => List.not_mem_nil h.2) fun h => h.2.1 hkept
  · rw [if_pos hkept, mem_bulkFiles, and_iff_right hkept]
    exact ⟨fun h => ⟨h.1, h.2.2⟩, fun h => ⟨h.1, h.1, h.2⟩⟩

theorem mem_walkedFiles : p ∈ walkedFiles r ↔
    ∃ scenario ∈ scenarioDirs r.disk r.root, ∃ block, r.IsBlock scenario block ∧
      r.FileBelow block p := by
  simp only [walkedFiles, List.mem_flatMap, mem_sortedBlocks]
  refine exists_congr fun scenario => and_congr_right fun _ => exists_congr fun block =>
    and_congr_right fun hblock => mem_filesBelow ?_
  obtain ⟨name, -, -, hdir⟩ := hblock
  exact hdir

theorem nodup_sortedBlocks {β : Type} [LinearOrder β] (key : Path → β) (dir : Path) :
    (sortedBlocks d key dir).Nodup :=
  (List.perm_insertionSort _ _).nodup_iff.2 ((d.nodup_glob dir "").filter _)

theorem nodup_scenarioDirs (d : Disk) (root : Path) : (scenarioDirs d root).Nodup := by
  have hchildren : ∀ dir, (subdirectories d dir).Nodup := fun dir => (d.nodup_glob dir "").filter _
  have hbelow : ∀ child scenario, scenario ∈ (if child.name ∈ neverRemove then []
      else if hasBlocks d child then [child]
      else (subdirectories d child).filter fun grandchild =>
        grandchild.name ∉ neverRemove && hasBlocks d grandchild) → child <+: scenario := by
    intro child scenario hmem
    split_ifs at hmem
    · cases hmem
    · exact List.mem_singleton.1 hmem ▸ List.prefix_refl child
    · obtain ⟨⟨name, rfl⟩, -⟩ := mem_subdirectories.1 (List.mem_filter.1 hmem).1
      exact List.prefix_append child [name]
  refine List.nodup_flatMap.2 ⟨fun child _ => ?_, ?_⟩
  · split_ifs
    · exact List.nodup_nil
    · exact List.nodup_singleton child
    · exact (hchildren child).filter _
  · refine (hchildren root).imp_of_mem fun {a b} ha hb hne => List.disjoint_left.2 fun scenario h h' => ?_
    obtain ⟨⟨name, rfl⟩, -⟩ := mem_subdirectories.1 ha
    obtain ⟨⟨name', rfl⟩, -⟩ := mem_subdirectories.1 hb
    have hpre := List.prefix_of_prefix_length_le (hbelow _ _ h) (hbelow _ _ h') (by simp)
    exact hne (hpre.eq_of_length (by simp))

/-- What is collected below the blocks has no file twice. -/
theorem nodup_walk (f : Path → Path → List Path)
    (hf : ∀ scenario block, (f scenario block).Nodup ∧ f scenario block ⊆ filesBelow r.disk block) :
    ((scenarioDirs r.disk r.root).flatMap fun scenario =>
      (sortedBlocks r.disk blockSortKey scenario).flatMap (f scenario)).Nodup := by
  have hmem : ∀ {scenario block p}, block ∈ sortedBlocks r.disk blockSortKey scenario →
      p ∈ f scenario block → r.IsBlock scenario block ∧ block <+: p := by
    intro scenario block p hblock hp
    have hblock := mem_sortedBlocks.1 hblock
    obtain ⟨name, -, -, hdir⟩ := id hblock
    exact ⟨hblock, ((mem_filesBelow hdir).1 ((hf scenario block).2 hp)).1⟩
  refine List.nodup_flatMap.2 ⟨fun scenario hscenario => List.nodup_flatMap.2
    ⟨fun block _ => (hf scenario block).1, ?_⟩, ?_⟩
  · -- two blocks of a scenario
    have hs := (mem_scenarioDirs.1 hscenario).1
    refine (nodup_sortedBlocks blockSortKey scenario).imp_of_mem fun hb hb' hne => ?_
    refine List.disjoint_left.2 fun p hp hp' => hne ?_
    obtain ⟨hblock, hpre⟩ := hmem hb hp
    obtain ⟨hblock', hpre'⟩ := hmem hb' hp'
    exact (block_unique hs hs hblock hblock' hpre hpre').2
  · -- two scenarios
    refine (nodup_scenarioDirs r.disk r.root).imp_of_mem fun hs hs' hne => ?_
    refine List.disjoint_left.2 fun p hp hp' => hne ?_
    obtain ⟨block, hb, hp⟩ := List.mem_flatMap.1 hp
    obtain ⟨block', hb', hp'⟩ := List.mem_flatMap.1 hp'
    obtain ⟨hblock, hpre⟩ := hmem hb hp
    obtain ⟨hblock', hpre'⟩ := hmem hb' hp'
    exact (block_unique (mem_scenarioDirs.1 hs).1 (mem_scenarioDirs.1 hs').1 hblock hblock' hpre
      hpre').1

theorem nodup_filesBelow (d : Disk) (dir : Path) : (filesBelow d dir).Nodup :=
  (d.nodup_rglob dir "").filter _

end Lists

/-! ### Which blocks are the last ones -/

section Orders

variable {r : DataRoot} {d : Disk} {keepBlocks : ℕ} {scenario block p q : Path}

theorem ofLex_blockSortKey (p : Path) : (ofLex (blockSortKey p)).2 = p.name := by
  unfold blockSortKey
  split <;> rfl

theorem ofLex_blockOrder (p : Path) : (ofLex (DataRoot.blockOrder p)).2 = p.name := by
  unfold DataRoot.blockOrder
  split <;> rfl

/-- The last blocks have few behind them, whatever is sorted by the name in the end. -/
theorem mem_lastBlocks {β : Type} [LinearOrder β] {key : Path → β}
    (hkey : ∀ p q, key p = key q → p.name = q.name) (hb : r.IsBlock scenario block) :
    block ∈ r.lastBlocks key keepBlocks scenario ↔ r.behind key scenario block < keepBlocks := by
  refine mem_rtake_insertionSort ((r.disk.nodup_glob scenario "").filter _) ?_ (mem_blockDirs.2 hb)
  intro b hb b' hb' heq
  obtain ⟨name, rfl, -⟩ := mem_blockDirs.1 hb
  obtain ⟨name', rfl, -⟩ := mem_blockDirs.1 hb'
  have hname := hkey _ _ heq
  rw [Path.name_concat, Path.name_concat] at hname
  rw [hname]

theorem mem_lastBlocks_blockSortKey (hb : r.IsBlock scenario block) :
    block ∈ r.lastBlocks blockSortKey keepBlocks scenario ↔
      r.behind blockSortKey scenario block < keepBlocks :=
  mem_lastBlocks (fun p q h => by rw [← ofLex_blockSortKey, h, ofLex_blockSortKey]) hb

theorem mem_lastBlocks_blockOrder (hb : r.IsBlock scenario block) :
    block ∈ r.lastBlocks DataRoot.blockOrder keepBlocks scenario ↔
      r.behind DataRoot.blockOrder scenario block < keepBlocks :=
  mem_lastBlocks (fun p q h => by rw [← ofLex_blockOrder, h, ofLex_blockOrder]) hb

end Orders

/-! ### Roots with the same directories -/

section SameDirectories

variable {r r' : DataRoot} (hdirs : ∀ p, r'.disk.fs.isDir p = r.disk.fs.isDir p)

include hdirs

theorem isBlock_congr {dir block : Path} : r'.IsBlock dir block ↔ r.IsBlock dir block := by
  unfold DataRoot.IsBlock
  simp only [hdirs]

theorem mem_scenarioDirs_congr (hroot : r'.root = r.root) {scenario : Path} :
    scenario ∈ scenarioDirs r'.disk r'.root ↔ scenario ∈ scenarioDirs r.disk r.root := by
  rw [mem_scenarioDirs, mem_scenarioDirs]
  unfold DataRoot.IsScenario DataRoot.Hidden
  simp only [isBlock_congr hdirs, hroot]

theorem behind_congr {β : Type} [LinearOrder β] (key : Path → β) (dir block : Path) :
    r'.behind key dir block = r.behind key dir block := by
  refine List.Perm.countP_eq _ ((List.perm_ext_iff_of_nodup ?_ ?_).2 fun b => ?_)
  · exact (r'.disk.nodup_glob dir "").filter _
  · exact (r.disk.nodup_glob dir "").filter _
  · rw [mem_blockDirs, mem_blockDirs, isBlock_congr hdirs]

end SameDirectories

/-! ### The plan is what it should be -/

section Prunes

variable {r : DataRoot} {keepBlocks : ℕ} {plan : Plan} {p : Path}

theorem mem_removable (h : planPruning r.disk r.root keepBlocks = .ok plan) :
    p ∈ plan.removable ↔ ∃ scenario block, scenario ∈ scenarioDirs r.disk r.root ∧
      r.IsBlock scenario block ∧ block ∉ r.lastBlocks blockSortKey keepBlocks scenario ∧
        r.FileBelow block p ∧ DataRoot.IsBulk p := by
  obtain ⟨plan', hplan', hremovable, -⟩ := planPruning_eq r keepBlocks
  cases h.symm.trans hplan'
  rw [hremovable]
  simp only [List.mem_flatMap, mem_sortedBlocks, mem_listed]
  constructor
  · rintro ⟨scenario, hs, block, hb, hp, hlast, hbulk⟩
    obtain ⟨name, -, -, hdir⟩ := id hb
    exact ⟨scenario, block, hs, hb, hlast, (mem_filesBelow hdir).1 hp, hbulk⟩
  · rintro ⟨scenario, block, hs, hb, hlast, hp, hbulk⟩
    obtain ⟨name, -, -, hdir⟩ := id hb
    exact ⟨scenario, hs, block, hb, (mem_filesBelow hdir).2 hp, hlast, hbulk⟩

/-- **When exactly the right files are listed.** -/
theorem removable_iff_prunable_iff (h : planPruning r.disk r.root keepBlocks = .ok plan) :
    (∀ p, p ∈ plan.removable ↔ r.Prunable keepBlocks p) ↔ r.Ordered keepBlocks := by
  constructor
  · intro hexact scenario block p hs hb hp hbulk
    -- the block and its scenario are the only ones with the file
    have hprunable : r.Prunable keepBlocks p ↔ ¬r.behind DataRoot.blockOrder scenario block < keepBlocks := by
      rw [← mem_lastBlocks_blockOrder hb]
      constructor
      · rintro ⟨scenario', block', hs', hb', hlast, hp', -⟩
        obtain ⟨rfl, rfl⟩ := block_unique hs hs' hb hb' hp.1 hp'.1
        exact hlast
      · exact fun hlast => ⟨scenario, block, hs, hb, hlast, hp, hbulk⟩
    have hlisted : p ∈ plan.removable ↔ ¬r.Hidden scenario ∧
        ¬r.behind blockSortKey scenario block < keepBlocks := by
      rw [mem_removable h, ← mem_lastBlocks_blockSortKey hb]
      constructor
      · rintro ⟨scenario', block', hwalked, hb', hlast, hp', -⟩
        obtain ⟨hs', hseen⟩ := mem_scenarioDirs.1 hwalked
        obtain ⟨rfl, rfl⟩ := block_unique hs hs' hb hb' hp.1 hp'.1
        exact ⟨hseen, hlast⟩
      · rintro ⟨hseen, hlast⟩
        exact ⟨scenario, block, mem_scenarioDirs.2 ⟨hs, hseen⟩, hb, hlast, hp, hbulk⟩
    have hsame := hlisted.symm.trans ((hexact p).trans hprunable)
    refine ⟨fun hseen => ?_, fun hhidden => ?_⟩
    · rwa [and_iff_right hseen, not_iff_not] at hsame
    · by_contra hfew
      exact (hsame.2 hfew).1 hhidden
  · intro hordered p
    rw [mem_removable h]
    constructor
    · rintro ⟨scenario, block, hwalked, hb, hlast, hp, hbulk⟩
      obtain ⟨hs, hseen⟩ := mem_scenarioDirs.1 hwalked
      rw [mem_lastBlocks_blockSortKey hb, ((hordered scenario block p hs hb hp hbulk).1 hseen),
        ← mem_lastBlocks_blockOrder hb] at hlast
      exact ⟨scenario, block, hs, hb, hlast, hp, hbulk⟩
    · rintro ⟨scenario, block, hs, hb, hlast, hp, hbulk⟩
      obtain ⟨hwalked, hhidden⟩ := hordered scenario block p hs hb hp hbulk
      rw [mem_lastBlocks_blockOrder hb] at hlast
      have hseen : ¬r.Hidden scenario := fun h => hlast (hhidden h)
      rw [← hwalked hseen, ← mem_lastBlocks_blockSortKey hb] at hlast
      exact ⟨scenario, block, mem_scenarioDirs.2 ⟨hs, hseen⟩, hb, hlast, hp, hbulk⟩

theorem isFile_of_mem_removable (h : planPruning r.disk r.root keepBlocks = .ok plan)
    (hp : p ∈ plan.removable) : r.disk.fs.isFile p = true := by
  obtain ⟨scenario, block, -, -, -, hbelow, -⟩ := (mem_removable h).1 hp
  exact hbelow.2

theorem nodup_removable (h : planPruning r.disk r.root keepBlocks = .ok plan) :
    plan.removable.Nodup := by
  obtain ⟨plan', hplan', hremovable, -⟩ := planPruning_eq r keepBlocks
  cases h.symm.trans hplan'
  rw [hremovable]
  exact nodup_walk (fun scenario => listed r.disk (r.lastBlocks blockSortKey keepBlocks scenario))
    fun scenario block => ⟨(nodup_filesBelow _ _).filter _, List.filter_subset_self _⟩

/-- What is listed is nothing that is protected. -/
theorem not_protected (h : planPruning r.disk r.root keepBlocks = .ok plan) (hp : p ∈ plan.removable) :
    p.name ≠ "blocks.csv" ∧ ¬r.root ++ ["analysis"] <+: p ∧
      ∀ phase, ¬r.root ++ [phase, "analysis"] <+: p := by
  obtain ⟨scenario, block, hwalked, ⟨name, rfl, hname, -⟩, -, ⟨hpre, -⟩, pattern, hpattern, hmatch⟩ :=
    (mem_removable h).1 hp
  refine ⟨fun hcsv => ?_, fun hroot => ?_, fun phase hphase => ?_⟩
  · have hno : ∀ pattern ∈ bulkPatterns, globMatches pattern "blocks.csv" = false := by decide
    rw [hcsv, hno pattern hpattern] at hmatch
    cases hmatch
  all_goals rcases (mem_scenarioDirs.1 hwalked).1.2 with ⟨c, rfl, hc⟩ | ⟨c, g, rfl, hc, hg, -⟩
  · have hnames := List.prefix_of_prefix_length_le hroot hpre (by simp)
    obtain rfl : "analysis" = c := by simpa using hnames
    exact hc (by decide)
  · have hnames := List.prefix_of_prefix_length_le hroot hpre (by simp)
    obtain rfl : "analysis" = c := by simpa using hnames
    exact hc (by decide)
  · have hnames := List.prefix_of_prefix_length_le hphase hpre (by simp)
    obtain ⟨rfl, rfl⟩ : phase = c ∧ "analysis" = name := by simpa using hnames
    exact absurd hname (by decide)
  · have hnames := List.prefix_of_prefix_length_le hphase hpre (by simp)
    obtain ⟨rfl, rfl⟩ : phase = c ∧ "analysis" = g := by simpa using hnames
    exact hg (by decide)

/-- Removing files that are there leaves the rest. -/
theorem applyPlan_files {d : Disk} {removable : List Path} (hnodup : removable.Nodup)
    (hfiles : ∀ p ∈ removable, d.fs.isFile p = true) :
    ∃ d', applyPlan d removable = .ok d' ∧
      ∀ q, d'.node q = if q ∈ removable then none else d.node q := by
  induction removable generalizing d with
  | nil => exact ⟨d, rfl, fun q => (if_neg List.not_mem_nil).symm⟩
  | cons p removable ih =>
    rw [List.nodup_cons] at hnodup
    rw [List.forall_mem_cons] at hfiles
    obtain ⟨d', hd', hnone, hrest⟩ := Disk.exists_unlink hfiles.1
    have hleft : ∀ q ∈ removable, d'.fs.isFile q = true := fun q hq => by
      have hne : q ≠ p := fun h => hnodup.1 (h ▸ hq)
      rw [FileSystem.isFile, show d'.fs.fileAt q = d.fs.fileAt q from Disk.fileAt_congr (hrest q hne)]
      exact hfiles.2 q hq
    obtain ⟨d'', hd'', hnodes⟩ := ih hnodup.2 hleft
    refine ⟨d'', ?_, fun q => ?_⟩
    · rw [applyPlan, fold, hd']
      exact hd''
    · rw [hnodes]
      by_cases hq : q = p
      · subst hq
        simp [hnone]
      · rw [hrest q hq]
        simp [hq]

/-- **A second plan is empty.** -/
theorem plan_again (h : planPruning r.disk r.root keepBlocks = .ok plan) :
    ∃ disk', applyPlan r.disk plan.removable = .ok disk' ∧
      ∃ plan', planPruning disk' r.root keepBlocks = .ok plan' ∧ plan'.removable = [] := by
  obtain ⟨disk', happly, hnodes⟩ := applyPlan_files (nodup_removable h)
    fun p hp => isFile_of_mem_removable h hp
  have hkept : ∀ q, q ∉ plan.removable → disk'.fs.node q = r.disk.fs.node q := fun q hq =>
    (hnodes q).trans (if_neg hq)
  have hgone : ∀ q ∈ plan.removable, disk'.fs.node q = none := fun q hq => (hnodes q).trans (if_pos hq)
  -- no directory is removed
  have hdirs : ∀ q, disk'.fs.isDir q = r.disk.fs.isDir q := by
    intro q
    by_cases hq : q ∈ plan.removable
    · obtain ⟨bytes, hbytes⟩ := FileSystem.isFile_iff.1 (isFile_of_mem_removable h hq)
      rw [FileSystem.isDir, FileSystem.isDir, hgone q hq, FileSystem.fileAt_eq_some.1 hbytes]
    · rw [FileSystem.isDir, FileSystem.isDir, hkept q hq]
  let r' : DataRoot := ⟨disk', r.root, (hdirs r.root).trans r.isDir⟩
  have hsame : ∀ q, r'.disk.fs.isDir q = r.disk.fs.isDir q := hdirs
  obtain ⟨plan', hplan', -⟩ := planPruning_eq r' keepBlocks
  refine ⟨disk', happly, plan', hplan', List.eq_nil_iff_forall_not_mem.2 fun p hp => ?_⟩
  -- what the second plan lists is listed by the first one, and gone
  obtain ⟨scenario, block, hwalked, hb, hlast, ⟨hpre, hfile⟩, hbulk⟩ := (mem_removable hplan').1 hp
  rw [mem_lastBlocks_blockSortKey hb, behind_congr hsame] at hlast
  rw [mem_scenarioDirs_congr hsame rfl] at hwalked
  rw [isBlock_congr hsame] at hb
  have hnot : p ∉ plan.removable := fun hp => by
    obtain ⟨bytes, hbytes⟩ := FileSystem.isFile_iff.1 hfile
    cases (hgone p hp).symm.trans (FileSystem.fileAt_eq_some.1 hbytes)
  have hfile : r.disk.fs.isFile p = true := by
    rw [FileSystem.isFile, ← FileSystem.fileAt_congr (hkept p hnot)]
    exact hfile
  refine hnot ((mem_removable h).2 ⟨scenario, block, hwalked, hb, ?_, ⟨hpre, hfile⟩, hbulk⟩)
  rwa [mem_lastBlocks_blockSortKey hb]

/-- **When the right files are pruned**: if and only if the order of the blocks and the layout put no
large raw file on the wrong side. -/
theorem prunes_iff (r : DataRoot) (keepBlocks : ℕ) : Prunes r keepBlocks ↔ r.Ordered keepBlocks := by
  constructor
  · rintro ⟨plan, h, hcorrect⟩
    exact (removable_iff_prunable_iff h).1 hcorrect.exact
  · intro hordered
    obtain ⟨plan, h, -, hbytes, hscenarios⟩ := planPruning_eq r keepBlocks
    refine ⟨plan, h, ?_⟩
    exact
      { exact := (removable_iff_prunable_iff h).2 hordered
        once := nodup_removable h
        in_blocks := fun p hp => by
          obtain ⟨scenario, block, hwalked, hb, -, hbelow, -⟩ := (mem_removable h).1 hp
          exact ⟨scenario, hscenarios ▸ hwalked, block, hb, hbelow⟩
        not_protected := fun p hp => not_protected h hp
        bytes := by
          refine ⟨walkedFiles r, ?_, fun p => ?_, hbytes⟩
          · exact nodup_walk (fun _ => filesBelow r.disk) fun _ block =>
              ⟨nodup_filesBelow _ block, List.Subset.refl _⟩
          · rw [hscenarios]
            exact mem_walkedFiles
        again := plan_again h }

/-- A scenario with a block that is numbered by the time, and one that has no number. -/
def timestamped : DataRoot where
  disk := .ofLists [[], ["web"], ["web", "block-1760000000"], ["web", "block-partial"]]
    [(["web", "block-partial", "perf.data"], ⟨#[0]⟩)] (by decide)
  root := []
  isDir := by decide

/-- The block without a number is the last one, and its raw file is listed. -/
theorem timestamped_listed : ¬∀ (r : DataRoot) (keepBlocks : ℕ), Prunes r keepBlocks := by
  intro hall
  obtain ⟨plan, h, hcorrect⟩ := hall timestamped 1
  have hblock : timestamped.IsBlock ["web"] ["web", "block-partial"] :=
    ⟨"block-partial", rfl, by decide, by decide⟩
  have hscenario : timestamped.IsScenario ["web"] := ⟨⟨_, hblock⟩, .inl ⟨"web", rfl, by decide⟩⟩
  have hfile : timestamped.FileBelow ["web", "block-partial"] ["web", "block-partial", "perf.data"] :=
    ⟨by simp, by decide⟩
  have hbulk : DataRoot.IsBulk ["web", "block-partial", "perf.data"] :=
    ⟨"perf.data*", by decide, by decide⟩
  have hordered := (removable_iff_prunable_iff h).1 hcorrect.exact
  have hsame := (hordered _ _ _ hscenario hblock hfile hbulk).1 fun h => h.1 rfl
  have hbehind : timestamped.behind blockSortKey ["web"] ["web", "block-partial"] = 1 := by
    decide +kernel
  have hlast : timestamped.behind DataRoot.blockOrder ["web"] ["web", "block-partial"] = 0 := by
    decide +kernel
  rw [hbehind, hlast] at hsame
  exact absurd (hsame.2 Nat.one_pos) (lt_irrefl 1)

end Prunes

end PruneData

end LinuxSched
