import K8Labs.Python.Sha256
import K8Labs.Python.Text
import Mathlib.Data.Finset.Insert
import Mathlib.Data.List.DropRight

/-!
# Options of kernel config fragments

`config_fragment_options` of `scripts/kernel_build_harness.py` collects the options that some line
sets to `y`.  The kernel merges fragments by the **last** assignment of each option, where a line
`# CONFIG_X is not set` assigns too.

* `mem_configFragmentOptions` : the options that have a `=y` line.
* `merges_iff` : they are the enabled ones exactly when no option is assigned again after its last
  `=y` line.
-/

namespace KernelBuild

open Py (strip startsWith)

/-! ### Scanning a fragment -/

/-- `normalize_config_fragment`. -/
def normalizeConfigFragment (text : List Char) : List Char :=
  (Py.universalNewlines text).rdropWhile (· = '\n') ++ ['\n']

/-- The lines of the normalized text, each without the white space around it. -/
def fragmentLines (text : List Char) : List String :=
  (Py.splitLines (String.ofList (normalizeConfigFragment text))).map strip

/-- `line.partition("=")`, its first and its last part. -/
def partitionEq (line : String) : String × String :=
  match Py.partition '=' line.toList with
  | some (name, value) => (String.ofList name, String.ofList value)
  | none => (line, "")

/-- The option that a line of the fragment enables. -/
def enabledName (line : String) : Option String :=
  if line = "" || startsWith line "#" then none
  else
    let (name, value) := partitionEq line
    if strip value = "y" then some (strip name) else none

/-- `config_fragment_options`. -/
def configFragmentOptions (text : List Char) : Finset String :=
  (fragmentLines text).foldl (fun enabled line =>
    match enabledName line with
    | some name => insert name enabled
    | none => enabled) ∅

/-- `REQUIRED_CONFIG_OPTIONS`. -/
def requiredConfigOptions : List String :=
  ["CONFIG_SCHED_CLASS_EXT", "CONFIG_BPF_SYSCALL", "CONFIG_BPF_JIT", "CONFIG_DEBUG_INFO_BTF",
    "CONFIG_CGROUPS", "CONFIG_CGROUP_SCHED", "CONFIG_CFS_BANDWIDTH", "CONFIG_FAIR_GROUP_SCHED",
    "CONFIG_DEBUG_FS", "CONFIG_PREEMPT_DYNAMIC", "CONFIG_EFI_STUB", "CONFIG_MODULE_SIG"]

/-- `missing_required_options` of a text. -/
def missingRequiredOptions (content : List Char) : List String :=
  requiredConfigOptions.filter fun option => option ∉ configFragmentOptions content

/-- `config_fragment_hash` of a text. -/
def configFragmentHash (content : List Char) : String :=
  Py.sha256 (String.ofList (normalizeConfigFragment content)).toUTF8

/-! ### What the kernel makes of it -/

/-- The option of a line `# CONFIG_X is not set`. -/
def unsetName (line : String) : Option String :=
  match "# ".toList.isPrefixOf? line.toList with
  | some rest =>
    let name := String.ofList (rest.take (rest.length - " is not set".length))
    if Py.endsWith line " is not set" && startsWith name "CONFIG_" then some name else none
  | none => none

/-- What a line assigns: an option and its value, `none` when the option is not set. -/
def assignment (line : String) : Option (String × Option String) :=
  match unsetName line with
  | some name => some (name, none)
  | none =>
    if line = "" || startsWith line "#" || !line.toList.contains '=' then none
    else some (strip (partitionEq line).1, some (strip (partitionEq line).2))

/-- The assignments of a text. -/
def assignments (text : List Char) : List (String × Option String) :=
  (fragmentLines text).filterMap assignment

/-- The value that the last assignment of an option leaves. -/
def mergedValue (option : String) (text : List Char) : Option String :=
  (((assignments text).filter fun a => a.1 = option).getLast?.map Prod.snd).join

/-! ### Where they agree -/

variable {text : List Char} {option name line : String} {value : Option String}

theorem mem_foldl_options {lines : List String} {enabled : Finset String} :
    option ∈ lines.foldl (fun enabled line =>
      match enabledName line with
      | some name => insert name enabled
      | none => enabled) enabled ↔
      option ∈ enabled ∨ ∃ line ∈ lines, enabledName line = some option := by
  induction lines generalizing enabled with
  | nil => simp
  | cons line lines ih =>
    rw [List.foldl_cons, ih]
    cases h : enabledName line with
    | none => simp [h]
    | some name =>
      simp only [Finset.mem_insert, List.exists_mem_cons_iff, h, Option.some.injEq]
      constructor
      · rintro ((rfl | hmem) | hlater)
        · exact .inr (.inl rfl)
        · exact .inl hmem
        · exact .inr (.inr hlater)
      · rintro (hmem | rfl | hlater)
        · exact .inl (.inr hmem)
        · exact .inl (.inl rfl)
        · exact .inr hlater

theorem startsWith_of_unsetName (h : unsetName line = some name) : startsWith line "#" = true := by
  unfold unsetName at h
  split at h
  · next rest hrest =>
    rw [startsWith, List.isPrefixOf_iff_prefix]
    exact ⟨' ' :: rest, (Py.isPrefixOf?_eq_some hrest).symm⟩
  · cases h

/-- A line enables what it sets to `y`. -/
theorem enabledName_eq_some :
    enabledName line = some option ↔ assignment line = some (option, some "y") := by
  unfold enabledName assignment
  cases hunset : unsetName line with
  | some name => simp [startsWith_of_unsetName hunset]
  | none =>
    by_cases hskip : (line = "" || startsWith line "#") = true
    · simp [hskip]
    · by_cases heq : line.toList.contains '=' = true
      · simp only [hskip, heq]
        split_ifs with hvalue <;> simp_all
      · have hnone : Py.partition '=' line.toList = none :=
          Py.partition_eq_none (by simpa using heq)
        have hempty : strip "" ≠ "y" := by decide
        simp [partitionEq, hnone, hskip, hempty]

/-- The options that are reported have a `=y` line. -/
theorem mem_configFragmentOptions :
    option ∈ configFragmentOptions text ↔ (option, some "y") ∈ assignments text := by
  rw [configFragmentOptions, mem_foldl_options, assignments, List.mem_filterMap]
  simp only [Finset.notMem_empty, false_or, enabledName_eq_some]

theorem mem_of_mergedValue (h : mergedValue option text = some "y") :
    (option, some "y") ∈ assignments text := by
  rw [mergedValue, Option.join_eq_some_iff, Option.map_eq_some_iff] at h
  obtain ⟨⟨name, value⟩, hlast, hvalue⟩ := h
  obtain ⟨hmem, hname⟩ := List.mem_filter.1 (List.mem_of_getLast? hlast)
  have hname : name = option := by simpa using hname
  have hvalue : value = some "y" := hvalue
  rwa [hname, hvalue] at hmem

/-- After the last `=y` line of an option no line assigns it. -/
def Final (option : String) (as : List (String × Option String)) : Prop :=
  ∀ before after, as = before ++ (option, some "y") :: after → (option, some "y") ∉ after →
    ∀ a ∈ after, a.1 ≠ option

/-- An element splits the list at its last occurrence. -/
theorem exists_last_split {α : Type*} {a : α} {as : List α} (h : a ∈ as) :
    ∃ before after, as = before ++ a :: after ∧ a ∉ after := by
  obtain ⟨xs, ys, hsplit, hxs⟩ := List.eq_append_cons_of_mem (List.mem_reverse.2 h)
  refine ⟨ys.reverse, xs.reverse, ?_, fun hmem => hxs (List.mem_reverse.1 hmem)⟩
  rw [← List.reverse_reverse as, hsplit]
  simp

/-- The value of an option behind its last `=y` line. -/
theorem mergedValue_of_split {before after : List (String × Option String)}
    (h : assignments text = before ++ (option, some "y") :: after)
    (hlast : (option, some "y") ∉ after) :
    mergedValue option text = some "y" ↔ ∀ a ∈ after, a.1 ≠ option := by
  rw [mergedValue, h, List.filter_append, List.filter_cons_of_pos (by simp)]
  cases hafter : (after.filter fun a => a.1 = option).getLast? with
  | none =>
    rw [List.getLast?_eq_none_iff] at hafter
    rw [hafter, List.getLast?_concat]
    refine iff_of_true rfl fun a ha heq => ?_
    exact List.not_mem_nil (hafter ▸ List.mem_filter.2 ⟨ha, by simpa using heq⟩)
  | some a =>
    -- the assignment that comes last is behind the `=y` line and is another one
    have hmem := List.mem_of_getLast? hafter
    obtain ⟨ha, hoption⟩ := List.mem_filter.1 hmem
    have hoption : a.1 = option := by simpa using hoption
    rw [List.getLast?_append, List.getLast?_cons, hafter]
    refine iff_of_false (fun hvalue => hlast ?_) fun hall => hall a ha hoption
    obtain ⟨name, value⟩ := a
    cases hoption
    have hvalue : value = some "y" := hvalue
    rwa [hvalue] at ha

/-- **Reported and enabled are the same exactly when no `=y` line is overridden.** -/
theorem merges_iff (fragments : List (List Char)) (option : String) :
    (option ∈ configFragmentOptions fragments.flatten ↔
      mergedValue option fragments.flatten = some "y") ↔
      Final option (assignments fragments.flatten) := by
  rw [mem_configFragmentOptions]
  by_cases hmem : (option, some "y") ∈ assignments fragments.flatten
  · rw [iff_true_left hmem]
    constructor
    · intro hmerged before after hsplit hlast
      exact (mergedValue_of_split hsplit hlast).1 hmerged
    · intro hfinal
      obtain ⟨before, after, hsplit, hlast⟩ := exists_last_split hmem
      exact (mergedValue_of_split hsplit hlast).2 (hfinal before after hsplit hlast)
  · refine iff_of_true (iff_of_false hmem fun hmerged => hmem (mem_of_mergedValue hmerged)) ?_
    intro before after hsplit
    exact absurd (hsplit ▸ List.mem_append_right before List.mem_cons_self) hmem

/-- A text whose merge has every required option on misses none. -/
theorem missingRequiredOptions_eq_nil {content : List Char}
    (h : ∀ option ∈ requiredConfigOptions, mergedValue option content = some "y") :
    missingRequiredOptions content = [] := by
  refine List.filter_eq_nil_iff.2 fun option hoption => ?_
  have hassigned := mem_of_mergedValue (h option hoption)
  rw [decide_eq_true_eq, not_not, mem_configFragmentOptions]
  exact hassigned

/-- An option that is set and then unset. -/
theorem unset_reported : ¬ ∀ (fragments : List (List Char)) (option : String),
    option ∈ configFragmentOptions fragments.flatten ↔
      mergedValue option fragments.flatten = some "y" := by
  intro h
  have hset := h ["CONFIG_DEBUG_INFO_BTF=y\n".toList, "# CONFIG_DEBUG_INFO_BTF is not set\n".toList]
    "CONFIG_DEBUG_INFO_BTF"
  have hreported : "CONFIG_DEBUG_INFO_BTF" ∈ configFragmentOptions
      ["CONFIG_DEBUG_INFO_BTF=y\n".toList, "# CONFIG_DEBUG_INFO_BTF is not set\n".toList].flatten := by
    decide +kernel
  have hunset : mergedValue "CONFIG_DEBUG_INFO_BTF"
      ["CONFIG_DEBUG_INFO_BTF=y\n".toList, "# CONFIG_DEBUG_INFO_BTF is not set\n".toList].flatten ≠
        some "y" := by
    decide +kernel
  exact hunset (hset.1 hreported)

end KernelBuild
