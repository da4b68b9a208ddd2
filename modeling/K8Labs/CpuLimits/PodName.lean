import K8Labs.Python.Case
import K8Labs.Python.Sha1
import Mathlib.Data.List.DropRight

/-!
# Names of workload Pods

`_pod_name` of `research/cpu-limits/workloads/render.py`: workload, policy and the cleaned run id,
joined by hyphens; a name that is too long is cut and gets a digest.  Cleaning keeps dots and may
leave nothing at all.

* `mem_normalized_iff` : the letters, digits and dots that cleaning keeps.
* `isLabel_podName_iff` : **when the name is a DNS label.**
-/

namespace CpuLimits

namespace PodName

/-! ### Building the name -/

/-- A lower-case letter or a digit of ASCII. -/
def isAlnum (c : Char) : Bool := c.isLower || c.isDigit

/-- `[a-z0-9.-]`. -/
def isKept (c : Char) : Bool := isAlnum c || c == '.' || c == '-'

/-- `re.sub(r"[^a-z0-9.-]+", "-", text)`; `inRun` says that the run of other characters has its
hyphen already. -/
def dashed (inRun : Bool) : List Char → List Char
  | [] => []
  | c :: cs =>
    if isKept c then c :: dashed false cs
    else if inRun then dashed true cs else '-' :: dashed true cs

/-- The run id in the name. -/
def normalized (runId : String) : List Char :=
  ((dashed false (Py.lower runId).toList).dropWhile (· == '-')).rdropWhile (· == '-')

/-- The name before it is cut. -/
def fullName (workload policy runId : String) : List Char :=
  "cl-".toList ++ workload.toList ++ '-' :: (policy.toList ++ '-' :: normalized runId)

/-- `_pod_name`. -/
def podName (workload policy runId : String) : List Char :=
  let name := fullName workload policy runId
  if name.length ≤ 63 then name
  else name.take 54 ++ '-' :: (Py.sha1 (String.ofList name).toUTF8).toList.take 8

/-! ### Labels -/

/-- A character of a label. -/
def isLabelChar (c : Char) : Bool := isAlnum c || c == '-'

/-- A DNS-1123 label. -/
structure IsLabel (name : List Char) : Prop where
  length_le : name.length ≤ 63
  chars : ∀ c ∈ name, isLabelChar c = true
  first : ∃ c, name.head? = some c ∧ isAlnum c = true
  last : ∃ c, name.getLast? = some c ∧ isAlnum c = true

variable {c : Char} {cs : List Char} {inRun : Bool} {workload policy runId : String}

theorem isAlnum_dash : isAlnum '-' = false := by decide

theorem isLabelChar_of_isAlnum (h : isAlnum c = true) : isLabelChar c = true := by
  rw [isLabelChar, h, Bool.true_or]

/-- What is kept is a character of a label, or a dot. -/
theorem isLabelChar_of_isKept (h : isKept c = true) (hdot : c ≠ '.') : isLabelChar c = true := by
  rw [isKept, beq_eq_false_iff_ne.2 hdot, Bool.or_false] at h
  exact h

theorem isAlnum_of_isKept (h : isKept c = true) (hdot : c ≠ '.') (hdash : c ≠ '-') :
    isAlnum c = true := by
  have hlabel := isLabelChar_of_isKept h hdot
  rwa [isLabelChar, beq_eq_false_iff_ne.2 hdash, Bool.or_false] at hlabel

theorem isKept_of_mem_dashed (hc : c ∈ dashed inRun cs) : isKept c = true := by
  induction cs generalizing inRun with
  | nil => cases hc
  | cons d cs ih =>
    rw [dashed] at hc
    split_ifs at hc with hkept hrun
    · rcases List.mem_cons.1 hc with rfl | hc
      · exact hkept
      · exact ih hc
    · exact ih hc
    · rcases List.mem_cons.1 hc with rfl | hc
      · decide
      · exact ih hc

/-- Only hyphens are put in, and only what is not kept is taken away. -/
theorem mem_dashed_iff (hkept : isKept c = true) (hdash : c ≠ '-') :
    c ∈ dashed inRun cs ↔ c ∈ cs := by
  induction cs generalizing inRun with
  | nil => exact Iff.rfl
  | cons d cs ih =>
    rw [dashed]
    split_ifs with hd hrun
    · rw [List.mem_cons, List.mem_cons, ih]
    · have hne : c ≠ d := fun h => hd (h ▸ hkept)
      rw [ih, List.mem_cons, or_iff_right hne]
    · have hne : c ≠ d := fun h => hd (h ▸ hkept)
      rw [List.mem_cons, List.mem_cons, ih, or_iff_right hdash, or_iff_right hne]

theorem mem_dropWhile_dash (hdash : c ≠ '-') : c ∈ cs.dropWhile (· == '-') ↔ c ∈ cs := by
  induction cs with
  | nil => exact Iff.rfl
  | cons d cs ih =>
    by_cases hd : d = '-'
    · rw [List.dropWhile_cons_of_pos (by simpa using hd), ih, List.mem_cons,
        or_iff_right fun h => hdash (h.trans hd)]
    · rw [List.dropWhile_cons_of_neg (by simpa using hd)]

theorem mem_stripped_dash (hdash : c ≠ '-') :
    c ∈ (cs.dropWhile (· == '-')).rdropWhile (· == '-') ↔ c ∈ cs := by
  rw [List.rdropWhile, List.mem_reverse, mem_dropWhile_dash hdash, List.mem_reverse,
    mem_dropWhile_dash hdash]

/-- The letters, digits and dots of the run id in lower case are those of its part of the name. -/
theorem mem_normalized_iff (hkept : isKept c = true) (hdash : c ≠ '-') :
    c ∈ normalized runId ↔ c ∈ (Py.lower runId).toList := by
  rw [normalized, mem_stripped_dash hdash, mem_dashed_iff hkept hdash]

theorem isKept_of_mem_normalized (hc : c ∈ normalized runId) : isKept c = true :=
  isKept_of_mem_dashed ((List.dropWhile_sublist _).subset ((List.rdropWhile_prefix _ _).subset hc))

/-- Cleaning leaves no hyphen at the end. -/
theorem getLast_normalized (h : normalized runId ≠ []) : (normalized runId).getLast h ≠ '-' := by
  have hlast := List.rdropWhile_last_not (· == '-') _ h
  rwa [beq_iff_eq] at hlast

/-! ### When the name is a label -/

/-- The last character is that of the run id, or the hyphen before it. -/
theorem getLast?_fullName : (fullName workload policy runId).getLast? =
    (normalized runId).getLast?.or (some '-') := by
  rw [fullName, List.getLast?_append, List.getLast?_cons_of_ne_nil (by simp),
    List.getLast?_append, List.getLast?_cons]
  cases (normalized runId).getLast? <;> rfl

theorem mem_fullName : c ∈ fullName workload policy runId ↔
    c ∈ ['c', 'l', '-'] ∨ c ∈ workload.toList ∨ c ∈ policy.toList ∨ c ∈ normalized runId := by
  have hhead : "cl-".toList = ['c', 'l', '-'] := by decide
  simp only [fullName, hhead, List.mem_append, List.mem_cons, List.not_mem_nil, or_false]
  constructor
  · rintro ((hc | hc) | rfl | hc | rfl | hc)
    · exact .inl hc
    · exact .inr (.inl hc)
    · exact .inl (.inr (.inr rfl))
    · exact .inr (.inr (.inl hc))
    · exact .inl (.inr (.inr rfl))
    · exact .inr (.inr (.inr hc))
  · rintro (hc | hc | hc | hc)
    · exact .inl (.inl hc)
    · exact .inl (.inr hc)
    · exact .inr (.inr (.inl hc))
    · exact .inr (.inr (.inr (.inr hc)))

/-- A name that is not cut. -/
theorem isLabel_fullName_iff (hlength : (fullName workload policy runId).length ≤ 63) :
    IsLabel (fullName workload policy runId) ↔
      (∀ c ∈ workload.toList ++ policy.toList, isLabelChar c = true) ∧
        '.' ∉ (Py.lower runId).toList ∧ ∃ c ∈ (Py.lower runId).toList, isAlnum c = true := by
  -- a full stop is kept by the pattern of the script and is not of a label
  have hdot : isKept '.' = true ∧ isLabelChar '.' = false := by decide
  constructor
  · intro h
    have hplain : '.' ∉ normalized runId := fun hmem => by
      have := h.chars '.' (mem_fullName.2 (.inr (.inr (.inr hmem))))
      rw [hdot.2] at this
      cases this
    refine ⟨fun c hc => h.chars c (mem_fullName.2 ?_), ?_, ?_⟩
    · exact .inr ((List.mem_append.1 hc).imp_right .inl)
    · rwa [← mem_normalized_iff hdot.1 (by decide)]
    · -- the last character is no hyphen, so it is one of the run id
      obtain ⟨c, hlast, hc⟩ := h.last
      have hdash : c ≠ '-' := fun heq => by
        rw [heq, isAlnum_dash] at hc
        cases hc
      rw [getLast?_fullName] at hlast
      rcases Option.or_eq_some_iff.1 hlast with hlast | ⟨-, hlast⟩
      · have hmem := List.mem_of_getLast? hlast
        exact ⟨c, (mem_normalized_iff (isKept_of_mem_normalized hmem) hdash).1 hmem, hc⟩
      · exact absurd (Option.some.inj hlast).symm hdash
  · rintro ⟨hparts, hplain, c, hc, halnum⟩
    rw [← mem_normalized_iff hdot.1 (by decide)] at hplain
    have hchars : ∀ d ∈ normalized runId, isLabelChar d = true := fun d hd =>
      isLabelChar_of_isKept (isKept_of_mem_normalized hd) fun heq => hplain (heq ▸ hd)
    have hkept : isKept c = true := by rw [isKept, halnum]; rfl
    have hdash : c ≠ '-' := fun heq => by
      rw [heq, isAlnum_dash] at halnum
      cases halnum
    have hne := List.ne_nil_of_mem ((mem_normalized_iff hkept hdash).2 hc)
    refine ⟨hlength, fun d hd => ?_, ⟨'c', rfl, by decide⟩,
      (normalized runId).getLast hne, ?_, ?_⟩
    · rcases mem_fullName.1 hd with hd | hd | hd | hd
      · have hfixed : ['c', 'l', '-'].all isLabelChar = true := by decide
        exact List.all_eq_true.1 hfixed d hd
      · exact hparts d (List.mem_append_left _ hd)
      · exact hparts d (List.mem_append_right _ hd)
      · exact hchars d hd
    · rw [getLast?_fullName, List.getLast?_eq_some_getLast hne]
      rfl
    · have hlast := List.getLast_mem hne
      refine isAlnum_of_isKept (isKept_of_mem_normalized hlast) (fun heq => ?_)
        (getLast_normalized hne)
      exact hplain (heq ▸ hlast)

/-- A name that is cut: only what is left of it counts. -/
theorem isLabel_cut_iff {name digest : List Char} (hlength : 63 < name.length)
    (hfirst : ∃ c, name.head? = some c ∧ isAlnum c = true) (hdigest : digest.length = 8)
    (hhex : ∀ c ∈ digest, isAlnum c = true) :
    IsLabel (name.take 54 ++ '-' :: digest) ↔ ∀ c ∈ name.take 54, isLabelChar c = true := by
  constructor
  · intro h c hc
    exact h.chars c (List.mem_append_left _ hc)
  · intro h
    have hne : digest ≠ [] := fun hnil => by
      rw [hnil] at hdigest
      cases hdigest
    refine ⟨?_, fun c hc => ?_, ?_, digest.getLast hne, ?_, hhex _ (List.getLast_mem hne)⟩
    · rw [List.length_append, List.length_cons, List.length_take, hdigest]
      omega
    · rcases List.mem_append.1 hc with hc | hc
      · exact h c hc
      · rcases List.mem_cons.1 hc with rfl | hc
        · decide
        · exact isLabelChar_of_isAlnum (hhex c hc)
    · obtain ⟨c, hc, halnum⟩ := hfirst
      refine ⟨c, ?_, halnum⟩
      cases name with
      | nil => cases hc
      | cons d name => exact hc
    · rw [List.getLast?_append, List.getLast?_cons, List.getLast?_eq_some_getLast hne]
      rfl

/-- **When the name is a DNS label.**  A name that fits: the run id has a letter or a digit and no
dot, and workload and policy are made of characters of a label.  A name that is cut: its first 54
characters are. -/
theorem isLabel_podName_iff (workload policy runId : String) :
    IsLabel (podName workload policy runId) ↔
      if (fullName workload policy runId).length ≤ 63 then
        (∀ c ∈ workload.toList ++ policy.toList, isLabelChar c = true) ∧
          '.' ∉ (Py.lower runId).toList ∧ ∃ c ∈ (Py.lower runId).toList, isAlnum c = true
      else ∀ c ∈ (fullName workload policy runId).take 54, isLabelChar c = true := by
  unfold podName
  dsimp only
  split_ifs with hlength
  · exact isLabel_fullName_iff hlength
  · refine isLabel_cut_iff (by omega) ⟨'c', rfl, by decide⟩ ?_ fun c hc => ?_
    · rw [List.length_take, Py.length_sha1]
      omega
    · have halnum : "0123456789abcdef".toList.all isAlnum = true := by decide
      exact List.all_eq_true.1 halnum c (Py.isHexDigit_sha1 _ c (List.mem_of_mem_take hc))

theorem hyphen_last : ¬ IsLabel (podName "cpu-bound" "fit" "***") := by
  intro h
  have hname : podName "cpu-bound" "fit" "***" = "cl-cpu-bound-fit-".toList := by decide
  obtain ⟨c, hlast, hc⟩ := h.last
  rw [hname] at hlast
  cases hlast
  cases hc

end PodName

end CpuLimits
