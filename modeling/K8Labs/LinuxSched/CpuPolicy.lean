import K8Labs.Python.Replace
import Mathlib.Data.Nat.Notation
import Mathlib.Tactic.SplitIfs

/-!
# The CPU limit of a block

`run_block` passes the policy of a block on in exported variables, `capture-block.sh` reads them and
lets `cpu_limit_policy.py` render the workload, which `sed` then completes.  The variables outlive
the call.  A workload is a `Manifest` whose text is the YAML file; a `Template` has the marker for
the limit of every container.

* `runBlocks_iff` : every manifest that a run applies has the limits of its policy exactly when no
  call without a policy has a container.
-/

namespace LinuxSched

namespace CpuPolicy

open Py

/-- A text, as its characters. -/
abbrev Text := List Char

/-! ### Manifests -/

/-- A CPU quantity: digits, a point, the suffix for thousandths. -/
structure Quantity where
  text : Text
  ne_nil : text ≠ []
  plain : ∀ c ∈ text, c.isDigit = true ∨ c = '.' ∨ c = 'm'

/-- A container: what comes before its resources, the CPU it requests, and its CPU limit. -/
structure Container where
  lead : Text
  request : Quantity
  limit : Option Text

/-- A manifest: its containers, and the text behind the last of them. -/
structure Manifest where
  containers : List Container
  tail : Text

/-- The text of a container up to its CPU request. -/
def requestsHead : Text := "      resources:\n        requests:\n          cpu: \"".toList

/-- The text from there to a CPU limit. -/
def limitsHead : Text := "        limits:\n          cpu: \"".toList

/-- The end of a quantity. -/
def quoteEnd : Text := "\"\n".toList

/-- The limits of a container without a CPU limit. -/
def noLimits : Text := "        limits: \x7b\x7d\n".toList

/-- The text of the requests. -/
def Container.requestsText (c : Container) : Text := requestsHead ++ (c.request.text ++ quoteEnd)

/-- The text of the limits. -/
def limitsText : Option Text → Text
  | none => noLimits
  | some limit => limitsHead ++ (limit ++ quoteEnd)

/-- The text of a manifest. -/
def Manifest.text (m : Manifest) : Text :=
  (m.containers.flatMap fun c => c.lead ++ (c.requestsText ++ limitsText c.limit)) ++ m.tail

/-- The manifest with the same limit for every container. -/
def Manifest.withLimit (m : Manifest) (limit : Option Text) : Manifest :=
  { m with containers := m.containers.map fun c => { c with limit := limit } }

/-- The manifest with its other texts changed. -/
def Manifest.mapText (m : Manifest) (f : Text → Text) : Manifest where
  containers := m.containers.map fun c => { c with lead := f c.lead }
  tail := f m.tail

/-- `__CPU_LIMIT__`. -/
def marker : Text := "__CPU_LIMIT__".toList

/-- A text without the marker and without limits. -/
def IsFree (t : Text) : Prop := ¬ marker <:+: t ∧ ¬ "limits:".toList <:+: t

/-- Whole lines. -/
def IsLines (t : Text) : Prop := ∃ before, t = before ++ ['\n']

/-- The form of the workloads: the marker is the limit of every container and stands nowhere
else. -/
structure Template where
  manifest : Manifest
  marked : ∀ c ∈ manifest.containers, c.limit = some marker
  lines : ∀ c ∈ manifest.containers, IsLines c.lead
  free : ∀ c ∈ manifest.containers, IsFree c.lead
  free_tail : IsFree manifest.tail

/-! ### Rendering -/

/-- `LINUX_SCHED_CPU_POLICY`. -/
inductive Policy
  | empty
  | unlimited
  | limited
  deriving DecidableEq

/-- `DEFAULT_LIMITED_CPU`. -/
def defaultLimitedCpu : Text := "500m".toList

/-- `render_cpu_limit_policy`, for the two policies of its command line. -/
def renderCpuLimitPolicy (manifest : Text) (unlimited : Bool) (cpuLimit : Option Text) : Text :=
  let cpuLimit := cpuLimit.getD defaultLimitedCpu
  if unlimited then replace (limitsHead ++ (marker ++ quoteEnd)) noLimits manifest
  else
    let rendered := replace marker cpuLimit manifest
    if ¬ "limits:".toList <:+: rendered ∨
        ¬ "cpu:".toList <:+: ((afterFirst "limits:".toList rendered).getD rendered).take 80 then
      replace noLimits ("        limits:\n          cpu: ".toList ++ cpuLimit ++ ['\n']) rendered
    else rendered

/-- `sed`, with names that have no character special to it. -/
def substitute (node arm : Text) (t : Text) : Text :=
  replace "__ARM__".toList arm (replace "__NODE_NAME__".toList node t)

/-! ### The two scripts -/

/-- A call of `run_block`: what it is given, the workload, and what `frozen_quota_for` gives. -/
structure Call where
  arm : Text
  node : Text
  policy : Policy
  template : Template
  frozen : Option Quantity

/-- The exported variables. -/
structure Shell where
  cpuPolicy : Policy
  cpuLimit : Option Text

/-- `run_block`: the variables it exports; `none` when it dies. -/
def export? (call : Call) (cpuLimit : Option Text) : Option Shell :=
  match call.policy with
  | .empty => some ⟨.empty, cpuLimit⟩
  | .unlimited => some ⟨.unlimited, none⟩
  | .limited => call.frozen.map fun quota => ⟨.limited, some quota.text⟩

/-- `capture-block.sh`: the manifest it applies.  An empty policy counts as limited, and an empty
limit is not passed on. -/
def captureBlock (call : Call) (shell : Shell) : Text :=
  let cpuPolicy := if shell.cpuPolicy = .empty then .limited else shell.cpuPolicy
  let cpuLimit := shell.cpuLimit.filter fun limit => limit ≠ []
  substitute call.node call.arm
    (renderCpuLimitPolicy call.template.manifest.text (cpuPolicy = .unlimited) cpuLimit)

/-- Calls in one process, from some value of the limit: each call with the manifest it applied. -/
def runBlocks : List Call → Option Text → List (Call × Text)
  | [], _ => []
  | call :: calls, cpuLimit =>
    match export? call cpuLimit with
    | none => []
    | some shell => (call, captureBlock call shell) :: runBlocks calls shell.cpuLimit

/-- The manifest a call should apply: no limits, or for the limited policy the frozen quota as the
limit of every container; requests and all else as in the template. -/
def intended (call : Call) : Text :=
  ((call.template.manifest.withLimit
    (if call.policy = .limited then call.frozen.map Quantity.text else none)).mapText
      (substitute call.node call.arm)).text

/-- The calls before one that dies for want of a quota. -/
def reached (calls : List Call) : List Call :=
  calls.takeWhile fun call => !(call.policy = .limited && call.frozen.isNone)

/-! ### What the renderer makes of a template -/

section Render

variable {new : Text}

theorem notMem_requestsText {c : Container} {d : Char} (hhead : d ∉ requestsHead)
    (hend : d ∉ quoteEnd) (hdigit : d.isDigit = false) (hpoint : d ≠ '.') (hm : d ≠ 'm') :
    d ∉ c.requestsText := by
  intro h
  rcases List.mem_append.1 h with h | h
  · exact hhead h
  · rcases List.mem_append.1 h with h | h
    · rcases c.request.plain d h with h | h | h
      · rw [hdigit] at h
        cases h
      · exact hpoint h
      · exact hm h
    · exact hend h

theorem underscore_notMem_requestsText (c : Container) : '_' ∉ c.requestsText :=
  notMem_requestsText (by decide) (by decide) (by decide) (by decide) (by decide)

theorem requestsText_eq (c : Container) :
    c.requestsText = requestsHead ++ (c.request.text ++ ['"']) ++ ['\n'] := by
  rw [Container.requestsText, List.append_assoc, List.append_assoc]
  rfl

/-- An old text with a newline-free beginning that names the limits is not in what comes before
them. -/
theorem not_prefix_before {c : Container} {old head rest : Text} (hlines : IsLines c.lead)
    (hfree : ¬ "limits:".toList <:+: c.lead) (hold : head <+: old) (hnewline : '\n' ∉ head)
    (hhead : "limits:".toList <:+: head) {i : ℕ} (hi : i < (c.lead ++ c.requestsText).length) :
    ¬ old <+: (c.lead ++ c.requestsText ++ rest).drop i := by
  have hl : 'l' ∉ c.requestsText :=
    notMem_requestsText (by decide) (by decide) (by decide) (by decide) (by decide)
  obtain ⟨before, hbefore⟩ := hlines
  by_cases hlead : i < c.lead.length
  · rw [hbefore] at hlead hfree ⊢
    rw [List.append_assoc]
    refine not_prefix_drop hold hnewline (fun h => hfree ?_) hlead
    exact hhead.trans (h.trans (List.prefix_append _ _).isInfix)
  · rw [List.append_assoc, List.drop_append, List.drop_eq_nil_of_le (not_lt.1 hlead),
      List.nil_append, requestsText_eq]
    rw [requestsText_eq] at hl
    refine not_prefix_drop hold hnewline (fun h => hl ?_) ?_
    · exact List.mem_append_left _ ((hhead.trans h).subset (by decide))
    · rw [List.length_append, requestsText_eq] at hi
      omega

theorem text_cons (c : Container) (containers : List Container) (tail : Text) :
    (⟨c :: containers, tail⟩ : Manifest).text =
      c.lead ++ (c.requestsText ++ (limitsText c.limit ++ (⟨containers, tail⟩ : Manifest).text)) := by
  simp only [Manifest.text, List.flatMap_cons, List.append_assoc]

/-- `limited`: the marker gives way to the limit. -/
theorem replace_marker {containers : List Container} {tail : Text}
    (hmarked : ∀ c ∈ containers, c.limit = some marker)
    (hlines : ∀ c ∈ containers, IsLines c.lead) (hfree : ∀ c ∈ containers, IsFree c.lead)
    (htail : IsFree tail) (limit : Text) :
    replace marker limit (⟨containers, tail⟩ : Manifest).text =
      ((⟨containers, tail⟩ : Manifest).withLimit (some limit)).text := by
  induction containers with
  | nil => exact replace_of_not_infix htail.1
  | cons c containers ih =>
    rw [List.forall_mem_cons] at hmarked hlines hfree
    obtain ⟨before, hbefore⟩ := hlines.1
    have hfirst : ¬ marker <:+: before := fun h =>
      hfree.1.1 (h.trans (hbefore ▸ (List.prefix_append _ _).isInfix))
    have hlead : ∀ rest, replace marker limit (c.lead ++ rest) =
        c.lead ++ replace marker limit rest := by
      intro rest
      rw [hbefore, List.append_assoc, List.singleton_append,
        replace_append_cons (by decide) (by decide), replace_of_not_infix hfirst, List.append_assoc,
        List.singleton_append]
    have hunder : ∀ xs rest : Text, '_' ∉ xs →
        replace marker limit (xs ++ rest) = xs ++ replace marker limit rest :=
      fun xs rest h => replace_append_of_notMem h rest
    have hrest := ih hmarked.2 hlines.2 hfree.2
    rw [text_cons, hmarked.1, limitsText, List.append_assoc, List.append_assoc, hlead,
      hunder _ _ (underscore_notMem_requestsText c), hunder limitsHead _ (by decide),
      replace_old_append (by decide), hunder quoteEnd _ (by decide), hrest]
    show _ = (⟨{ c with limit := some limit } :: _, tail⟩ : Manifest).text
    rw [text_cons, limitsText, List.append_assoc, List.append_assoc]
    rfl

/-- The limits with the marker. -/
def markedLimits : Text := limitsHead ++ (marker ++ quoteEnd)

/-- `unlimited`: the limits with the marker give way to no limits. -/
theorem replace_limits {containers : List Container} {tail : Text}
    (hmarked : ∀ c ∈ containers, c.limit = some marker)
    (hlines : ∀ c ∈ containers, IsLines c.lead) (hfree : ∀ c ∈ containers, IsFree c.lead)
    (htail : IsFree tail) :
    replace markedLimits noLimits (⟨containers, tail⟩ : Manifest).text =
      ((⟨containers, tail⟩ : Manifest).withLimit none).text := by
  have hlimits : "limits:".toList <:+: markedLimits := by decide
  have hhead : "        limits:".toList <+: markedLimits := by decide
  induction containers with
  | nil => exact replace_of_not_infix fun h => htail.2 (hlimits.trans h)
  | cons c containers ih =>
    rw [List.forall_mem_cons] at hmarked hlines hfree
    have hrest := ih hmarked.2 hlines.2 hfree.2
    have hbefore : ∀ rest, replace markedLimits noLimits (c.lead ++ c.requestsText ++ rest) =
        c.lead ++ c.requestsText ++ replace markedLimits noLimits rest := fun rest =>
      replace_append_of_forall fun i hi =>
        not_prefix_before hlines.1 hfree.1.2 hhead (by decide) (by decide) hi
    have hlimit : limitsText (some marker) = markedLimits := rfl
    rw [text_cons, hmarked.1, hlimit, ← List.append_assoc, hbefore, replace_old_append (by decide),
      hrest, List.append_assoc]
    show _ = (⟨{ c with limit := none } :: _, tail⟩ : Manifest).text
    rw [text_cons]
    rfl

/-- Where there are limits, the first of them is a CPU limit. -/
theorem afterFirst_limits {c : Container} {containers : List Container} {tail limit : Text}
    (hlines : IsLines c.lead) (hfree : IsFree c.lead) (hlimit : c.limit = some limit) :
    ∃ rest, afterFirst "limits:".toList (⟨c :: containers, tail⟩ : Manifest).text =
      some ("\n          cpu: \"".toList ++ rest) := by
  have hhead : ∀ rest, limitsHead ++ rest = "        ".toList ++ ("limits:".toList ++
      ("\n          cpu: \"".toList ++ rest)) := fun _ => rfl
  refine ⟨limit ++ (quoteEnd ++ (⟨containers, tail⟩ : Manifest).text), ?_⟩
  rw [text_cons, hlimit, limitsText, List.append_assoc, List.append_assoc, hhead,
    ← List.append_assoc c.lead, afterFirst_append_of_forall fun i hi => not_prefix_before hlines
      hfree.2 (List.prefix_refl _) (by decide) (List.infix_refl _) hi]
  have hspaces : 'l' ∉ "        ".toList := by decide
  refine (afterFirst_append_of_notMem hspaces _).trans ?_
  exact afterFirst_append (by decide) _

/-- **The renderer** gives every container of a template the limit of the policy. -/
theorem renderCpuLimitPolicy_template (template : Template) (unlimited : Bool)
    (cpuLimit : Option Text) :
    renderCpuLimitPolicy template.manifest.text unlimited cpuLimit =
      (template.manifest.withLimit
        (if unlimited then none else some (cpuLimit.getD defaultLimitedCpu))).text := by
  obtain ⟨⟨containers, tail⟩, hmarked, hlines, hfree, htail⟩ := template
  dsimp only at hmarked hlines hfree htail
  cases unlimited with
  | true => exact replace_limits hmarked hlines hfree htail
  | false =>
    simp only [renderCpuLimitPolicy, Bool.false_eq_true, if_false,
      replace_marker hmarked hlines hfree htail]
    cases containers with
    | nil =>
      -- nothing to limit, and nothing that the last step would replace
      have hnone : ¬ noLimits <:+: tail := fun h =>
        htail.2 ((show "limits:".toList <:+: noLimits by decide).trans h)
      have htext : ((⟨[], tail⟩ : Manifest).withLimit
          (some (cpuLimit.getD defaultLimitedCpu))).text = tail := rfl
      rw [htext, replace_of_not_infix hnone, ite_self]
    | cons c containers =>
      -- the first limits name a CPU, so the last step replaces nothing
      rw [List.forall_mem_cons] at hlines hfree
      generalize cpuLimit.getD defaultLimitedCpu = limit
      have hrest : ∃ rest, afterFirst "limits:".toList
          ((⟨c :: containers, tail⟩ : Manifest).withLimit (some limit)).text =
            some ("\n          cpu: \"".toList ++ rest) :=
        afterFirst_limits hlines.1 hfree.1 rfl
      obtain ⟨rest, hrest⟩ := hrest
      rw [if_neg]
      rintro (hnone | hcpu)
      · exact hnone (infix_of_afterFirst hrest)
      · rw [hrest] at hcpu
        refine hcpu ((List.infix_append "\n          ".toList "cpu:".toList " \"".toList).trans ?_)
        rw [Option.getD_some, List.take_append]
        exact (List.prefix_append _ _).isInfix

end Render

/-! ### What `sed` makes of it -/

section Substitute

variable {node arm : Text}

/-- Whole lines are completed apart from what follows. -/
theorem substitute_append_lines {xs : Text} (h : IsLines xs) (rest : Text) :
    substitute node arm (xs ++ rest) = substitute node arm xs ++ substitute node arm rest := by
  obtain ⟨before, rfl⟩ := h
  have hnode : ∀ xs ys, replace "__NODE_NAME__".toList node (xs ++ '\n' :: ys) =
      replace "__NODE_NAME__".toList node xs ++ '\n' :: replace "__NODE_NAME__".toList node ys :=
    replace_append_cons (by decide) (by decide)
  have harm : ∀ xs ys, replace "__ARM__".toList arm (xs ++ '\n' :: ys) =
      replace "__ARM__".toList arm xs ++ '\n' :: replace "__ARM__".toList arm ys :=
    replace_append_cons (by decide) (by decide)
  have hline : ∀ ys, substitute node arm (before ++ '\n' :: ys) =
      substitute node arm before ++ '\n' :: substitute node arm ys := fun ys => by
    rw [substitute, hnode, harm, substitute, substitute]
  rw [List.append_assoc, List.singleton_append, hline, hline, List.append_assoc]
  rfl

/-- A text without an underscore is left as it is. -/
theorem substitute_append_of_notMem {xs : Text} (h : '_' ∉ xs) (rest : Text) :
    substitute node arm (xs ++ rest) = xs ++ substitute node arm rest := by
  have hnode : ∀ ys, replace "__NODE_NAME__".toList node (xs ++ ys) =
      xs ++ replace "__NODE_NAME__".toList node ys := replace_append_of_notMem h
  have harm : ∀ ys, replace "__ARM__".toList arm (xs ++ ys) =
      xs ++ replace "__ARM__".toList arm ys := replace_append_of_notMem h
  rw [substitute, hnode, harm, substitute]

theorem underscore_notMem_limitsText {limit : Option Text} (h : ∀ t ∈ limit, '_' ∉ t) :
    '_' ∉ limitsText limit := by
  cases limit with
  | none => decide
  | some t =>
    intro hmem
    rcases List.mem_append.1 hmem with hmem | hmem
    · exact absurd hmem (by decide)
    · rcases List.mem_append.1 hmem with hmem | hmem
      · exact h t rfl hmem
      · exact absurd hmem (by decide)

/-- With limits that have no underscore, only the other texts are completed. -/
theorem substitute_text {containers : List Container} {tail : Text} {limit : Option Text}
    (hlines : ∀ c ∈ containers, IsLines c.lead) (hlimit : ∀ t ∈ limit, '_' ∉ t) :
    substitute node arm ((⟨containers, tail⟩ : Manifest).withLimit limit).text =
      (((⟨containers, tail⟩ : Manifest).withLimit limit).mapText (substitute node arm)).text := by
  induction containers with
  | nil => rfl
  | cons c containers ih =>
    rw [List.forall_mem_cons] at hlines
    show substitute node arm (⟨{ c with limit := limit } :: _, tail⟩ : Manifest).text =
      (⟨{ c with lead := substitute node arm c.lead, limit := limit } :: _, _⟩ : Manifest).text
    rw [text_cons, text_cons, substitute_append_lines hlines.1,
      substitute_append_of_notMem (underscore_notMem_requestsText _),
      substitute_append_of_notMem (underscore_notMem_limitsText hlimit)]
    exact congrArg (fun t => _ ++ (_ ++ (_ ++ t))) (ih hlines.2)

end Substitute

/-! ### Calls in one process -/

theorem Quantity.underscore_notMem (q : Quantity) : '_' ∉ q.text := by
  intro h
  rcases q.plain _ h with h | h | h <;> exact absurd h (by decide)

/-- **Without a policy** the limit that is still exported, or else the default, is applied. -/
theorem captureBlock_empty (call : Call) (cpuLimit : Option Text) :
    captureBlock call ⟨.empty, cpuLimit⟩ =
      substitute call.node call.arm (call.template.manifest.withLimit
        (some ((cpuLimit.filter fun limit => limit ≠ []).getD defaultLimitedCpu))).text :=
  congrArg (substitute call.node call.arm) (renderCpuLimitPolicy_template call.template false _)

/-- A manifest with limits is not the one without. -/
theorem substitute_limits_ne {node arm limit : Text} {containers : List Container} {tail : Text}
    (hlines : ∀ c ∈ containers, IsLines c.lead) (hne : containers ≠ []) :
    substitute node arm ((⟨containers, tail⟩ : Manifest).withLimit (some limit)).text ≠
      (((⟨containers, tail⟩ : Manifest).withLimit none).mapText (substitute node arm)).text := by
  cases containers with
  | nil => exact absurd rfl hne
  | cons c containers =>
    rw [List.forall_mem_cons] at hlines
    show substitute node arm (⟨{ c with limit := some limit } :: _, tail⟩ : Manifest).text ≠
      (⟨{ c with lead := substitute node arm c.lead, limit := none } :: _, _⟩ : Manifest).text
    have hhead : ∀ rest, substitute node arm (limitsText (some limit) ++ rest) =
        limitsHead ++ substitute node arm (limit ++ quoteEnd ++ rest) := fun rest => by
      rw [limitsText, List.append_assoc, substitute_append_of_notMem (by decide)]
    rw [text_cons, text_cons, substitute_append_lines hlines.1,
      substitute_append_of_notMem (underscore_notMem_requestsText _)]
    intro h
    have hlimits := (hhead _).symm.trans (List.append_cancel_left (List.append_cancel_left h))
    -- behind `limits:` a line ends, or there is a space
    have hchar : some '\n' = some ' ' := congrArg (fun t : Text => t[15]?) hlimits
    exact absurd hchar (by decide)

theorem substitute_noContainers {node arm : Text} {m : Manifest} (h : m.containers = [])
    (limit : Option Text) : substitute node arm (m.withLimit limit).text =
      ((m.withLimit none).mapText (substitute node arm)).text := by
  obtain ⟨_, tail⟩ := m
  obtain rfl := h
  rfl

/-- One call. -/
theorem captureBlock_eq_intended {call : Call} {cpuLimit : Option Text} {shell : Shell}
    (h : export? call cpuLimit = some shell) :
    captureBlock call shell = intended call ↔
      (call.policy = .empty → call.template.manifest.containers = []) := by
  obtain ⟨arm, node, policy, template, frozen⟩ := call
  cases policy with
  | empty =>
    obtain rfl := Option.some.inj h
    rw [captureBlock_empty]
    refine ⟨fun heq _ => ?_, fun hnil => ?_⟩
    · by_contra hne
      exact substitute_limits_ne template.lines hne heq
    · exact substitute_noContainers (hnil rfl) _
  | unlimited =>
    obtain rfl := Option.some.inj h
    refine iff_of_true ?_ fun h => nomatch h
    exact (congrArg (substitute node arm) (renderCpuLimitPolicy_template template true _)).trans
      (substitute_text template.lines fun _ h => nomatch h)
  | limited =>
    obtain ⟨quota, rfl, rfl⟩ := Option.map_eq_some_iff.1 h
    refine iff_of_true ?_ fun h => nomatch h
    have hlimit : (some quota.text).filter (fun limit => decide (limit ≠ [])) = some quota.text :=
      if_pos (decide_eq_true quota.ne_nil)
    refine (congrArg (substitute node arm)
      (renderCpuLimitPolicy_template template false _)).trans ?_
    rw [hlimit]
    refine substitute_text template.lines fun t ht => ?_
    obtain rfl := Option.some.inj ht
    exact quota.underscore_notMem

theorem export?_eq_none {call : Call} {cpuLimit : Option Text} :
    export? call cpuLimit = none ↔ (call.policy = .limited && call.frozen.isNone) = true := by
  obtain ⟨arm, node, policy, template, frozen⟩ := call
  cases policy <;> cases frozen <;> simp [export?]

/-- **The limits of a run**: whatever the order of the calls and the limit exported before them,
every manifest that is applied has the limits of its policy exactly when no call without a policy
has a container. -/
theorem runBlocks_iff (calls : List Call) (cpuLimit : Option Text) :
    (∀ p ∈ runBlocks calls cpuLimit, p.2 = intended p.1) ↔
      ∀ call ∈ reached calls, call.policy = .empty → call.template.manifest.containers = [] := by
  induction calls generalizing cpuLimit with
  | nil => exact iff_of_true (fun _ h => nomatch h) fun _ h => nomatch h
  | cons call calls ih =>
    cases hexport : export? call cpuLimit with
    | none =>
      rw [runBlocks, hexport, reached, List.takeWhile_cons, export?_eq_none.1 hexport]
      exact iff_of_true (fun _ h => nomatch h) fun _ h => nomatch h
    | some shell =>
      have hreached : (!(call.policy = .limited && call.frozen.isNone)) = true := by
        rw [Bool.not_eq_true', ← Bool.not_eq_true]
        intro h
        have hnone : export? call cpuLimit = none := export?_eq_none.2 h
        rw [hexport] at hnone
        cases hnone
      rw [runBlocks, hexport, reached, List.takeWhile_cons, hreached, if_pos rfl]
      dsimp only
      rw [List.forall_mem_cons, List.forall_mem_cons]
      exact and_congr (captureBlock_eq_intended hexport) (ih shell.cpuLimit)

/-! ### A call without a policy behind a limited one -/

section Leftover

/-- A quantity whose characters are checked. -/
def quantity (text : Text) (hne : text ≠ [])
    (hplain : (text.all fun c => c.isDigit || c == '.' || c == 'm') = true) : Quantity where
  text := text
  ne_nil := hne
  plain c hc := by
    have hc := List.all_eq_true.1 hplain c hc
    simp only [Bool.or_eq_true, beq_iff_eq, or_assoc] at hc
    exact hc

/-- A quota of 1500m. -/
def quota1500m : Quantity := quantity "1500m".toList (by decide) (by decide)

/-- A workload with one container. -/
def oneContainer : Template where
  manifest :=
    ⟨[⟨"    - name: nginx\n".toList, quantity "500m".toList (by decide) (by decide),
      some marker⟩], []⟩
  marked := by simp
  lines := by
    intro c hc
    obtain rfl := List.mem_singleton.1 hc
    exact ⟨"    - name: nginx".toList, rfl⟩
  free := by
    intro c hc
    obtain rfl := List.mem_singleton.1 hc
    exact ⟨by decide, by decide⟩
  free_tail := ⟨by decide, by decide⟩

/-- A call with the limited policy and a quota of its own. -/
def limitedCall : Call := ⟨"baseline".toList, "worker".toList, .limited, oneContainer, quota1500m⟩

/-- A call without a policy. -/
def schedulerCall : Call := { limitedCall with policy := .empty }

/-- The quota of the limited call is the limit of the call without a policy. -/
theorem runBlocks_leftover : ¬ ∀ p ∈ runBlocks [limitedCall, schedulerCall] none,
    p.2 = intended p.1 := by
  decide +kernel

end Leftover

end CpuPolicy

end LinuxSched
