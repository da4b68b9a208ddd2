import K8Labs.HostAgent.Address
import K8Labs.Python.Find
import K8Labs.Python.Text

/-!
# The managed block of the CoreDNS Corefile

`corefile_with_host_endpoint` of `scripts/bootstrap_management.py`: the lines from the first start
marker to the first end marker are replaced by a block with the address, and a text without markers
gets the block behind the opening of its `.:53` server.  A text that maps the name to the address
itself is left alone.

* `applied_again` : the last address wins, and the same address again changes nothing.
* `managed_spec` : **the text outside the block is kept, and exactly one block with the address is
  there afterwards**, except in a text that maps the name itself.

Two kinds of texts are left out: one with markers behind its first block, which stay there, and one
that ends right behind the opening of its server, where the block gets no line end.
-/

namespace Management

open HostAgent (IPv4 Ipv6 ipAddress)
open Py (Exc isSpace find linesBefore linesBehind AtLineStart)

/-! ### Corefiles -/

/-- A text, as its characters. -/
abbrev Text := List Char

/-- `HOST_ENDPOINT_NAME`. -/
def hostEndpointName : String := "host.containers.internal"

/-- `HOST_ENDPOINT_START`. -/
def hostEndpointStart : Text := "# BEGIN k8labs host API endpoint".toList

/-- `HOST_ENDPOINT_END`. -/
def hostEndpointEnd : Text := "# END k8labs host API endpoint".toList

/-- `raise SystemExit(message)`. -/
def systemExit {α : Type} (message : String) : Except Exc α := .error ⟨.systemExit, message⟩

/-- The address that the block is made for. -/
def endpointAddress (ipv6 : Ipv6) (hostAddress : String) : Except Exc IPv4 :=
  let refused := systemExit ("ERROR: unsafe host endpoint address " ++ Py.quoted hostAddress)
  match ipAddress ipv6 (.str hostAddress) with
  | .error _ => systemExit ("ERROR: invalid host endpoint address " ++ Py.quoted hostAddress)
  | .ok (.v6 _) => refused
  | .ok (.v4 a) => if a.isUnspecified ∨ a.isLoopback ∨ a.isMulticast then refused else .ok a

/-- The lines of the block before that of its end marker. -/
def blockLines (a : IPv4) : Text :=
  hostEndpointStart ++ '\n' :: ("    hosts \x7b".toList ++ '\n' ::
    (("        ".toList ++ a.text.toList ++ ' ' :: hostEndpointName.toList) ++ '\n' ::
      ("        fallthrough".toList ++ '\n' :: "    \x7d".toList)))

/-- The managed block. -/
def block (a : IPv4) : Text := blockLines a ++ '\n' :: ("    ".toList ++ hostEndpointEnd)

/-- The words of a line before a comment. -/
def fields (line : String) : List String :=
  Py.splitWords (String.ofList (line.toList.takeWhile (· ≠ '#')))

/-- The first address that a line maps the name to. -/
def mappedAddress (corefile : Text) : Option String :=
  (Py.splitLines (String.ofList corefile)).findSome? fun line =>
    match fields line with
    | first :: names => if hostEndpointName ∈ names then some first else none
    | [] => none

/-- What follows a newline of the text. -/
def laterLines : Text → List Text
  | [] => []
  | c :: cs => if c = '\n' then cs :: laterLines cs else laterLines cs

/-- The places where `(?m)^` holds, each as the text behind it. -/
def lineStarts (corefile : Text) : List Text := corefile :: laterLines corefile

/-- `re.search(r"(?m)^\s*hosts(?:\s|\{)", corefile)`. -/
def hostsPlugin (corefile : Text) : Bool :=
  (lineStarts corefile).any fun text =>
    match "hosts".toList.isPrefixOf? (text.dropWhile isSpace) with
    | some (c :: _) => isSpace c || c == '{'
    | _ => false

/-- `\s*$`: white space as far as an end of a line stands behind it.  As many characters as possible
are taken, newlines among them. -/
def afterSpaces : Text → Option Text
  | [] => some []
  | c :: cs =>
    if isSpace c then (afterSpaces cs).or (if c = '\n' then some (c :: cs) else none) else none

/-- `(\s*\.\:53\s*\{)\s*$`, with what is left behind it. -/
def afterOpening (text : Text) : Option Text :=
  match ".:53".toList.isPrefixOf? (text.dropWhile isSpace) with
  | some rest =>
    match rest.dropWhile isSpace with
    | '{' :: rest => afterSpaces rest
    | _ => none
  | none => none

/-- `re.search(r"(?m)^(\s*\.\:53\s*\{)\s*$", corefile)`, with what is left behind it. -/
def rootServer (corefile : Text) : Option Text := (lineStarts corefile).findSome? afterOpening

/-- `corefile_with_host_endpoint` for an address that is safe. -/
def withBlock (corefile : Text) (a : IPv4) : Except Exc Text :=
  match find hostEndpointStart corefile, find hostEndpointEnd corefile with
  | some start, some stop =>
    if stop < start then
      systemExit "ERROR: malformed managed host endpoint block in CoreDNS Corefile"
    else .ok (linesBefore corefile start ++ (block a ++ '\n' :: linesBehind corefile stop))
  | none, none =>
    match mappedAddress corefile with
    | some address =>
      if address = a.text then .ok corefile
      else systemExit ("ERROR: conflicting unmanaged " ++ hostEndpointName ++
        " mapping in CoreDNS Corefile")
    | none =>
      if hostsPlugin corefile then
        systemExit "ERROR: unmanaged hosts plugin in CoreDNS Corefile"
      else
        match rootServer corefile with
        | none => systemExit "ERROR: unable to locate the CoreDNS .:53 server block"
        | some rest =>
          .ok (corefile.take (corefile.length - rest.length) ++ '\n' :: (block a ++ rest))
  | _, _ => systemExit "ERROR: malformed managed host endpoint block in CoreDNS Corefile"

/-- `corefile_with_host_endpoint`. -/
def corefileWithHostEndpoint (ipv6 : Ipv6) (corefile : Text) (hostAddress : String) :
    Except Exc Text := do
  withBlock corefile (← endpointAddress ipv6 hostAddress)

/-! ### The markers -/

variable {ipv6 : Ipv6} {corefile updated before behind text rest : Text} {a b : IPv4}

theorem newline_notMem_start : '\n' ∉ hostEndpointStart := by decide

theorem newline_notMem_end : '\n' ∉ hostEndpointEnd := by decide

/-- The text has neither marker. -/
def Unmarked (text : Text) : Prop := ¬ hostEndpointStart <:+: text ∧ ¬ hostEndpointEnd <:+: text

theorem unmarked_iff_find : Unmarked text ↔
    find hostEndpointStart text = none ∧ find hostEndpointEnd text = none := by
  rw [Unmarked, Py.find_eq_none_iff, Py.find_eq_none_iff]

theorem unmarked_append_newline : Unmarked (before ++ '\n' :: behind) ↔
    Unmarked before ∧ Unmarked behind := by
  simp only [Unmarked, Py.infix_append_cons_iff newline_notMem_start,
    Py.infix_append_cons_iff newline_notMem_end, not_or, and_and_and_comm]

/-- A text without the first character of the markers. -/
theorem unmarked_of_notMem (h : '#' ∉ text) : Unmarked text :=
  ⟨fun hin => h (hin.subset (by decide)), fun hin => h (hin.subset (by decide))⟩

/-- No line of the block before the last has the end marker. -/
theorem end_notInfix_blockLines (a : IPv4) : ¬ hostEndpointEnd <:+: blockLines a := by
  have haddress : '#' ∉ "        ".toList ++ a.text.toList ++ ' ' :: hostEndpointName.toList := by
    simp only [List.mem_append, not_or]
    exact ⟨⟨by decide, IPv4.notMem_text (by decide)⟩, by decide⟩
  have hlines : Unmarked ("    hosts \x7b".toList ++ '\n' ::
      (("        ".toList ++ a.text.toList ++ ' ' :: hostEndpointName.toList) ++ '\n' ::
        ("        fallthrough".toList ++ '\n' :: "    \x7d".toList))) := by
    simp only [unmarked_append_newline]
    exact ⟨unmarked_of_notMem (by decide), unmarked_of_notMem haddress,
      unmarked_of_notMem (by decide), unmarked_of_notMem (by decide)⟩
  rw [blockLines, Py.infix_append_cons_iff newline_notMem_end, not_or]
  exact ⟨by decide, hlines.2⟩

theorem find_start_block (hbefore : AtLineStart before) (hunmarked : Unmarked before)
    (a : IPv4) (rest : Text) :
    find hostEndpointStart (before ++ (block a ++ rest)) = some before.length := by
  rw [hbefore.find_append newline_notMem_start hunmarked.1, block, blockLines, List.append_assoc,
    List.append_assoc, Py.find_append_self (by decide)]
  simp

theorem find_end_block (hbefore : AtLineStart before) (hunmarked : Unmarked before)
    (a : IPv4) (rest : Text) :
    find hostEndpointEnd (before ++ (block a ++ rest)) =
      some (before ++ (blockLines a ++ '\n' :: "    ".toList)).length := by
  have hlines : ¬ hostEndpointEnd <:+: before ++ blockLines a := by
    rw [hbefore.infix_append_iff newline_notMem_end, not_or]
    exact ⟨hunmarked.2, end_notInfix_blockLines a⟩
  have htext : before ++ (block a ++ rest) =
      (before ++ blockLines a) ++ '\n' :: ("    ".toList ++ (hostEndpointEnd ++ rest)) := by
    simp [block]
  have hspaces : find hostEndpointEnd ("    ".toList ++ (hostEndpointEnd ++ rest)) = some 4 := by
    obtain ⟨marker, hmarker⟩ : ∃ marker, hostEndpointEnd = '#' :: marker := ⟨_, rfl⟩
    have hnone : '#' ∉ "    ".toList := by decide
    rw [hmarker, Py.find_append_of_forall fun _ hi => Py.not_prefix_drop_of_notMem hnone hi,
      Py.find_append_self (List.cons_ne_nil _ _)]
    rfl
  rw [htext, Py.find_append_of_notInfix newline_notMem_end hlines, hspaces, Option.map_some]
  simp
  omega

/-- A text with one block in whole lines gets the block of the other address there. -/
theorem withBlock_block (hbefore : AtLineStart before) (hunmarked : Unmarked before)
    (a b : IPv4) (behind : Text) :
    withBlock (before ++ (block a ++ '\n' :: behind)) b =
      .ok (before ++ (block b ++ '\n' :: behind)) := by
  have hle : ¬ (before ++ (blockLines a ++ '\n' :: "    ".toList)).length < before.length := by
    rw [List.length_append]
    omega
  have htext : before ++ (block a ++ '\n' :: behind) =
      (before ++ (blockLines a ++ '\n' :: "    ".toList)) ++
        (hostEndpointEnd ++ '\n' :: behind) := by
    simp [block]
  rw [withBlock, find_start_block hbefore hunmarked, find_end_block hbefore hunmarked]
  simp only [hle, if_false, hbefore.linesBefore_append]
  rw [htext, Py.linesBehind_append newline_notMem_end]

/-! ### The opening of the server -/

/-- What stands behind the opening is the end of the text or of a line. -/
theorem afterSpaces_spec (h : afterSpaces text = some rest) :
    rest <:+ text ∧ (rest = [] ∨ ∃ behind, rest = '\n' :: behind) := by
  induction text with
  | nil =>
    cases h
    exact ⟨List.suffix_refl _, .inl rfl⟩
  | cons c cs ih =>
    rw [afterSpaces] at h
    split_ifs at h with hspace hnewline
    · rcases Option.or_eq_some_iff.1 h with hlater | ⟨-, hhere⟩
      · exact ⟨(ih hlater).1.trans (List.suffix_cons c cs), (ih hlater).2⟩
      · cases hhere
        exact ⟨List.suffix_refl _, .inr ⟨cs, by rw [hnewline]⟩⟩
    · rw [Option.or_none] at h
      exact ⟨(ih h).1.trans (List.suffix_cons c cs), (ih h).2⟩

theorem afterOpening_spec (h : afterOpening text = some rest) :
    rest <:+ text ∧ (rest = [] ∨ ∃ behind, rest = '\n' :: behind) := by
  rw [afterOpening] at h
  split at h
  · rename_i server hserver
    split at h
    · rename_i inside hinside
      have hserver := Py.isPrefixOf?_eq_some hserver
      have hbrace : '\x7b' :: inside <:+ server := hinside ▸ List.dropWhile_suffix isSpace
      have hname : server <:+ text.dropWhile isSpace := ⟨_, hserver.symm⟩
      obtain ⟨hspaces, hend⟩ := afterSpaces_spec h
      exact ⟨hspaces.trans ((List.suffix_cons _ _).trans (hbrace.trans
        (hname.trans (List.dropWhile_suffix isSpace)))), hend⟩
    · cases h
  · cases h

theorem suffix_of_mem_laterLines (h : rest ∈ laterLines text) : rest <:+ text := by
  induction text with
  | nil => cases h
  | cons c cs ih =>
    rw [laterLines] at h
    split_ifs at h
    · rcases List.mem_cons.1 h with rfl | h
      · exact List.suffix_cons c _
      · exact (ih h).trans (List.suffix_cons c cs)
    · exact (ih h).trans (List.suffix_cons c cs)

/-- The text is cut behind the opening: what is behind it is nothing or begins with a newline. -/
theorem rootServer_spec (h : rootServer corefile = some rest) :
    corefile = corefile.take (corefile.length - rest.length) ++ rest ∧
      (rest = [] ∨ ∃ behind, rest = '\n' :: behind) := by
  obtain ⟨text, hmem, hopening⟩ := List.exists_of_findSome?_eq_some h
  obtain ⟨hsuffix, hend⟩ := afterOpening_spec hopening
  have htext : text <:+ corefile := by
    rcases List.mem_cons.1 hmem with rfl | hmem
    · exact List.suffix_refl _
    · exact suffix_of_mem_laterLines hmem
  exact ⟨(List.suffix_iff_eq_append.1 (hsuffix.trans htext)).symm, hend⟩

/-! ### What is made of a text -/

/-- The text has markers, and the first end marker is not before the first start marker. -/
structure Marked (corefile before behind : Text) : Prop where
  places : ∃ start stop, find hostEndpointStart corefile = some start ∧
    find hostEndpointEnd corefile = some stop ∧ start ≤ stop ∧
    before = linesBefore corefile start ∧ behind = linesBehind corefile stop

theorem Marked.not_unmarked (h : Marked corefile before behind) : ¬ Unmarked corefile := by
  obtain ⟨start, stop, hstart, -⟩ := h.places
  rw [unmarked_iff_find, hstart]
  simp

theorem Marked.atLineStart (h : Marked corefile before behind) : AtLineStart before := by
  obtain ⟨start, stop, -, -, -, rfl, -⟩ := h.places
  exact Py.atLineStart_linesBefore

/-- Before the first start marker there is no marker. -/
theorem Marked.unmarked_before (h : Marked corefile before behind) : Unmarked before := by
  obtain ⟨start, stop, hstart, hstop, hle, rfl, -⟩ := h.places
  have htake : corefile.take start <+: corefile.take stop := List.take_prefix_take_left hle
  have hstart := Py.notInfix_take_of_find (by decide) hstart
  have hstop := Py.notInfix_take_of_find (by decide) hstop
  exact ⟨fun hin => hstart (hin.trans Py.linesBefore_prefix.isInfix),
    fun hin => hstop (hin.trans (Py.linesBefore_prefix.trans htake).isInfix)⟩

theorem withBlock_of_marked (h : Marked corefile before behind) (a : IPv4) :
    withBlock corefile a = .ok (before ++ (block a ++ '\n' :: behind)) := by
  obtain ⟨start, stop, hstart, hstop, hle, rfl, rfl⟩ := h.places
  simp [withBlock, hstart, hstop, Nat.not_lt.2 hle]

/-- The text has no markers and maps the name to an address. -/
def Unmanaged (corefile : Text) : Prop :=
  Unmarked corefile ∧ ∃ address, mappedAddress corefile = some address

/-- The text gets the block behind the opening of its server, where `rest` stands. -/
structure Opened (corefile before rest : Text) : Prop where
  unmarked : Unmarked corefile
  unmapped : mappedAddress corefile = none
  noPlugin : hostsPlugin corefile = false
  opening : rootServer corefile = some rest
  before_eq : before = corefile.take (corefile.length - rest.length)

theorem Opened.text_eq (h : Opened corefile before rest) : corefile = before ++ rest := by
  rw [h.before_eq]
  exact (rootServer_spec h.opening).1

theorem withBlock_of_opened (h : Opened corefile before rest) (a : IPv4) :
    withBlock corefile a = .ok (before ++ '\n' :: (block a ++ rest)) := by
  obtain ⟨hstart, hend⟩ := unmarked_iff_find.1 h.unmarked
  simp [withBlock, hstart, hend, h.unmapped, h.noPlugin, h.opening, h.before_eq]

/-- The three ways in which a text is accepted. -/
theorem withBlock_eq_ok (h : withBlock corefile a = .ok updated) :
    (∃ before behind, Marked corefile before behind) ∨
      Unmarked corefile ∧ mappedAddress corefile = some a.text ∧ updated = corefile ∨
      ∃ before rest, Opened corefile before rest := by
  rw [withBlock] at h
  split at h
  · rename_i start stop hstart hstop
    obtain ⟨hle, -⟩ := Py.ite_error_eq_ok.1 h
    exact .inl ⟨_, _, start, stop, hstart, hstop, Nat.not_lt.1 hle, rfl, rfl⟩
  · rename_i hstart hstop
    have hunmarked := unmarked_iff_find.2 ⟨hstart, hstop⟩
    split at h
    · rename_i address hmapped
      split_ifs at h with hsame
      · cases h
        exact .inr (.inl ⟨hunmarked, hsame ▸ hmapped, rfl⟩)
      · cases h
    · rename_i hmapped
      obtain ⟨hplugin, h⟩ := Py.ite_error_eq_ok.1 h
      split at h
      · cases h
      · rename_i rest hopening
        exact .inr (.inr ⟨_, rest, hunmarked, hmapped, by simpa using hplugin, hopening, rfl⟩)
  · cases h

/-- The text without the lines of its first block. -/
def outside (corefile : Text) : Text :=
  match find hostEndpointStart corefile, find hostEndpointEnd corefile with
  | some start, some stop => linesBefore corefile start ++ linesBehind corefile stop
  | _, _ => corefile

theorem outside_of_marked (h : Marked corefile before behind) :
    outside corefile = before ++ behind := by
  obtain ⟨start, stop, hstart, hstop, -, rfl, rfl⟩ := h.places
  rw [outside, hstart, hstop]

theorem outside_of_unmarked (h : Unmarked corefile) : outside corefile = corefile := by
  rw [outside, (unmarked_iff_find.1 h).1]

/-- A marker stands behind the lines of the first block. -/
def Repeated (corefile : Text) : Prop :=
  ∃ before behind, Marked corefile before behind ∧ ¬ Unmarked behind

/-- The text gets its first block, and it ends right behind the opening of its server. -/
def EndsAtOpening (corefile : Text) : Prop := ∃ before, Opened corefile before []

/-- **What is made of a text that does not map the name itself.**  The block stands in whole lines,
and what is outside of it is what was outside before. -/
theorem withBlock_spec (h : withBlock corefile a = .ok updated) (hmanaged : ¬ Unmanaged corefile)
    (hopening : ¬ EndsAtOpening corefile) :
    ∃ before behind, updated = before ++ (block a ++ '\n' :: behind) ∧
      outside corefile = before ++ behind ∧ AtLineStart before ∧ Unmarked before ∧
      (¬ Repeated corefile → Unmarked behind) ∧
      ∀ b, withBlock corefile b = .ok (before ++ (block b ++ '\n' :: behind)) := by
  rcases withBlock_eq_ok h with ⟨before, behind, hmarked⟩ | ⟨hunmarked, hmapped, -⟩ |
    ⟨before, rest, hopened⟩
  · rw [withBlock_of_marked hmarked] at h
    cases h
    refine ⟨before, behind, rfl, outside_of_marked hmarked, hmarked.atLineStart,
      hmarked.unmarked_before, fun hnot => ?_, withBlock_of_marked hmarked⟩
    by_contra hbehind
    exact hnot ⟨before, behind, hmarked, hbehind⟩
  · exact absurd ⟨hunmarked, _, hmapped⟩ hmanaged
  · rw [withBlock_of_opened hopened] at h
    cases h
    obtain rfl | ⟨behind, rfl⟩ := (rootServer_spec hopened.opening).2
    · exact absurd ⟨before, hopened⟩ hopening
    · -- the newline that ends the line of the opening stands behind the block afterwards
      have htext := hopened.text_eq
      have hunmarked := hopened.unmarked
      rw [htext, unmarked_append_newline] at hunmarked
      have hline : Unmarked (before ++ ['\n']) :=
        unmarked_append_newline.2 ⟨hunmarked.1, unmarked_of_notMem List.not_mem_nil⟩
      refine ⟨before ++ ['\n'], behind, by simp, ?_, .append_newline before, hline,
        fun _ => hunmarked.2, fun b => ?_⟩
      · rw [outside_of_unmarked hopened.unmarked, htext]
        simp
      · rw [withBlock_of_opened hopened]
        simp

theorem withBlock_of_unmanaged (h : withBlock corefile a = .ok updated)
    (hmanaged : Unmanaged corefile) : updated = corefile := by
  rcases withBlock_eq_ok h with ⟨_, _, hmarked⟩ | ⟨-, -, rfl⟩ | ⟨_, _, hopened⟩
  · exact absurd hmanaged.1 hmarked.not_unmarked
  · rfl
  · obtain ⟨address, haddress⟩ := hmanaged.2
    rw [hopened.unmapped] at haddress
    cases haddress

/-- The last address wins. -/
theorem withBlock_again (h : withBlock corefile a = .ok updated)
    (hopening : ¬ EndsAtOpening corefile) (b : IPv4) :
    withBlock updated b = withBlock corefile b := by
  by_cases hmanaged : Unmanaged corefile
  · rw [withBlock_of_unmanaged h hmanaged]
  · obtain ⟨before, behind, rfl, -, hline, hunmarked, -, hall⟩ :=
      withBlock_spec h hmanaged hopening
    rw [withBlock_block hline hunmarked, hall]

/-! ### The function -/

theorem corefileWithHostEndpoint_eq_ok {hostAddress : String} :
    corefileWithHostEndpoint ipv6 corefile hostAddress = .ok updated ↔
      ∃ a, endpointAddress ipv6 hostAddress = .ok a ∧ withBlock corefile a = .ok updated :=
  Py.bind_eq_ok

/-- **The block is managed.**  A text that maps the name itself is left alone.  Any other one that
does not end right behind the opening of its server gets one block in whole lines, in the place of
the block that it had, with the address, and nothing else of it changes; markers behind the first
block stay.  The same address again changes nothing, and of two addresses the last one wins. -/
theorem corefileWithHostEndpoint_spec {hostAddress : String}
    (h : corefileWithHostEndpoint ipv6 corefile hostAddress = .ok updated) :
    (Unmanaged corefile → updated = corefile) ∧
    (¬ EndsAtOpening corefile →
      corefileWithHostEndpoint ipv6 updated hostAddress = .ok updated ∧
      (∀ other, corefileWithHostEndpoint ipv6 updated other =
        corefileWithHostEndpoint ipv6 corefile other) ∧
      (¬ Unmanaged corefile → ∃ a before behind,
        endpointAddress ipv6 hostAddress = .ok a ∧
        updated = before ++ (block a ++ '\n' :: behind) ∧ outside corefile = before ++ behind ∧
        AtLineStart before ∧ Unmarked before ∧ (¬ Repeated corefile → Unmarked behind))) := by
  obtain ⟨a, ha, hblock⟩ := corefileWithHostEndpoint_eq_ok.1 h
  refine ⟨withBlock_of_unmanaged hblock, fun hopening => ?_⟩
  have hagain : ∀ other, corefileWithHostEndpoint ipv6 updated other =
      corefileWithHostEndpoint ipv6 corefile other := by
    intro other
    rw [corefileWithHostEndpoint, corefileWithHostEndpoint]
    exact congrArg _ (funext (withBlock_again hblock hopening))
  refine ⟨(hagain hostAddress).trans h, hagain, fun hmanaged => ?_⟩
  obtain ⟨before, behind, heq, houtside, hline, hunmarked, hbehind, -⟩ :=
    withBlock_spec hblock hmanaged hopening
  exact ⟨a, before, behind, ha, heq, houtside, hline, hunmarked, hbehind⟩

/-- A text without a mapping gets its block. -/
def sampleCorefile : Text := ".:53 \x7b\n    errors\n\x7d\n".toList

theorem sampleCorefile_managed :
    ∃ updated, corefileWithHostEndpoint .absent sampleCorefile "169.254.1.2" = .ok updated ∧
      corefileWithHostEndpoint .absent updated "169.254.1.2" = .ok updated ∧
      (∀ other, corefileWithHostEndpoint .absent updated other =
        corefileWithHostEndpoint .absent sampleCorefile other) ∧
      ∃ a before behind, endpointAddress .absent "169.254.1.2" = .ok a ∧
        updated = before ++ (block a ++ '\n' :: behind) ∧
        outside sampleCorefile = before ++ behind ∧ AtLineStart before ∧ Unmarked before ∧
        Unmarked behind := by
  obtain ⟨updated, hupdated, -⟩ := Py.okAnd_eq_true.1 (show Py.okAnd
    (corefileWithHostEndpoint .absent sampleCorefile "169.254.1.2") (fun _ => true) = true by
      decide +kernel)
  have hunmarked : find hostEndpointStart sampleCorefile = none ∧
      mappedAddress sampleCorefile = none ∧ rootServer sampleCorefile ≠ some [] := by
    decide +kernel
  obtain ⟨hstart, hmapped, hserver⟩ := hunmarked
  obtain ⟨-, hspec⟩ := corefileWithHostEndpoint_spec hupdated
  obtain ⟨hagain, hlast, hblock⟩ := hspec fun ⟨_, hopened⟩ => hserver hopened.opening
  obtain ⟨a, before, behind, ha, heq, houtside, hline, hbefore, hbehind⟩ :=
    hblock fun ⟨_, address, haddress⟩ => by
      rw [hmapped] at haddress
      cases haddress
  refine ⟨updated, hupdated, hagain, hlast, a, before, behind, ha, heq, houtside, hline, hbefore,
    hbehind ?_⟩
  rintro ⟨_, _, ⟨⟨start, _, hfound, -⟩⟩, -⟩
  rw [hstart] at hfound
  cases hfound

/-- A text that maps the name to the address itself. -/
def unmanagedCorefile : Text :=
  ".:53 \x7b\n hosts \x7b\n 169.254.1.2 host.containers.internal\n \x7d\n\x7d\n".toList

/-- A text that maps the name itself is accepted and gets no block. -/
theorem unmanaged_unchanged :
    ¬ ∀ ipv6 corefile hostAddress updated,
      corefileWithHostEndpoint ipv6 corefile hostAddress = .ok updated →
      corefileWithHostEndpoint ipv6 updated hostAddress = .ok updated ∧
      (∀ other, corefileWithHostEndpoint ipv6 updated other =
        corefileWithHostEndpoint ipv6 corefile other) ∧
      ∃ a before behind, endpointAddress ipv6 hostAddress = .ok a ∧
        updated = before ++ (block a ++ '\n' :: behind) ∧ outside corefile = before ++ behind ∧
        AtLineStart before ∧ Unmarked before ∧ Unmarked behind := by
  intro hall
  have hsame : corefileWithHostEndpoint .absent unmanagedCorefile "169.254.1.2" =
      .ok unmanagedCorefile := by
    decide +kernel
  have hunmarked : find hostEndpointStart unmanagedCorefile = none := by decide +kernel
  obtain ⟨-, -, a, before, behind, -, heq, -⟩ := hall _ _ _ _ hsame
  refine Py.find_eq_none_iff.1 hunmarked ?_
  rw [heq, block, blockLines]
  exact ⟨before, _, by simp only [List.append_assoc]; rfl⟩

end Management
