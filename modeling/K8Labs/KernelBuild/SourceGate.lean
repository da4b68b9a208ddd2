import K8Labs.Python.Dict
import K8Labs.Python.Document
import K8Labs.Python.FileSystem
import Mathlib.Data.List.Nodup

/-!
# The kernel source gate

`check` of `scripts/kernel_source_gate.py` compares a kernel tree with a pinned file: the commit of
the tree, and the interfaces that its files must have.  What the file does not give is filled in from
embedded pins, key by key, and several keys are names for one thing.  The interfaces of the tree are
looked for by `inspect_source`, which loads the pins of the repository instead of the file.

`follows_iff` is the result: **the gate follows its file on every tree if and only if no name of the
commit that the file leaves out is read before the one it gives, but for the embedded commit, and the
pins of the repository ask the same interfaces of every tree.**
-/

namespace KernelBuild

namespace SourceGate

open Py (Value Items Scalar Exc Path FileSystem)

/-! ### Interfaces -/

/-- An interface that a kernel tree must have. -/
structure Interface where
  id : String
  name : String
  description : String
  file : String
  path : String
  pattern : String
  symbol : String

/-- The dictionary of an interface. -/
def Interface.items (i : Interface) : Items :=
  [(.str "id", .str i.id), (.str "name", .str i.name), (.str "description", .str i.description),
    (.str "file", .str i.file), (.str "path", .str i.path), (.str "pattern", .str i.pattern),
    (.str "symbol", .str i.symbol)]

/-- `PINNED_COMMIT`. -/
def pinnedCommit : String := "2efb7a11f1aa4d2dc285fe2680cca22cb9f72f64"

/-- `PINNED_TAG`. -/
def pinnedTag : String := "next-20261016"

/-- `PINNED_DATE`. -/
def pinnedDate : String := "2026-10-16"

/-- `UPSTREAM_REPO`. -/
def upstreamRepo : String := "https://git.kernel.org/pub/scm/linux/kernel/git/next/linux-next.git"

/-- `REQUIRED_INTERFACES`. -/
def requiredInterfaces : List Interface :=
  [{ id := "bpf_f_arena_scalar"
     name := "bpf_f_arena_scalar"
     description := "BPF_F_ARENA_SCALAR prog-flag definition"
     file := "include/uapi/linux/bpf.h"
     path := "include/uapi/linux/bpf.h"
     pattern := "#define\\s+BPF_F_ARENA_SCALAR\\b"
     symbol := "BPF_F_ARENA_SCALAR" },
    { id := "bpf_jit_supports_arena_scalar_x86"
      name := "bpf_jit_supports_arena_scalar_x86"
      description := "x86 JIT support for arena scalar"
      file := "arch/x86/net/bpf_jit_comp.c"
      path := "arch/x86/net/bpf_jit_comp.c"
      pattern := "bpf_jit_supports_arena_scalar"
      symbol := "bpf_jit_supports_arena_scalar" },
    { id := "sched_ext_ops_sub_cid_sched_updated"
      name := "sched_ext_ops_sub_cid_sched_updated"
      description := "sched_ext_ops.sub_cid_sched_updated() callback"
      file := "kernel/sched/ext/internal.h"
      path := "kernel/sched/ext/internal.h"
      pattern := "sub_cid_sched_updated"
      symbol := "sub_cid_sched_updated" }]

/-- The dictionaries of `REQUIRED_INTERFACES`. -/
def requiredEntries : Value := .list (requiredInterfaces.map fun i => .dict i.items)

/-- The characters that make a pattern a regular expression. -/
def patternChars : List Char :=
  ['.', '*', '+', '?', '[', ']', '(', ')', '\x7b', '\x7d', '\\', '|', '^', '$']

/-- The other characters that `re.escape` escapes. -/
def escapedChars : List Char := ['-', '&', '~', '#', ' ', '\t', '\n', '\r', '\x0b', '\x0c']

/-- `re.escape`. -/
def reEscape (s : String) : String :=
  String.ofList (s.toList.flatMap fun c =>
    if c ∈ patternChars ∨ c ∈ escapedChars then ['\\', c] else [c])

/-- `any(ch in pattern for ch in ...)`. -/
def containsAny (v : Value) : List Char → Except Exc Bool
  | [] => .ok false
  | c :: cs => (v.contains c.toString).bind fun found => if found then .ok true else containsAny v cs

/-- The escape of a pattern that is plain text. -/
def escapePlain (pattern : Value) : Except Exc Value :=
  if pattern.truthy then
    (containsAny pattern patternChars).bind fun special =>
      if special then .ok pattern
      else
        match pattern with
        | .scalar (.str s) => .ok (.str (reEscape s))
        | _ => Py.typeError "decoding to str: need a bytes-like object"
  else .ok pattern

/-- The first of some values that is true, otherwise the empty string. -/
def firstTrue (entry : Items) (keys : List String) : Value :=
  ((keys.map entry.get).find? Value.truthy).getD (.str "")

/-- `_normalise_interface`. -/
def normaliseInterface (entry : Value) : Except Exc Interface :=
  let entry := entry.asDict.getD []
  let filePath := firstTrue entry ["file", "path", "source_file", "location"]
  let identifier := (firstTrue entry ["id", "name", "interface", "symbol"]).orElse filePath
  (escapePlain (firstTrue entry ["pattern", "symbol", "regex", "match"])).map fun pattern =>
    { id := identifier.text
      name := identifier.text
      description := (firstTrue entry ["description", "desc"]).text
      file := filePath.text
      path := filePath.text
      pattern := pattern.text
      symbol := (firstTrue entry ["symbol", "id", "name"]).text }

/-! ### Pins -/

/-- The names of the commit. -/
def commitKeys : List String :=
  ["pinned_commit", "commit", "kernel_commit", "linux_next_commit", "source_commit", "revision"]

/-- The names of the interfaces. -/
def interfaceKeys : List String := ["required_interfaces", "interfaces", "requirements", "required"]

/-- The commit under a name: a string that is not blank. -/
def commitAt (pinned : Items) (key : String) : Option String :=
  ((pinned.get key).asStr.map Py.strip).filter (· ≠ "")

/-- `_get_commit`. -/
def getCommit (pinned : Items) : String := (commitKeys.findSome? (commitAt pinned)).getD ""

/-- The list under the first name that has one. -/
def rawInterfaces (pinned : Items) : Option (List Value) :=
  interfaceKeys.findSome? fun key => (pinned.get key).asList

/-- `_get_interfaces`. -/
def getInterfaces (pinned : Items) : Except Exc (List Interface) :=
  match rawInterfaces pinned with
  | none => .ok requiredInterfaces
  | some raw => (Py.traverse normaliseInterface raw).map fun normalised =>
    if normalised.all fun i => i.file = "" then requiredInterfaces else normalised

/-- The interfaces as the gate reads them: the entries are normalised once more. -/
def requirements (pinned : Items) : Except Exc (List Interface) :=
  (getInterfaces pinned).bind (Py.traverse fun i => normaliseInterface (.dict i.items))

/-- `_embedded_pinned`. -/
def embeddedPinned : Items :=
  [(.str "schema_version", .int 1), (.str "kind", .str "kernel-source-gate"),
    (.str "pinned_commit", .str pinnedCommit), (.str "commit", .str pinnedCommit),
    (.str "kernel_commit", .str pinnedCommit), (.str "linux_next_commit", .str pinnedCommit),
    (.str "source_commit", .str pinnedCommit), (.str "revision", .str pinnedCommit),
    (.str "pinned_tag", .str pinnedTag), (.str "tag", .str pinnedTag),
    (.str "linux_next_tag", .str pinnedTag), (.str "pinned_date", .str pinnedDate),
    (.str "date", .str pinnedDate), (.str "upstream_repo", .str upstreamRepo),
    (.str "repository", .str upstreamRepo), (.str "required_interfaces", requiredEntries),
    (.str "interfaces", requiredEntries), (.str "requirements", requiredEntries)]

/-- `v is not None`. -/
def isGiven : Value → Bool
  | .scalar .none => false
  | _ => true

/-- `d[key] = v`. -/
def assign (d : Items) (item : Scalar × Value) : Items := Py.Dict.update item.1 (fun _ => item.2) d

/-- The embedded pins under those of a document. -/
def merged (data : Items) : Items :=
  let updated := (data.filter fun item => isGiven item.2).foldl assign embeddedPinned
  (["required_interfaces", "interfaces", "requirements"].filter fun key =>
    (data.get key).asList.isSome).foldl (fun d key => assign d (.str key, data.get key)) updated

/-- `load_pinned`, of what its candidates hold: `none` for one that is not read. -/
def loadPinned (documents : List (Option Value)) : Items :=
  match documents.findSome? fun document => document.bind Value.asDict with
  | some data => merged data
  | none => embeddedPinned

/-! ### The gate -/

/-- `missing`, `partial` or `complete`. -/
inductive SourceState where
  | missing
  | partially
  | complete

/-- An entry of `interfaces` of an inspection. -/
structure Detail where
  id : String
  file : String
  present : Bool

/-- What `inspect_source` returns. -/
structure Inspection where
  state : SourceState
  present : List String
  missing : List String
  interfaces : List Detail

/-- A message of the gate. -/
inductive Failure where
  | commitMissing
  | commitLength (commit : String)
  | tagMissing
  | noInterfaces
  | noFile (id : String)
  | noPattern (id : String)
  | rootNotFound (root : Path)
  | missingInterface (id : String)
  | headDiffers (head commit : String)

/-- The text of a message. -/
def Failure.text : Failure → String
  | commitMissing => "pinned kernel source commit is missing"
  | commitLength commit =>
    "pinned kernel source commit is not a 40-char hash: " ++ Py.quoted commit
  | tagMissing => "pinned linux-next tag is missing"
  | noInterfaces => "no required interfaces declared"
  | noFile id => "required interface " ++ id ++ " has no source file"
  | noPattern id => "required interface " ++ id ++ " has no match pattern"
  | rootNotFound root => "kernel source root not found: " ++ root.text
  | missingInterface id => "missing required interface: " ++ id
  | headDiffers head commit => "kernel source HEAD " ++ head ++ " != pinned commit " ++ commit

/-- Where the file of an interface is. -/
def Interface.location (root : Path) (i : Interface) : Path :=
  if i.file = "" then root else if Py.isAbsolute i.file then Py.pathParts i.file else root.join i.file

section Gate

/- `search` is `re.search` of a pattern in the text of a file, and `repository` what the pinned files
of the repository hold. -/
variable (search : String → ByteArray → Bool) (repository : List (Option Value)) (fs : FileSystem)

/-- The file of the interface is there and has its pattern. -/
def found (root : Path) (i : Interface) : Bool :=
  match fs.fileAt (i.location root) with
  | some bytes => search i.pattern bytes
  | none => false

/-- `inspect_source`. -/
def inspectSource : Option Path → Except Exc Inspection
  | none => .ok ⟨.missing, [], [], []⟩
  | some root =>
    if !fs.isDir root then .ok ⟨.missing, [], requiredInterfaces.map Interface.id, []⟩
    else
      (requirements (loadPinned repository)).map fun interfaces =>
        let present := (interfaces.filter fun i => found search fs root i).map Interface.id
        { state :=
            if interfaces = [] ∨ present = [] then .missing
            else if present.length = interfaces.length then .complete
            else .partially
          present := present
          missing := (interfaces.filter fun i => !found search fs root i).map Interface.id
          interfaces := interfaces.map fun i => ⟨i.id, i.file, found search fs root i⟩ }

/-- The messages about the pins themselves. -/
def pinFailures (pinned : Items) (interfaces : List Interface) : List Failure :=
  let commit := getCommit pinned
  (if commit = "" then [Failure.commitMissing]
    else if commit.length ≠ 40 then [Failure.commitLength commit] else []) ++
  (if (firstTrue pinned ["pinned_tag", "tag", "linux_next_tag"]).truthy then []
    else [Failure.tagMissing]) ++
  (if interfaces = [] then [Failure.noInterfaces] else []) ++
  interfaces.flatMap fun i =>
    (if i.file = "" then [Failure.noFile i.id] else []) ++
      if i.pattern = "" then [Failure.noPattern i.id] else []

/-- The message about the commit of the tree. -/
def headFailures (commit : String) : Option String → List Failure
  | none => []
  | some head => if head ≠ commit then [.headDiffers head commit] else []

/-- `check`: `pinnedPath` is what the pinned file holds that is given, `head` what `_git_head` finds
in the tree, `root` the tree, of the argument or the environment. -/
def check (pinnedPath : Option (Option Value)) (head : Option String) (root : Option Path) :
    Except Exc (List Failure) :=
  let pinned := loadPinned (pinnedPath.elim repository fun document => [document])
  (requirements pinned).bind fun interfaces =>
    match root with
    | none => .ok (pinFailures pinned interfaces)
    | some root =>
      if !fs.isDir root then .ok (pinFailures pinned interfaces ++ [.rootNotFound root])
      else
        (inspectSource search repository fs (some root)).map fun inspection =>
          pinFailures pinned interfaces ++ inspection.missing.map .missingInterface ++
            headFailures (getCommit pinned) head

end Gate

/-! ### What it is for -/

/-- A pinned file that is accepted: a dictionary. -/
structure PinnedFile where
  data : Items
  nodup : (data.map Prod.fst).Nodup

namespace PinnedFile

variable (file : PinnedFile)

/-- The commit that the file gives, the embedded one when it leaves a name of it out. -/
def commit : String :=
  match commitKeys.findSome? (commitAt file.data) with
  | some commit => commit
  | none => if ∃ key ∈ commitKeys, isGiven (file.data.get key) = false then pinnedCommit else ""

/-- The interfaces that the file lists, the embedded ones when it lists none. -/
def interfaces : Except Exc (List Interface) :=
  match rawInterfaces file.data with
  | none => .ok requiredInterfaces
  | some raw => (Py.traverse normaliseInterface raw).bind
      (Py.traverse fun i => normaliseInterface (.dict i.items))

end PinnedFile

section Follows

variable (search : String → ByteArray → Bool) (repository : List (Option Value)) (file : PinnedFile)

/-- The identifiers of the interfaces that a tree does not have. -/
def Lacks (fs : FileSystem) (root : Path) (interfaces : List Interface) (id : String) : Prop :=
  ∃ i ∈ interfaces, i.id = id ∧ found search fs root i = false

/-- The gate compares every tree with the commit of the file, and reports the interfaces of the file
that the tree does not have. -/
def Follows : Prop :=
  ∀ (fs : FileSystem) (root : Path) (head : Option String), fs.isDir root = true →
    ∃ failures interfaces,
      check search repository fs (some (some (.dict file.data))) head (some root) = .ok failures ∧
      file.interfaces = .ok interfaces ∧
      (∀ id, .missingInterface id ∈ failures ↔ Lacks search fs root interfaces id) ∧
      ∀ found commit, .headDiffers found commit ∈ failures ↔
        head = some found ∧ found ≠ file.commit ∧ commit = file.commit

/-- Two lists of interfaces ask the same of every tree. -/
def SameDemand (interfaces interfaces' : List Interface) : Prop :=
  ∀ (fs : FileSystem) (root : Path), fs.isDir root = true → ∀ id,
    Lacks search fs root interfaces id ↔ Lacks search fs root interfaces' id

end Follows

/-! ### The pins of a file -/

section Pins

variable {file : PinnedFile} {key : String}

theorem isGiven_eq_false {v : Value} : isGiven v = false ↔ v = .none := by
  cases v with
  | scalar s => cases s <;> simp [isGiven]
  | list xs => simp [isGiven]
  | dict d => simp [isGiven]

theorem get_assign (d : Items) (item : Scalar × Value) (key : String) :
    (assign d item).get key = if Scalar.str key = item.1 then item.2 else d.get key := by
  unfold assign Items.get Items.lookup
  rw [Py.Dict.lookup_update]
  split_ifs <;> rfl

theorem lookup_cons (k : Scalar) (v : Value) (items : Items) (key : String) :
    Items.lookup ((k, v) :: items) key = if .str key = k then some v else items.lookup key :=
  Py.Dict.lookup_cons _ _ _ _

theorem mem_values_of_lookup {items : Items} {v : Value} (h : Items.lookup items key = some v) :
    v ∈ items.map Prod.snd :=
  List.mem_map_of_mem (f := Prod.snd) (Py.Dict.mem_of_lookup h)

theorem lookup_eq_none {items : Items} (h : Scalar.str key ∉ items.map Prod.fst) :
    items.lookup key = none := by
  induction items with
  | nil => rfl
  | cons item items ih =>
    rw [List.map_cons, List.mem_cons, not_or] at h
    rw [lookup_cons, if_neg h.1, ih h.2]

/-- After assignments to different keys a key has what was assigned to it, if anything. -/
theorem get_foldl_assign {items : Items} (hnodup : (items.map Prod.fst).Nodup) (d : Items)
    (key : String) : Items.get (items.foldl assign d) key = (items.lookup key).getD (d.get key) := by
  induction items generalizing d with
  | nil => rfl
  | cons item items ih =>
    obtain ⟨k, v⟩ := item
    rw [List.map_cons, List.nodup_cons] at hnodup
    rw [List.foldl_cons, ih hnodup.2, get_assign, lookup_cons]
    by_cases hk : Scalar.str key = k
    · rw [if_pos hk, if_pos hk, lookup_eq_none (hk ▸ hnodup.1)]
      rfl
    · rw [if_neg hk, if_neg hk]

theorem lookup_filter {items : Items} (hnodup : (items.map Prod.fst).Nodup) (p : Value → Bool)
    (key : String) :
    Items.lookup (items.filter fun item => p item.2) key = (items.lookup key).filter p := by
  induction items with
  | nil => rfl
  | cons item items ih =>
    obtain ⟨k, v⟩ := item
    rw [List.map_cons, List.nodup_cons] at hnodup
    have hnone : Scalar.str key = k → Items.lookup items key = none := fun hk =>
      lookup_eq_none (hk ▸ hnodup.1)
    rw [List.filter_cons, lookup_cons]
    by_cases hp : p v = true
    · rw [if_pos hp, lookup_cons, ih hnodup.2]
      split_ifs
      · exact (Option.filter_some_pos hp).symm
      · rfl
    · rw [if_neg hp, ih hnodup.2]
      split_ifs with hk
      · rw [hnone hk, Option.filter_some_neg (Bool.eq_false_of_not_eq_true hp)]
        rfl
      · rfl

theorem lookup_map_get (d : Items) (keys : List String) :
    Items.lookup (keys.map fun k => (Scalar.str k, d.get k)) key =
      if key ∈ keys then some (d.get key) else none := by
  induction keys with
  | nil => rfl
  | cons k keys ih =>
    rw [List.map_cons, lookup_cons, ih]
    by_cases hk : key = k
    · simp [hk]
    · simp [hk]

theorem nodup_keys_map_get (d : Items) {keys : List String} (h : keys.Nodup) :
    ((keys.map fun k => (Scalar.str k, d.get k)).map Prod.fst).Nodup := by
  rw [List.map_map]
  exact List.Nodup.map (fun k k' h => Scalar.str.inj h) h

/-- What the file gives under a key, otherwise a default. -/
theorem lookup_given (file : PinnedFile) (key : String) (default : Value) :
    (Items.lookup (file.data.filter fun item => isGiven item.2) key).getD default =
      if isGiven (file.data.get key) then file.data.get key else default := by
  rw [lookup_filter file.nodup]
  cases hv : Items.lookup file.data key with
  | none =>
    have hget : file.data.get key = .none := by rw [Items.get, hv]; rfl
    rw [hget]
    rfl
  | some v =>
    have hget : file.data.get key = v := by rw [Items.get, hv]; rfl
    rw [hget]
    by_cases hgiven : isGiven v = true
    · rw [Option.filter_some_pos hgiven, if_pos hgiven]
      rfl
    · rw [Option.filter_some_neg (Bool.eq_false_of_not_eq_true hgiven), if_neg hgiven]
      rfl

/-- What the pins have under a key: what the file gives, otherwise what is embedded. -/
theorem get_merged (file : PinnedFile) (key : String) : (merged file.data).get key =
    if isGiven (file.data.get key) then file.data.get key else Items.get embeddedPinned key := by
  have hnodup : ((file.data.filter fun item => isGiven item.2).map Prod.fst).Nodup :=
    (List.filter_sublist.map Prod.fst).nodup file.nodup
  unfold merged
  dsimp only
  rw [← List.foldl_map (f := fun k => (Scalar.str k, Items.get file.data k)),
    get_foldl_assign (nodup_keys_map_get _ (List.Nodup.filter _ (by decide))), lookup_map_get,
    get_foldl_assign hnodup, lookup_given]
  -- the lists are assigned once more
  by_cases hlist : key ∈ ["required_interfaces", "interfaces", "requirements"].filter fun key =>
      (file.data.get key).asList.isSome
  · have hsome := (List.mem_filter.1 hlist).2
    rw [if_pos hlist, Option.getD_some, if_pos]
    cases hv : file.data.get key with
    | scalar s => rw [hv] at hsome; cases hsome
    | dict d => rfl
    | list xs => rfl
  · rw [if_neg hlist, Option.getD_none]

/-- A commit is embedded under each of its names. -/
theorem commitAt_merged (file : PinnedFile) (hkey : key ∈ commitKeys) :
    commitAt (merged file.data) key =
      if isGiven (file.data.get key) = false then some pinnedCommit else commitAt file.data key := by
  have hembedded : ∀ key ∈ commitKeys, commitAt embeddedPinned key = some pinnedCommit := by
    decide
  rw [← hembedded key hkey]
  unfold commitAt
  rw [get_merged]
  cases isGiven (file.data.get key) <;> rfl

/-- No name that the file leaves out is read before the one that gives its commit, unless that is the
embedded one. -/
def CommitRead (file : PinnedFile) : Prop :=
  ∀ key ∈ commitKeys.takeWhile fun key => (commitAt file.data key).isNone,
    isGiven (file.data.get key) = false → file.commit = pinnedCommit

theorem findSome?_congr {α β : Type} {f g : α → Option β} {xs : List α} (h : ∀ x ∈ xs, f x = g x) :
    xs.findSome? f = xs.findSome? g := by
  induction xs with
  | nil => rfl
  | cons x xs ih =>
    rw [List.forall_mem_cons] at h
    rw [List.findSome?_cons, List.findSome?_cons, h.1, ih h.2]

/-- The first name that is left out or gives a commit decides. -/
theorem findSome?_fill {keys : List String} {f : String → Option String} {gap : String → Prop}
    [DecidablePred gap] {default : String} (hgap : ∀ key, gap key → f key = none) :
    (keys.findSome? fun key => if gap key then some default else f key) =
      if ∃ key ∈ keys.takeWhile fun key => (f key).isNone, gap key then some default
      else keys.findSome? f := by
  induction keys with
  | nil => rfl
  | cons key keys ih =>
    rw [List.findSome?_cons, List.findSome?_cons, List.takeWhile_cons, ih]
    cases hf : f key with
    | some c =>
      have hno : ¬gap key := fun h => by rw [hgap key h] at hf; cases hf
      simp [hno]
    | none =>
      by_cases hkey : gap key
      · simp [hkey]
      · simp [hkey]

theorem getCommit_merged_eq_iff (file : PinnedFile) :
    getCommit (merged file.data) = file.commit ↔ CommitRead file := by
  have hgap : ∀ key, isGiven (file.data.get key) = false → commitAt file.data key = none := by
    intro key h
    rw [commitAt, isGiven_eq_false.1 h]
    rfl
  have hread : commitKeys.findSome? (commitAt (merged file.data)) =
      commitKeys.findSome? fun key =>
        if isGiven (file.data.get key) = false then some pinnedCommit else commitAt file.data key := by
    exact findSome?_congr fun key hkey => commitAt_merged file hkey
  rw [getCommit, hread, findSome?_fill hgap]
  unfold CommitRead
  by_cases hfirst : ∃ key ∈ commitKeys.takeWhile fun key => (commitAt file.data key).isNone,
      isGiven (file.data.get key) = false
  · rw [if_pos hfirst, Option.getD_some]
    obtain ⟨key, hkey, hleft⟩ := hfirst
    exact ⟨fun h _ _ _ => h.symm, fun h => (h key hkey hleft).symm⟩
  · rw [if_neg hfirst]
    refine iff_of_true ?_ fun key hkey hleft => absurd ⟨key, hkey, hleft⟩ hfirst
    unfold PinnedFile.commit
    cases hfound : commitKeys.findSome? (commitAt file.data) with
    | some commit => rfl
    | none =>
      -- no name gives a commit, and none is left out
      have hall : (commitKeys.takeWhile fun key => (commitAt file.data key).isNone) = commitKeys :=
        List.takeWhile_eq_self_iff.2 fun key hkey =>
          Option.isNone_iff_eq_none.2 (List.findSome?_eq_none_iff.1 hfound key hkey)
      rw [hall] at hfirst
      exact (if_neg hfirst).symm

/-! ### The interfaces of a file -/

theorem containsAny_str (s : String) (cs : List Char) : ∃ b, containsAny (.str s) cs = .ok b := by
  induction cs with
  | nil => exact ⟨false, rfl⟩
  | cons c cs ih =>
    obtain ⟨b, hb⟩ := ih
    unfold containsAny
    rw [hb]
    cases hfound : s.toList.tails.any c.toString.toList.isPrefixOf with
    | true => exact ⟨true, by rw [Value.contains, hfound]; rfl⟩
    | false => exact ⟨b, by rw [Value.contains, hfound]; rfl⟩

theorem escapePlain_str (s : String) : ∃ v, escapePlain (.str s) = .ok v := by
  obtain ⟨b, hb⟩ := containsAny_str s patternChars
  unfold escapePlain
  rw [hb]
  split_ifs
  · cases b
    · exact ⟨_, rfl⟩
    · exact ⟨_, rfl⟩
  · exact ⟨_, rfl⟩

/-- The dictionary of an interface has strings in it. -/
theorem get_items (i : Interface) (key : String) :
    Items.get i.items key = .none ∨ ∃ s, Items.get i.items key = .str s := by
  have hstr : ∀ v ∈ i.items.map Prod.snd, ∃ s, v = .str s := by simp [Interface.items]
  cases hv : Items.lookup i.items key with
  | none => exact .inl (by rw [Items.get, hv]; rfl)
  | some v =>
    obtain ⟨s, rfl⟩ := hstr v (mem_values_of_lookup hv)
    exact .inr ⟨s, by rw [Items.get, hv]; rfl⟩

theorem firstTrue_items (i : Interface) (keys : List String) :
    ∃ s, firstTrue i.items keys = .str s := by
  unfold firstTrue
  cases hfound : (keys.map (Items.get i.items)).find? Value.truthy with
  | none => exact ⟨"", rfl⟩
  | some v =>
    obtain ⟨key, -, rfl⟩ := List.mem_map.1 (List.mem_of_find?_eq_some hfound)
    rcases get_items i key with h | ⟨s, h⟩
    · have htrue := List.find?_some hfound
      rw [h] at htrue
      cases htrue
    · exact ⟨s, h⟩

/-- An interface can be normalised again. -/
theorem normaliseInterface_items (i : Interface) : ∃ j, normaliseInterface (.dict i.items) = .ok j := by
  obtain ⟨s, hs⟩ := firstTrue_items i ["pattern", "symbol", "regex", "match"]
  obtain ⟨v, hv⟩ := escapePlain_str s
  have hpattern : escapePlain (firstTrue ((Value.dict i.items).asDict.getD [])
      ["pattern", "symbol", "regex", "match"]) = .ok v := by
    rw [Value.asDict, Option.getD_some, hs, hv]
  exact ⟨_, by rw [normaliseInterface, hpattern, Except.map]⟩

theorem traverse_normaliseInterface_items (is : List Interface) :
    ∃ js, Py.traverse (fun i => normaliseInterface (.dict i.items)) is = .ok js :=
  Py.traverse_isOk.2 fun i _ => normaliseInterface_items i

/-- The entries of the pins are those of the file, or the embedded ones. -/
theorem rawInterfaces_merged (file : PinnedFile) :
    rawInterfaces (merged file.data) = rawInterfaces file.data ∨
      rawInterfaces (merged file.data) = some (requiredInterfaces.map fun i => .dict i.items) := by
  have hembedded : ∀ key ∈ interfaceKeys, (Items.get embeddedPinned key).asList = none ∨
      (Items.get embeddedPinned key).asList = some (requiredInterfaces.map fun i => .dict i.items) := by
    intro key hkey
    simp only [interfaceKeys, List.mem_cons, List.not_mem_nil, or_false] at hkey
    rcases hkey with rfl | rfl | rfl | rfl
    · exact .inr rfl
    · exact .inr rfl
    · exact .inr rfl
    · exact .inl rfl
  have hkeys : ∀ key ∈ interfaceKeys,
      ((merged file.data).get key).asList = (file.data.get key).asList ∨
      ((merged file.data).get key).asList = some (requiredInterfaces.map fun i => .dict i.items) := by
    intro key hkey
    rw [get_merged]
    cases hgiven : isGiven (file.data.get key) with
    | true => exact .inl rfl
    | false =>
      rw [isGiven_eq_false.1 hgiven]
      exact hembedded key hkey
  unfold rawInterfaces
  generalize interfaceKeys = keys at hkeys
  induction keys with
  | nil => exact .inl rfl
  | cons key keys ih =>
    rw [List.forall_mem_cons] at hkeys
    rw [List.findSome?_cons, List.findSome?_cons]
    rcases hkeys.1 with h | h <;> rw [h]
    · cases (file.data.get key).asList with
      | some raw => exact .inl rfl
      | none => exact ih hkeys.2
    · exact .inr rfl

/-- Where the interfaces of the file can be read, those of the pins can. -/
theorem requirements_merged {interfaces : List Interface} (h : file.interfaces = .ok interfaces) :
    ∃ required, requirements (merged file.data) = .ok required := by
  have hraw : ∀ raw, rawInterfaces (merged file.data) = some raw →
      ∃ normalised, Py.traverse normaliseInterface raw = .ok normalised := by
    intro raw hmerged
    rcases rawInterfaces_merged file with hfile | hembedded
    · rw [hmerged] at hfile
      unfold PinnedFile.interfaces at h
      rw [← hfile] at h
      obtain ⟨normalised, hnormalised, -⟩ := Py.bind_eq_ok.1 h
      exact ⟨normalised, hnormalised⟩
    · rw [hmerged] at hembedded
      cases hembedded
      rw [Py.traverse_map]
      exact traverse_normaliseInterface_items _
  have hget : ∃ is, getInterfaces (merged file.data) = .ok is := by
    unfold getInterfaces
    cases hmerged : rawInterfaces (merged file.data) with
    | none => exact ⟨_, rfl⟩
    | some raw =>
      obtain ⟨normalised, hnormalised⟩ := hraw raw hmerged
      exact ⟨_, Py.map_eq_ok.2 ⟨normalised, hnormalised, rfl⟩⟩
  obtain ⟨is, his⟩ := hget
  obtain ⟨js, hjs⟩ := traverse_normaliseInterface_items is
  exact ⟨js, Py.bind_eq_ok.2 ⟨is, his, hjs⟩⟩

end Pins

/-! ### The messages -/

section Messages

variable {search : String → ByteArray → Bool} {repository : List (Option Value)} {file : PinnedFile}
  {fs : FileSystem} {root : Path} {head : Option String} {failures : List Failure}

/-- The interfaces that are looked for are those of the repository. -/
theorem check_eq_ok (hroot : fs.isDir root = true) :
    check search repository fs (some (some (.dict file.data))) head (some root) = .ok failures ↔
      ∃ required asked, requirements (merged file.data) = .ok required ∧
        requirements (loadPinned repository) = .ok asked ∧
        failures = pinFailures (merged file.data) required ++
          ((asked.filter fun i => !found search fs root i).map Interface.id).map .missingInterface ++
          headFailures (getCommit (merged file.data)) head := by
  have hload : loadPinned ((some (some (.dict file.data)) : Option (Option Value)).elim repository
      fun document => [document]) = merged file.data := rfl
  unfold check
  simp only [hload, Py.bind_eq_ok, inspectSource, hroot, Bool.not_true, Bool.false_eq_true,
    if_false, Py.map_eq_ok]
  constructor
  · rintro ⟨required, hrequired, inspection, ⟨asked, hasked, rfl⟩, rfl⟩
    exact ⟨required, asked, hrequired, hasked, rfl⟩
  · rintro ⟨required, asked, hrequired, hasked, rfl⟩
    exact ⟨required, hrequired, _, ⟨asked, hasked, rfl⟩, rfl⟩

/-- The messages about the pins are about no tree. -/
theorem notMem_pinFailures (pinned : Items) (required : List Interface) :
    (∀ id, Failure.missingInterface id ∉ pinFailures pinned required) ∧
      ∀ found commit, Failure.headDiffers found commit ∉ pinFailures pinned required := by
  unfold pinFailures
  constructor
  · intro id h
    simp only [List.mem_append, List.mem_flatMap] at h
    rcases h with ((h | h) | h) | ⟨i, -, h | h⟩ <;> revert h <;> split_ifs <;> simp
  · intro found commit h
    simp only [List.mem_append, List.mem_flatMap] at h
    rcases h with ((h | h) | h) | ⟨i, -, h | h⟩ <;> revert h <;> split_ifs <;> simp

theorem missingInterface_mem {required asked : List Interface} {commit id : String} {pinned : Items} :
    Failure.missingInterface id ∈ pinFailures pinned required ++
        ((asked.filter fun i => !found search fs root i).map Interface.id).map .missingInterface ++
        headFailures commit head ↔ Lacks search fs root asked id := by
  have hhead : Failure.missingInterface id ∉ headFailures commit head := by
    unfold headFailures
    split
    · simp
    · split_ifs <;> simp
  simp only [List.mem_append, (notMem_pinFailures pinned required).1, hhead, false_or, or_false,
    List.mem_map, List.mem_filter, Bool.not_eq_true', Lacks]
  constructor
  · rintro ⟨_, ⟨i, ⟨hi, hfound⟩, rfl⟩, hid⟩
    cases hid
    exact ⟨i, hi, rfl, hfound⟩
  · rintro ⟨i, hi, rfl, hfound⟩
    exact ⟨_, ⟨i, ⟨hi, hfound⟩, rfl⟩, rfl⟩

theorem headDiffers_mem {required asked : List Interface} {commit found' commit' : String}
    {pinned : Items} :
    Failure.headDiffers found' commit' ∈ pinFailures pinned required ++
        ((asked.filter fun i => !found search fs root i).map Interface.id).map .missingInterface ++
        headFailures commit head ↔ head = some found' ∧ found' ≠ commit ∧ commit' = commit := by
  have hmissing : Failure.headDiffers found' commit' ∉
      ((asked.filter fun i => !found search fs root i).map Interface.id).map .missingInterface := by
    simp
  simp only [List.mem_append, (notMem_pinFailures pinned required).2, hmissing, false_or]
  cases head with
  | none => simp [headFailures]
  | some h =>
    simp only [headFailures, Option.some.injEq]
    split_ifs with hne
    · simp only [List.mem_singleton, Failure.headDiffers.injEq]
      constructor
      · rintro ⟨rfl, rfl⟩
        exact ⟨rfl, hne, rfl⟩
      · rintro ⟨rfl, -, rfl⟩
        exact ⟨rfl, rfl⟩
    · simp only [List.not_mem_nil, false_iff]
      rintro ⟨rfl, hne', -⟩
      exact hne hne'

/-- A gate that follows its file compares with its commit. -/
theorem commit_of_follows (h : Follows search repository file) :
    getCommit (merged file.data) = file.commit := by
  obtain ⟨failures, -, hcheck, -, -, hhead⟩ :=
    h (.single .dir) [] (some (getCommit (merged file.data) ++ "0")) rfl
  obtain ⟨required, asked, -, -, rfl⟩ := (check_eq_ok rfl).1 hcheck
  have hother : getCommit (merged file.data) ++ "0" ≠ getCommit (merged file.data) := by
    intro heq
    have hlength := congrArg String.length heq
    rw [String.length_append] at hlength
    exact absurd hlength (by simp)
  exact ((hhead _ _).1 (headDiffers_mem.2 ⟨rfl, hother, rfl⟩)).2.2

/-- **When the gate follows its file.** -/
theorem follows_iff (search : String → ByteArray → Bool) (repository : List (Option Value))
    (file : PinnedFile) : Follows search repository file ↔
      CommitRead file ∧ ∃ asked interfaces, requirements (loadPinned repository) = .ok asked ∧
        file.interfaces = .ok interfaces ∧ SameDemand search asked interfaces := by
  rw [← getCommit_merged_eq_iff]
  constructor
  · intro h
    refine ⟨commit_of_follows h, ?_⟩
    obtain ⟨failures, interfaces, hcheck, hinterfaces, -, -⟩ := h (.single .dir) [] none rfl
    obtain ⟨-, asked, -, hasked, -⟩ := (check_eq_ok rfl).1 hcheck
    refine ⟨asked, interfaces, hasked, hinterfaces, fun fs root hroot id => ?_⟩
    obtain ⟨failures, interfaces', hcheck, hinterfaces', hmissing, -⟩ := h fs root none hroot
    obtain ⟨required, asked', -, hasked', rfl⟩ := (check_eq_ok hroot).1 hcheck
    rw [hasked] at hasked'
    rw [hinterfaces] at hinterfaces'
    cases hasked'
    cases hinterfaces'
    exact missingInterface_mem.symm.trans (hmissing id)
  · rintro ⟨hcommit, asked, interfaces, hasked, hinterfaces, hsame⟩ fs root head hroot
    obtain ⟨required, hrequired⟩ := requirements_merged hinterfaces
    refine ⟨_, interfaces, (check_eq_ok hroot).2 ⟨required, asked, hrequired, hasked, rfl⟩,
      hinterfaces, fun id => ?_, fun found commit => ?_⟩
    · rw [missingInterface_mem]
      exact hsame fs root hroot id
    · rw [headDiffers_mem, hcommit]

/-- A file that gives its commit under the second name. -/
def commitOnly : PinnedFile where
  data := [(.str "commit", .str "734bef548a96e8774d6eef5dfa2026c6edc4e80b")]
  nodup := by decide

/-- Its commit is not the one that trees are compared with. -/
theorem commitOnly_shadowed : ¬Follows (fun _ _ => true) [] commitOnly := by
  intro h
  exact absurd (commit_of_follows h) (by decide)

end Messages

end SourceGate

end KernelBuild
