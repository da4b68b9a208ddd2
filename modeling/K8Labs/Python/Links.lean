import K8Labs.Python.Dict
import K8Labs.Python.FileSystem
import Mathlib.Data.List.Nodup

/-!
# Trees with symbolic links

A `Tree` is a tree of directories, text files and symbolic links.  `walk` is how the kernel follows
a path in it: a link is replaced by its target, a missing component or too many links end the walk
with nothing.  `realpath` is `os.path.realpath` without `strict`: it goes on where the kernel stops,
and keeps a link whose target leads back to the link itself.

* `realpath_eq_of_walk`: where the kernel gets to the end of a path, `realpath` names that place;
* `settled_realpath`: a resolved path has no `..`, and a link in it leads nowhere;
* `Settled.eq_of_walk`: what the kernel reaches by a resolved path stands at that very path.
-/

namespace Py

/-- What stands at a path. -/
inductive Entry where
  | dir
  | file (text : String)
  | link (target : String)
  deriving DecidableEq

/-- The name of a directory entry. -/
def IsName (name : String) : Prop := name ≠ "" ∧ name ≠ "." ∧ name ≠ ".." ∧ '/' ∉ name.toList

instance (name : String) : Decidable (IsName name) := inferInstanceAs (Decidable (_ ∧ _))

/-- The components of a path are read back from its text. -/
theorem pathParts_intercalate {names : List String} (h : ∀ name ∈ names, IsName name) :
    pathParts ("/".intercalate names) = names := by
  by_cases hnil : names = []
  · subst hnil
    rfl
  have hsplit : ([('/' : Char)].intercalate (names.map String.toList)).splitOn '/' =
      names.map String.toList := by
    refine List.splitOn_intercalate _ (fun cs hcs => ?_) (by simpa using hnil)
    obtain ⟨name, hname, rfl⟩ := List.mem_map.1 hcs
    exact (h name hname).2.2.2
  have hkeep : ∀ cs ∈ names.map String.toList, (decide (cs ≠ []) && decide (cs ≠ ['.'])) = true := by
    intro cs hcs
    obtain ⟨name, hname, rfl⟩ := List.mem_map.1 hcs
    obtain ⟨hempty, hdot, -, -⟩ := h name hname
    rw [Bool.and_eq_true, decide_eq_true_iff, decide_eq_true_iff]
    refine ⟨fun h => hempty (String.toList_inj.1 h), fun h => hdot (String.toList_inj.1 h)⟩
  unfold pathParts
  rw [String.toList_intercalate, show "/".toList = ['/'] from rfl, hsplit,
    List.filter_eq_self.2 hkeep, List.map_map]
  exact (List.map_congr_left fun name _ => String.ofList_toList).trans (List.map_id names)

/-- An absolute path is read back from its text. -/
theorem pathParts_text {p : Path} (h : ∀ name ∈ p, IsName name) : pathParts p.text = p := by
  have hstart : pathParts p.text = pathParts ("/".intercalate p) := by
    -- the slash in front only adds an empty component
    simp [pathParts, Path.text, String.toList_append, List.splitOn_cons_eq_if_modifyHead]
  rw [hstart, pathParts_intercalate h]

/-- A tree below the root directory, as its entries in the order in which directories list them. -/
structure Tree where
  entries : List (Path × Entry)
  /-- One entry at a path. -/
  nodup : (entries.map Prod.fst).Nodup
  /-- What exists has a name, and stands in a directory. -/
  names : ∀ e ∈ entries, e.1 ≠ [] ∧ ∀ name ∈ e.1, IsName name
  parent_dir : ∀ e ∈ entries, e.1.dropLast = [] ∨ (e.1.dropLast, Entry.dir) ∈ entries

namespace Tree

section Walk

variable (t : Tree)

/-- What stands at a path, no link followed. -/
def entry (p : Path) : Option Entry := if p = [] then some .dir else t.entries.lookup p

/-- `os.readlink`. -/
def linkAt (p : Path) : Option String :=
  match t.entry p with
  | some (.link target) => some target
  | _ => none

/-- The directory from which the target of a link in directory `p` is followed. -/
def start (p : Path) (target : String) : Path := if isAbsolute target then [] else p

/-- The kernel's walk along the names from a place; `enter` goes on at a link. -/
def walkWith (enter : List String → Path → Option Path) : List String → Path → Option Path
  | [], p => (t.entry p).map fun _ => p
  | name :: rest, p =>
    if t.entry p ≠ some .dir then none
    else if name = ".." then walkWith enter rest p.dropLast
    else
      match t.entry (p ++ [name]) with
      | none => none
      | some (.link target) => enter (pathParts target ++ rest) (start p target)
      | some _ => walkWith enter rest (p ++ [name])

/-- The kernel's walk, with at most the given number of links. -/
def walk : ℕ → List String → Path → Option Path
  | 0 => t.walkWith fun _ _ => none
  | n + 1 => t.walkWith (walk n)

/-- The place of a path; more than forty links are an `ELOOP`. -/
def locate (p : Path) : Option Path := t.walk 40 p []

/-- `path.is_dir()`. -/
def isDir (p : Path) : Bool := (t.locate p).bind t.entry = some .dir

/-- `path.is_file()`. -/
def isFile (p : Path) : Bool :=
  match (t.locate p).bind t.entry with
  | some (.file _) => true
  | _ => false

/-- `path.read_text()`. -/
def readText (p : Path) : Except Exc String :=
  match (t.locate p).bind t.entry with
  | some (.file text) => .ok text
  | some _ => .error (FileSystem.osError "Is a directory" p)
  | none => .error (FileSystem.osError "No such file or directory" p)

/-- `path.iterdir()`. -/
def iterdir (p : Path) : Except Exc (List Path) :=
  if t.isDir p then
    .ok ((t.entries.filter fun e => some e.1.dropLast = t.locate p).map fun e =>
      p ++ e.1.drop e.1.dropLast.length)
  else .error (FileSystem.osError "Not a directory" p)

/-- `path.rglob("*")`, for a path without links: everything below, links not followed. -/
def rglob (p : Path) : List Path :=
  (t.entries.map Prod.fst).filter fun q => p.isPrefixOf q && p != q

/-! ### Resolving a path -/

/-- The links met so far: where each leads, `none` while that is being found out. -/
abbrev Seen := List (Path × Option Path)

/-- The names resolved one by one; `enter` resolves the target of a link. -/
def followWith (enter : List String → Path → Seen → Path × Seen) :
    List String → Path → Seen → Path × Seen
  | [], p, seen => (p, seen)
  | name :: rest, p, seen =>
    if name = ".." then followWith enter rest p.dropLast seen
    else
      match t.linkAt (p ++ [name]) with
      | none => followWith enter rest (p ++ [name]) seen
      | some target =>
        match seen.lookup (p ++ [name]) with
        | some (some q) => followWith enter rest q seen
        -- the target led back to the link
        | some none => followWith enter rest (p ++ [name]) seen
        | none =>
          let (q, seen) := enter (pathParts target) (start p target) ((p ++ [name], none) :: seen)
          followWith enter rest q ((p ++ [name], some q) :: seen)

/-- The names resolved, with targets of links inside targets of links up to the given depth. -/
def follow : ℕ → List String → Path → Seen → Path × Seen
  | 0 => t.followWith fun _ p seen => (p, seen)
  | n + 1 => t.followWith (follow n)

/-- `os.path.realpath` of an absolute path.  A link is entered once, so that the number of entries
bounds the depth. -/
def realpath (p : List String) : Path := (t.follow t.entries.length p [] []).1

end Walk

section Kernel

variable {t : Tree} {n m : ℕ} {name : String} {xs ys rest : List String} {p q : Path}
  {target : String}

theorem walk_nil : t.walk n [] p = some q ↔ (t.entry p).isSome ∧ p = q := by
  cases n <;> simp [walk, walkWith, Option.isSome_iff_exists]

/-- The walk over one name. -/
theorem walk_cons : t.walk n (name :: rest) p =
    if t.entry p ≠ some .dir then none
    else if name = ".." then t.walk n rest p.dropLast
    else match t.entry (p ++ [name]) with
      | none => none
      | some (.link target) =>
        match n with
        | 0 => none
        | n + 1 => t.walk n (pathParts target ++ rest) (start p target)
      | some _ => t.walk n rest (p ++ [name]) := by
  cases n <;> rfl

theorem linkAt_eq_some : t.linkAt p = some target ↔ t.entry p = some (.link target) := by
  unfold linkAt
  split <;> simp_all

/-- A walk that goes up. -/
theorem walk_up (h : t.walk n (".." :: rest) p = some q) : t.walk n rest p.dropLast = some q := by
  rw [walk_cons, if_pos rfl] at h
  split_ifs at h
  exact h

/-- A walk over a name that is no link. -/
theorem walk_step (hname : name ≠ "..") (hlink : t.linkAt (p ++ [name]) = none)
    (h : t.walk n (name :: rest) p = some q) : t.walk n rest (p ++ [name]) = some q := by
  rw [walk_cons, if_neg hname] at h
  split_ifs at h
  split at h
  · cases h
  · next hentry => simp [linkAt_eq_some.2 hentry] at hlink
  · exact h

/-- A walk into a link goes on along its target, with one link less. -/
theorem walk_link (hname : name ≠ "..") (hlink : t.linkAt (p ++ [name]) = some target)
    (h : t.walk n (name :: rest) p = some q) :
    ∃ m, n = m + 1 ∧ t.walk m (pathParts target ++ rest) (start p target) = some q := by
  rw [walk_cons, if_neg hname, linkAt_eq_some.1 hlink] at h
  split_ifs at h
  cases n with
  | zero => cases h
  | succ m => exact ⟨m, rfl, h⟩

/-- More links allowed do not change where a walk ends. -/
theorem walk_succ (h : t.walk n xs p = some q) : t.walk (n + 1) xs p = some q := by
  induction n generalizing xs p with
  | zero =>
    induction xs generalizing p with
    | nil => exact walk_nil.2 (walk_nil.1 h)
    | cons name rest ih =>
      rw [walk_cons] at h ⊢
      split_ifs at h ⊢ with hdir hup
      · exact ih h
      · split at h
        · cases h
        · cases h
        · exact ih h
  | succ n ihn =>
    induction xs generalizing p with
    | nil => exact walk_nil.2 (walk_nil.1 h)
    | cons name rest ih =>
      rw [walk_cons] at h ⊢
      split_ifs at h ⊢ with hdir hup
      · exact ih h
      · split at h
        · cases h
        · exact ihn h
        · exact ih h

theorem isSome_entry_of_walk (h : t.walk n xs p = some q) : (t.entry p).isSome := by
  cases xs with
  | nil => exact (walk_nil.1 h).1
  | cons name rest =>
    rw [walk_cons] at h
    split_ifs at h with hdir
    all_goals simp [not_not.1 hdir]

/-- A walk stops on the way. -/
theorem walk_append (h : t.walk n (xs ++ ys) p = some q) :
    ∃ r, t.walk n xs p = some r ∧ t.walk n ys r = some q := by
  induction n generalizing xs p with
  | zero =>
    induction xs generalizing p with
    | nil => exact ⟨p, walk_nil.2 ⟨isSome_entry_of_walk h, rfl⟩, h⟩
    | cons name rest ih =>
      rw [List.cons_append, walk_cons] at h
      simp only [walk_cons]
      split_ifs at h ⊢ with hdir hup
      · exact ih h
      · split at h
        · cases h
        · cases h
        · exact ih h
  | succ n ihn =>
    induction xs generalizing p with
    | nil => exact ⟨p, walk_nil.2 ⟨isSome_entry_of_walk h, rfl⟩, h⟩
    | cons name rest ih =>
      rw [List.cons_append, walk_cons] at h
      simp only [walk_cons]
      split_ifs at h ⊢ with hdir hup
      · exact ih h
      · split at h
        · cases h
        · rw [← List.append_assoc] at h
          obtain ⟨r, hr, hrest⟩ := ihn h
          exact ⟨r, hr, walk_succ hrest⟩
        · exact ih h

end Kernel

section Resolve

variable {t : Tree} {n : ℕ} {name : String} {names rest : List String} {p q r : Path}
  {target : String} {seen : Seen}

/-- No walk gets over the name. -/
def Dead (t : Tree) (p : Path) (name : String) : Prop := ∀ n q, t.walk n [name] p ≠ some q

/-- A resolved path: nothing goes up, and links lead nowhere. -/
structure Settled (t : Tree) (r : Path) : Prop where
  no_up : ".." ∉ r
  dead : ∀ p name, p ++ [name] <+: r → (t.linkAt (p ++ [name])).isSome → t.Dead p name

/-- The place a link is recorded to lead to is where the kernel follows it to. -/
def Recorded (t : Tree) (seen : Seen) : Prop :=
  ∀ p name r, seen.lookup (p ++ [name]) = some (some r) →
    t.Settled r ∧ ∀ n q, t.walk n [name] p = some q → q = r

/-- A walk through a link that is being resolved goes on along the names, with fewer links. -/
def Leads (t : Tree) (seen : Seen) (names : List String) (p : Path) : Prop :=
  ∀ p' name', seen.lookup (p' ++ [name']) = some none →
    ∀ n q', t.walk n [name'] p' = some q' → ∃ m q, m < n ∧ t.walk m names p = some q

/-- The links. -/
def links (t : Tree) : List Path :=
  (t.entries.map Prod.fst).filter fun p => (t.linkAt p).isSome

/-- The links not met yet. -/
def unseen (t : Tree) (seen : Seen) : List Path :=
  t.links.filter fun p => (seen.lookup p).isNone

theorem Settled.root : t.Settled [] :=
  ⟨List.not_mem_nil, fun p name h => absurd (List.prefix_nil.1 h) (by simp)⟩

theorem Settled.of_prefix (h : t.Settled q) (hp : p <+: q) : t.Settled p :=
  ⟨fun hmem => h.no_up (hp.subset hmem), fun p' name hpre => h.dead p' name (hpre.trans hp)⟩

theorem Settled.dropLast (h : t.Settled p) : t.Settled p.dropLast :=
  h.of_prefix (List.dropLast_prefix p)

/-- One more name, which is no link or leads nowhere. -/
theorem Settled.append (h : t.Settled p) (hname : name ≠ "..")
    (hdead : (t.linkAt (p ++ [name])).isSome → t.Dead p name) : t.Settled (p ++ [name]) := by
  refine ⟨by simp [h.no_up, hname.symm], fun p' name' hpre hlink => ?_⟩
  rcases List.prefix_concat_iff.1 hpre with heq | hpre
  · obtain ⟨hp, hn⟩ := List.append_inj' heq rfl
    obtain ⟨rfl, -⟩ := List.cons.inj hn
    subst hp
    exact hdead hlink
  · exact h.dead p' name' hpre hlink

theorem Settled.start (h : t.Settled p) : t.Settled (start p target) := by
  unfold Tree.start
  split_ifs
  · exact .root
  · exact h

theorem mem_links (h : t.linkAt p = some target) : p ∈ t.links := by
  refine List.mem_filter.2 ⟨?_, by simp [h]⟩
  have hentry := linkAt_eq_some.1 h
  unfold entry at hentry
  split_ifs at hentry
  · cases hentry
  obtain ⟨l₁, l₂, hsplit, -⟩ := List.lookup_eq_some_iff.1 hentry
  rw [hsplit]
  simp

theorem isSome_of_lookup_cons {k p : Path} {v : Option Path} (h : (seen.lookup p).isSome) :
    (List.lookup p ((k, v) :: seen)).isSome := by
  rw [List.lookup_cons]
  split
  · rfl
  · exact h

/-- Meeting a link for the first time. -/
theorem length_unseen_lt {v : Option Path} (hlink : t.linkAt p = some target)
    (hseen : seen.lookup p = none) :
    (t.unseen ((p, v) :: seen)).length < (t.unseen seen).length := by
  have hsub : (t.unseen ((p, v) :: seen)).Sublist (t.unseen seen) := by
    refine List.monotone_filter_right _ fun q hq => ?_
    by_contra h
    rw [Option.isNone_iff_eq_none, ← ne_eq, Option.ne_none_iff_isSome] at h
    have := isSome_of_lookup_cons (k := p) (v := v) h
    rw [Option.isNone_iff_eq_none] at hq
    simp [hq] at this
  refine lt_of_le_of_ne hsub.length_le fun heq => ?_
  have hmem : p ∈ t.unseen seen := List.mem_filter.2 ⟨mem_links hlink, by simp [hseen]⟩
  rw [← hsub.eq_of_length heq, unseen, List.mem_filter, List.lookup_cons] at hmem
  simp at hmem

theorem length_unseen_le {seen' : Seen}
    (h : ∀ p, (seen.lookup p).isSome → (seen'.lookup p).isSome) :
    (t.unseen seen').length ≤ (t.unseen seen).length := by
  refine (List.monotone_filter_right _ fun q hq => ?_).length_le
  by_contra hnot
  rw [Option.isNone_iff_eq_none, ← ne_eq, Option.ne_none_iff_isSome] at hnot
  rw [Option.isNone_iff_eq_none] at hq
  have := h q hnot
  simp [hq] at this

/-- What resolving the names from a place starts from. -/
structure Ready (t : Tree) (names : List String) (p : Path) (seen : Seen) : Prop where
  settled : t.Settled p
  recorded : t.Recorded seen
  leads : t.Leads seen names p

/-- What resolving the names from a place gives. -/
structure Resolved (t : Tree) (names : List String) (p : Path) (seen : Seen)
    (out : Path × Seen) : Prop where
  settled : t.Settled out.1
  recorded : t.Recorded out.2
  eq_of_walk : ∀ n q, t.walk n names p = some q → q = out.1
  pending : ∀ k, out.2.lookup k = some none → seen.lookup k = some none
  met : ∀ k, (seen.lookup k).isSome → (out.2.lookup k).isSome

/-- A name from which every walk goes on at one place. -/
theorem Ready.step (h : Ready t (name :: rest) p seen) (hr : t.Settled r)
    (hwalk : ∀ n q, t.walk n (name :: rest) p = some q → t.walk n rest r = some q) :
    Ready t rest r seen where
  settled := hr
  recorded := h.recorded
  leads p' name' hp' n q' hq' := by
    obtain ⟨m, q, hm, hq⟩ := h.leads p' name' hp' n q' hq'
    exact ⟨m, q, hm, hwalk m q hq⟩

theorem Resolved.step {out : Path × Seen} (h : Resolved t rest r seen out)
    (hwalk : ∀ n q, t.walk n (name :: rest) p = some q → t.walk n rest r = some q) :
    Resolved t (name :: rest) p seen out :=
  { h with eq_of_walk := fun n q hq => h.eq_of_walk n q (hwalk n q hq) }

/-- A link met while its target is being resolved leads nowhere. -/
theorem Ready.dead (h : Ready t (name :: rest) p seen)
    (hseen : seen.lookup (p ++ [name]) = some none) : t.Dead p name := by
  intro n
  induction n using Nat.strong_induction_on with
  | _ n ih =>
    intro q hq
    obtain ⟨m, q', hm, hq'⟩ := h.leads p name hseen n q hq
    obtain ⟨r, hr, -⟩ := @walk_append _ _ [name] _ _ _ hq'
    exact ih m hm r hr

theorem lookup_cons_self (k : Path) (v : Option Path) (seen : Seen) :
    List.lookup k ((k, v) :: seen) = some v := by simp

theorem lookup_cons_ne {k k' : Path} (v : Option Path) (h : k' ≠ k) :
    List.lookup k' ((k, v) :: seen) = seen.lookup k' := by
  rw [List.lookup_cons, beq_false_of_ne h]

/-- From a link to its target. -/
theorem Ready.enter (h : Ready t (name :: rest) p seen) (hname : name ≠ "..")
    (hlink : t.linkAt (p ++ [name]) = some target) :
    Ready t (pathParts target) (start p target) ((p ++ [name], none) :: seen) where
  settled := h.settled.start
  recorded p' name' r hr := by
    by_cases heq : p' ++ [name'] = p ++ [name]
    · rw [heq, lookup_cons_self] at hr
      cases hr
    · rw [lookup_cons_ne _ heq] at hr
      exact h.recorded p' name' r hr
  leads p' name' hp' n q' hq' := by
    by_cases heq : p' ++ [name'] = p ++ [name]
    · obtain ⟨hp, hn⟩ := List.append_inj' heq rfl
      obtain ⟨rfl, -⟩ := List.cons.inj hn
      subst hp
      obtain ⟨m, rfl, hm⟩ := walk_link hname hlink hq'
      rw [List.append_nil] at hm
      exact ⟨m, q', Nat.lt_succ_self m, hm⟩
    · rw [lookup_cons_ne _ heq] at hp'
      obtain ⟨m, q, hm, hq⟩ := h.leads p' name' hp' n q' hq'
      obtain ⟨k, rfl, hk⟩ := walk_link hname hlink hq
      obtain ⟨r, hr, -⟩ := walk_append hk
      exact ⟨k, r, by omega, hr⟩

section Leave

variable {out : Path × Seen}

/-- Where the kernel gets over a link, it is at the place its target resolves to. -/
theorem Resolved.eq_of_walk_link
    (hout : Resolved t (pathParts target) (start p target) ((p ++ [name], none) :: seen) out)
    (hname : name ≠ "..") (hlink : t.linkAt (p ++ [name]) = some target) :
    ∀ n q, t.walk n [name] p = some q → q = out.1 := by
  intro n q hq
  obtain ⟨m, -, hm⟩ := walk_link hname hlink hq
  rw [List.append_nil] at hm
  exact hout.eq_of_walk m q hm

theorem walk_rest (hr : ∀ n q, t.walk n [name] p = some q → q = r) :
    ∀ n q, t.walk n (name :: rest) p = some q → t.walk n rest r = some q := by
  intro n q hq
  obtain ⟨r', hr', hrest⟩ := @walk_append _ _ [name] _ _ _ hq
  rwa [hr n r' hr'] at hrest

/-- What is pending after a link is resolved was pending before. -/
theorem Resolved.pending_link
    (hout : Resolved t (pathParts target) (start p target) ((p ++ [name], none) :: seen) out)
    {k : Path} (hk : List.lookup k ((p ++ [name], some out.1) :: out.2) = some none) :
    seen.lookup k = some none := by
  by_cases heq : k = p ++ [name]
  · rw [heq, lookup_cons_self] at hk
    cases hk
  · rw [lookup_cons_ne _ heq] at hk
    have := hout.pending k hk
    rwa [lookup_cons_ne _ heq] at this

/-- From the target of a link to the names after it. -/
theorem Ready.leave (h : Ready t (name :: rest) p seen) (hname : name ≠ "..")
    (hlink : t.linkAt (p ++ [name]) = some target)
    (hout : Resolved t (pathParts target) (start p target) ((p ++ [name], none) :: seen) out) :
    Ready t rest out.1 ((p ++ [name], some out.1) :: out.2) where
  settled := hout.settled
  recorded p' name' r hr := by
    by_cases heq : p' ++ [name'] = p ++ [name]
    · obtain ⟨hp, hn⟩ := List.append_inj' heq rfl
      obtain ⟨rfl, -⟩ := List.cons.inj hn
      subst hp
      rw [lookup_cons_self] at hr
      cases hr
      exact ⟨hout.settled, hout.eq_of_walk_link hname hlink⟩
    · rw [lookup_cons_ne _ heq] at hr
      exact hout.recorded p' name' r hr
  leads p' name' hp' n q' hq' := by
    obtain ⟨m, q, hm, hq⟩ := h.leads p' name' (hout.pending_link hp') n q' hq'
    exact ⟨m, q, hm, walk_rest (hout.eq_of_walk_link hname hlink) m q hq⟩

end Leave

/-- Resolving names one by one, when resolving a target is right for links not met before. -/
theorem resolved_followWith {b : ℕ} {enter : List String → Path → Seen → Path × Seen}
    (henter : ∀ names p seen, (t.unseen seen).length < b → Ready t names p seen →
      Resolved t names p seen (enter names p seen)) (names : List String) :
    ∀ p seen, (t.unseen seen).length ≤ b → Ready t names p seen →
      Resolved t names p seen (t.followWith enter names p seen) := by
  induction names with
  | nil =>
    intro p seen _ h
    exact ⟨h.settled, h.recorded, fun n q hq => (walk_nil.1 hq).2.symm, fun _ h => h, fun _ h => h⟩
  | cons name rest ih =>
    intro p seen hb h
    rw [followWith]
    split_ifs with hname
    · subst hname
      exact (ih _ _ hb (h.step h.settled.dropLast fun _ _ => walk_up)).step fun _ _ => walk_up
    cases hlink : t.linkAt (p ++ [name]) with
    | none =>
      have hwalk : ∀ n q, t.walk n (name :: rest) p = some q →
          t.walk n rest (p ++ [name]) = some q := fun _ _ => walk_step hname hlink
      exact (ih _ _ hb (h.step (h.settled.append hname (by simp [hlink])) hwalk)).step hwalk
    | some target =>
      dsimp only
      -- a link is new, or being resolved (then it is a cycle), or resolved already
      cases hseen : seen.lookup (p ++ [name]) with
      | none =>
        have hlt := length_unseen_lt (v := none) hlink hseen
        have hout := henter _ _ _ (lt_of_lt_of_le hlt hb) (h.enter hname hlink)
        have hwalk := @walk_rest _ _ rest _ _ (hout.eq_of_walk_link hname hlink)
        have hmet : ∀ k, (seen.lookup k).isSome →
            (List.lookup k ((p ++ [name], some (enter (pathParts target) (start p target)
              ((p ++ [name], none) :: seen)).1) :: (enter (pathParts target) (start p target)
              ((p ++ [name], none) :: seen)).2)).isSome := fun k hk =>
          isSome_of_lookup_cons (hout.met k (isSome_of_lookup_cons hk))
        have hrest := ih _ _ ((length_unseen_le hmet).trans hb) (h.leave hname hlink hout)
        exact ⟨hrest.settled, hrest.recorded, fun n q hq => hrest.eq_of_walk n q (hwalk n q hq),
          fun k hk => hout.pending_link (hrest.pending k hk), fun k hk => hrest.met k (hmet k hk)⟩
      | some place =>
        cases place with
        | none =>
          have hdead := h.dead hseen
          have hwalk : ∀ n q, t.walk n (name :: rest) p = some q →
              t.walk n rest (p ++ [name]) = some q :=
            walk_rest fun n q hq => absurd hq (hdead n q)
          exact (ih _ _ hb (h.step (h.settled.append hname fun _ => hdead) hwalk)).step hwalk
        | some r =>
          obtain ⟨hr, heq⟩ := h.recorded _ _ _ hseen
          have hwalk := @walk_rest _ _ rest _ _ heq
          exact (ih _ _ hb (h.step hr hwalk)).step hwalk

theorem resolved_follow (b : ℕ) : ∀ names p seen, (t.unseen seen).length ≤ b →
    Ready t names p seen → Resolved t names p seen (t.follow b names p seen) := by
  induction b with
  | zero => exact resolved_followWith fun _ _ _ h => absurd h (Nat.not_lt_zero _)
  | succ b ih =>
    exact resolved_followWith fun names p seen h => ih names p seen (Nat.lt_succ_iff.1 h)

theorem resolved_realpath (t : Tree) (p : List String) :
    Resolved t p [] [] (t.follow t.entries.length p [] []) := by
  refine resolved_follow _ _ _ _ ?_ ⟨.root, fun _ _ _ h => (by cases h), fun _ _ h => (by cases h)⟩
  calc (t.unseen []).length ≤ t.links.length := List.length_filter_le ..
    _ ≤ (t.entries.map Prod.fst).length := List.length_filter_le ..
    _ = t.entries.length := List.length_map _

/-- **A resolved path is settled**: it has no `..`, and a link in it leads nowhere. -/
theorem settled_realpath (t : Tree) (p : List String) : t.Settled (t.realpath p) :=
  (resolved_realpath t p).settled

/-- **Where the kernel gets to the end of a path, `realpath` names that place.** -/
theorem realpath_eq_of_walk {p : List String} (h : t.walk n p [] = some q) : t.realpath p = q :=
  ((resolved_realpath t p).eq_of_walk n q h).symm

theorem walk_eq_append (names : List String) : ∀ p, t.Settled (p ++ names) →
    t.walk n names p = some q → q = p ++ names := by
  induction names with
  | nil => exact fun p _ h => by simpa using (walk_nil.1 h).2.symm
  | cons name rest ih =>
    intro p hp h
    have hassoc : p ++ name :: rest = p ++ [name] ++ rest := by simp
    rw [hassoc] at hp ⊢
    have hname : name ≠ ".." := fun h => hp.no_up (by simp [h])
    cases hlink : t.linkAt (p ++ [name]) with
    | none => exact ih _ hp (walk_step hname hlink h)
    | some target =>
      obtain ⟨r, hr, -⟩ := @walk_append _ _ [name] _ _ _ h
      exact absurd hr (hp.dead p name (List.prefix_append _ _) (by simp [hlink]) n r)

/-- **What the kernel reaches by a resolved path stands at that very path.** -/
theorem Settled.eq_of_walk (hp : t.Settled p) (h : t.walk n p [] = some q) : q = p :=
  walk_eq_append p [] hp h

end Resolve

/-! ### Directories and files -/

section Files

variable {t : Tree} {p : Path} {ps : List Path}

/-- What exists stands in a directory. -/
theorem entry_parent (name : String) (h : t.entry (p ++ [name]) ≠ none) : t.entry p = some .dir := by
  obtain ⟨e, he⟩ := Option.ne_none_iff_exists'.1 h
  rw [entry, if_neg (by simp)] at he
  have hparent := t.parent_dir _ (Dict.mem_of_lookup he)
  rw [List.dropLast_concat] at hparent
  rw [entry]
  split_ifs with hp
  · rfl
  · exact Dict.lookup_of_mem t.nodup (hparent.resolve_left hp)

/-- The directories and the files of a tree, with these bytes in its files.  A link is no node. -/
def fileSystem (t : Tree) (bytes : Path → ByteArray) : FileSystem where
  node p :=
    match t.entry p with
    | some .dir => some .dir
    | some (.file _) => some (.file (bytes p))
    | _ => none
  parent_dir p name h := by
    rw [entry_parent name fun hnone => h (by rw [hnone])]

/-- A directory lists names, each once. -/
theorem iterdir_eq_ok (h : t.iterdir p = .ok ps) : ∃ names : List String,
    ps = names.map (fun name => p ++ [name]) ∧ names.Nodup ∧ ∀ name ∈ names, IsName name := by
  unfold iterdir at h
  split_ifs at h
  cases h
  have hlast : ∀ e ∈ t.entries, e.1.dropLast ++ [e.1.getLastD ""] = e.1 := fun e he => by
    rw [List.getLastD_eq_getLast?, List.getLast?_eq_getLast_of_ne_nil (t.names e he).1]
    exact List.dropLast_append_getLast _
  have hbelow : ∀ e ∈ t.entries.filter fun e => some e.1.dropLast = t.locate p,
      e ∈ t.entries ∧ some e.1.dropLast = t.locate p := by simp
  refine ⟨(t.entries.filter fun e => some e.1.dropLast = t.locate p).map fun e => e.1.getLastD "",
    ?_, ?_, ?_⟩
  · rw [List.map_map]
    refine List.map_congr_left fun e he => ?_
    have hdrop : e.1.drop e.1.dropLast.length = [e.1.getLastD ""] := by
      conv_lhs => rw [← hlast e (hbelow e he).1]
      rw [List.dropLast_concat, List.drop_left]
    rw [hdrop]
    rfl
  · refine List.Nodup.map_on (fun e he e' he' heq => ?_)
      ((List.Nodup.of_map _ t.nodup).filter _)
    -- the same directory and the same name: the same path
    obtain ⟨hmem, hdir⟩ := hbelow e he
    obtain ⟨hmem', hdir'⟩ := hbelow e' he'
    refine List.inj_on_of_nodup_map t.nodup hmem hmem' ?_
    rw [← hlast e hmem, ← hlast e' hmem', Option.some.inj (hdir.trans hdir'.symm), heq]
  · intro name hname
    obtain ⟨e, he, rfl⟩ := List.mem_map.1 hname
    have hmem := (hbelow e he).1
    have hself : e.1.getLastD "" ∈ e.1.dropLast ++ [e.1.getLastD ""] := by simp
    rw [hlast e hmem] at hself
    exact (t.names e hmem).2 _ hself

end Files

end Tree

end Py
