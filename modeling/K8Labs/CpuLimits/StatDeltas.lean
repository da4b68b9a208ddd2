import K8Labs.Python.Comprehension
import K8Labs.Python.Document
import K8Labs.Python.Groups
import K8Labs.Python.Sorted
import K8Labs.Python.Text

/-!
# Deltas of CPU counters

`cpu_stat_deltas` of `research/cpu-limits/experiments/cgroup_probe.py` subtracts the counters of two
captures of a cgroup hierarchy, level by level.

* `cpuStatDeltas_eq_ok` : what the loop over the levels computes, as one statement about both lists.
* `deltas_lawful` : **when there are deltas, that the order of the levels decides only the order of
  the deltas, and that the deltas of two legs add up.**
-/

namespace CpuLimits

namespace StatDeltas

open Py (Value Items Exc valueError typeError)

/-! ### Deltas -/

/-- `CPU_STAT_KEYS`. -/
def cpuStatKeys : List String := ["usage_usec", "nr_periods", "nr_throttled", "throttled_usec"]

/-- The deltas of one level. -/
structure Delta where
  kind : Value
  path : String
  cpuStat : List (String × ℤ)

/-- `str(level.get("path"))`. -/
def levelPath (level : Items) : String := (Items.get level "path").text

/-- `_levels`. -/
def levels (record : Items) : Except Exc (List Items) :=
  match Items.get record "levels" with
  | .list xs =>
    Py.traverse (fun x => match x with
      | .dict level => .ok level
      | _ => typeError "probe record has a non-object level") xs
  | _ => typeError "probe record has no levels list"

/-- `_cpu_stat`. -/
def cpuStat (level : Items) : Except Exc Items :=
  match Items.get level "cpu_stat" with
  | .dict stat => .ok stat
  | _ => typeError ("level has no cpu_stat mapping: " ++ (Items.get level "path").repr)

/-- The integer that a value is; a truth value is one, too. -/
def asInt : Value → Option ℤ
  | .scalar (.int n) => some n
  | .scalar (.bool b) => some (if b then 1 else 0)
  | _ => none

/-- The delta of one counter. -/
def counterDelta (path : String) (before after : Items) (key : String) : Except Exc (String × ℤ) :=
  match before.lookup key, after.lookup key with
  | some v, some w =>
    match asInt v, asInt w with
    | some m, some n =>
      if n < m then valueError ("cgroup level " ++ path ++ " counter decreased: " ++ key)
      else .ok (key, n - m)
    | _, _ => typeError ("cgroup level " ++ path ++ " has a non-integer cpu.stat counter: " ++ key)
  | _, _ => valueError ("cgroup level " ++ path ++ " is missing cpu.stat counter: " ++ key)

/-- The deltas of a level, from its state before. -/
def levelDelta (before after : Items) : Except Exc Delta := do
  let path := levelPath after
  let beforeStat ← cpuStat before
  let afterStat ← cpuStat after
  let counters ← Py.traverse (counterDelta path beforeStat afterStat) cpuStatKeys
  .ok ⟨Items.get after "kind", path, counters⟩

/-- The loop over the later levels, with the earlier ones that are left. -/
def deltaLoop : List (String × Items) → List Items → Except Exc (List Delta × List (String × Items))
  | remaining, [] => .ok ([], remaining)
  | remaining, level :: rest =>
    match remaining.lookup (levelPath level) with
    | none => valueError ("after record has unknown cgroup level: " ++ levelPath level)
    | some before => do
      let delta ← levelDelta before level
      let (deltas, left) ← deltaLoop (remaining.filter fun p => p.1 ≠ levelPath level) rest
      .ok (delta :: deltas, left)

/-- `cpu_stat_deltas`. -/
def cpuStatDeltas (before after : Items) : Except Exc (List Delta) := do
  let beforeByPath := Py.Dict.index levelPath id (← levels before)
  let (deltas, left) ← deltaLoop beforeByPath (← levels after)
  if left = [] then .ok deltas
  else valueError ("after record is missing cgroup levels: " ++
    String.intercalate ", " ((left.map Prod.fst).insertionSort (· ≤ ·)))

/-! ### The deltas of a level -/

/-- The counter of a level, when it is there and an integer. -/
def counter (level : Items) (key : String) : Option ℤ :=
  match Items.get level "cpu_stat" with
  | .dict stat => (Items.lookup stat key).bind asInt
  | _ => none

/-- How much a counter has grown. -/
def growth (before after : Items) (key : String) : ℤ :=
  (counter after key).getD 0 - (counter before key).getD 0

/-- The counter is there on both sides and has not decreased. -/
def Grows (before after : Items) (key : String) : Prop :=
  ∃ m n, counter before key = some m ∧ counter after key = some n ∧ m ≤ n

/-- What the deltas of a level are, when there are any. -/
def deltaOf (before after : Items) : Delta :=
  ⟨Items.get after "kind", levelPath after, cpuStatKeys.map fun key => (key, growth before after key)⟩

section Level

variable {before after x y z stat stat' : Items} {key : String} {delta : Delta}

theorem counter_of_cpuStat (h : cpuStat before = .ok stat) (key : String) :
    counter before key = (Items.lookup stat key).bind asInt := by
  unfold cpuStat at h
  split at h
  · next items hstat =>
    cases h
    rw [counter, hstat]
  · cases h

theorem exists_cpuStat (h : (counter before key).isSome) : ∃ stat, cpuStat before = .ok stat := by
  unfold counter at h
  split at h
  · next stat hstat => exact ⟨stat, by rw [cpuStat, hstat]⟩
  · cases h

theorem counterDelta_eq_ok {path : String} {found : String × ℤ} :
    counterDelta path stat stat' key = .ok found ↔
      ∃ m n, (Items.lookup stat key).bind asInt = some m ∧
        (Items.lookup stat' key).bind asInt = some n ∧ m ≤ n ∧ found = (key, n - m) := by
  unfold counterDelta
  constructor
  · intro h
    split at h
    · next v w hv hw =>
      split at h
      · next m n hm hn =>
        split_ifs at h with hlt
        · cases h
        · cases h
          exact ⟨m, n, by rw [hv]; exact hm, by rw [hw]; exact hn, not_lt.1 hlt, rfl⟩
      · cases h
    · cases h
  · rintro ⟨m, n, hm, hn, hle, rfl⟩
    obtain ⟨v, hv, hm⟩ := Option.bind_eq_some_iff.1 hm
    obtain ⟨w, hw, hn⟩ := Option.bind_eq_some_iff.1 hn
    simp only [hv, hw, hm, hn, if_neg (not_lt.2 hle)]

/-- A level has deltas when all its counters have grown, and these are how much. -/
theorem levelDelta_eq_ok : levelDelta before after = .ok delta ↔
    (∀ key ∈ cpuStatKeys, Grows before after key) ∧ delta = deltaOf before after := by
  have hcounters : ∀ stat stat', cpuStat before = .ok stat → cpuStat after = .ok stat' →
      ∀ found, Py.traverse (counterDelta (levelPath after) stat stat') cpuStatKeys = .ok found ↔
        (∀ key ∈ cpuStatKeys, Grows before after key) ∧
          found = cpuStatKeys.map fun key => (key, growth before after key) := by
    intro stat stat' hbefore hafter found
    refine Py.traverse_eq_ok_map fun key _ pair => ?_
    rw [counterDelta_eq_ok, Grows, growth, counter_of_cpuStat hbefore, counter_of_cpuStat hafter]
    constructor
    · rintro ⟨m, n, hm, hn, hle, rfl⟩
      exact ⟨⟨m, n, hm, hn, hle⟩, by rw [hm, hn]; rfl⟩
    · rintro ⟨⟨m, n, hm, hn, hle⟩, rfl⟩
      exact ⟨m, n, hm, hn, hle, by rw [hm, hn]; rfl⟩
  constructor
  · intro h
    obtain ⟨stat, hbefore, h⟩ := Py.bind_eq_ok.1 h
    obtain ⟨stat', hafter, h⟩ := Py.bind_eq_ok.1 h
    obtain ⟨found, hfound, h⟩ := Py.bind_eq_ok.1 h
    obtain ⟨hgrows, rfl⟩ := (hcounters stat stat' hbefore hafter found).1 hfound
    cases h
    exact ⟨hgrows, rfl⟩
  · rintro ⟨hgrows, rfl⟩
    obtain ⟨m, n, hm, hn, -⟩ := hgrows "usage_usec" List.mem_cons_self
    obtain ⟨stat, hbefore⟩ := exists_cpuStat (Option.isSome_of_eq_some hm)
    obtain ⟨stat', hafter⟩ := exists_cpuStat (Option.isSome_of_eq_some hn)
    refine Py.bind_eq_ok.2 ⟨stat, hbefore, Py.bind_eq_ok.2 ⟨stat', hafter, Py.bind_eq_ok.2
      ⟨_, (hcounters stat stat' hbefore hafter _).2 ⟨hgrows, rfl⟩, rfl⟩⟩⟩

theorem Grows.trans (hxy : Grows x y key) (hyz : Grows y z key) : Grows x z key := by
  obtain ⟨l, m, hl, hm, hle⟩ := hxy
  obtain ⟨m', n, hm', hn, hle'⟩ := hyz
  obtain rfl : m = m' := Option.some.inj (hm.symm.trans hm')
  exact ⟨l, n, hl, hn, hle.trans hle'⟩

/-- The growth of two legs adds up. -/
theorem growth_add_growth (x y z : Items) (key : String) :
    growth x y key + growth y z key = growth x z key := by
  unfold growth
  omega

end Level

/-! ### The loop over the levels -/

section Loop

variable {remaining left : List (String × Items)} {lvls : List Items} {deltas : List Delta}

theorem lookup_filter_ne {k k' : String} (h : k' ≠ k) (d : List (String × Items)) :
    (d.filter fun p => p.1 ≠ k).lookup k' = d.lookup k' := by
  induction d with
  | nil => rfl
  | cons p d ih =>
    obtain ⟨j, v⟩ := p
    by_cases hj : j = k
    · rw [List.filter_cons_of_neg (by simpa using hj), ih, Py.Dict.lookup_cons,
        if_neg fun heq => h (heq.trans hj)]
    · rw [List.filter_cons_of_pos (by simpa using hj), Py.Dict.lookup_cons, Py.Dict.lookup_cons, ih]

/-- What the loop computes: the deltas of each level from the level of its path, which it takes out
of the dictionary. -/
theorem deltaLoop_eq_ok (hdistinct : (lvls.map levelPath).Nodup) :
    deltaLoop remaining lvls = .ok (deltas, left) ↔
      List.Forall₂ (fun level delta => ∃ before, remaining.lookup (levelPath level) = some before ∧
        levelDelta before level = .ok delta) lvls deltas ∧
      left = remaining.filter fun p => p.1 ∉ lvls.map levelPath := by
  induction lvls generalizing remaining deltas left with
  | nil => simp [deltaLoop, eq_comm]
  | cons level lvls ih =>
    rw [List.map_cons, List.nodup_cons] at hdistinct
    -- taking one path out leaves what the later levels look up
    have hothers : ∀ later ∈ lvls, (remaining.filter fun p => p.1 ≠ levelPath level).lookup
        (levelPath later) = remaining.lookup (levelPath later) := fun later hlater =>
      lookup_filter_ne (fun heq => hdistinct.1 (List.mem_map.2 ⟨later, hlater, heq⟩)) remaining
    have hleft : (remaining.filter fun p => p.1 ≠ levelPath level).filter
        (fun p => p.1 ∉ lvls.map levelPath) =
          remaining.filter fun p => p.1 ∉ (level :: lvls).map levelPath := by
      rw [List.filter_filter]
      refine List.filter_congr fun p _ => ?_
      rw [List.map_cons, Bool.and_comm, ← Bool.decide_and]
      simp only [List.mem_cons, not_or]
    rw [List.forall₂_cons_left_iff]
    constructor
    · intro h
      rw [deltaLoop] at h
      split at h
      · cases h
      · next before hbefore =>
        obtain ⟨delta, hdelta, h⟩ := Py.bind_eq_ok.1 h
        obtain ⟨⟨rest, left'⟩, hloop, h⟩ := Py.bind_eq_ok.1 h
        cases h
        obtain ⟨hrest, rfl⟩ := (ih hdistinct.2).1 hloop
        refine ⟨⟨delta, rest, ⟨before, hbefore, hdelta⟩, ?_, rfl⟩, hleft⟩
        exact Py.forall₂_imp_mem hrest fun later hlater _ hlevel => by
          rwa [hothers later hlater] at hlevel
    · rintro ⟨⟨delta, rest, ⟨before, hbefore, hdelta⟩, hrest, rfl⟩, rfl⟩
      rw [deltaLoop]
      simp only [hbefore]
      refine Py.bind_eq_ok.2 ⟨delta, hdelta, Py.bind_eq_ok.2 ⟨(rest, _), (ih hdistinct.2).2
        ⟨?_, rfl⟩, ?_⟩⟩
      · exact Py.forall₂_imp_mem hrest fun later hlater _ hlevel => by
          rwa [hothers later hlater]
      · rw [hleft]

end Loop

/-! ### Captures -/

/-- A record whose levels have distinct paths. -/
structure Capture where
  record : Items
  lvls : List Items
  levels_eq : levels record = .ok lvls
  distinct : (lvls.map levelPath).Nodup

/-- The deltas from one capture to a later one. -/
def Capture.deltas (a b : Capture) : Except Exc (List Delta) := cpuStatDeltas a.record b.record

/-- The captures have the same paths. -/
def SamePaths (a b : Capture) : Prop := ∀ p, p ∈ a.lvls.map levelPath ↔ p ∈ b.lvls.map levelPath

/-- The required counters of all levels are there, as integers. -/
def Counted (a : Capture) : Prop := ∀ x ∈ a.lvls, ∀ key ∈ cpuStatKeys, (counter x key).isSome

/-- No counter of a level decreases. -/
def NoDecrease (a b : Capture) : Prop :=
  ∀ x ∈ a.lvls, ∀ y ∈ b.lvls, levelPath x = levelPath y → ∀ key ∈ cpuStatKeys, ∀ m n,
    counter x key = some m → counter y key = some n → m ≤ n

/-- The deltas of a level of the later capture. -/
def DeltaFrom (a : Capture) (after : Items) (delta : Delta) : Prop :=
  ∃ before ∈ a.lvls, levelPath before = levelPath after ∧
    (∀ key ∈ cpuStatKeys, Grows before after key) ∧ delta = deltaOf before after

variable {a a' b b' c : Capture} {ds es : List Delta} {level : Items}

theorem lookup_index_iff {before : Items} {p : String} :
    (Py.Dict.index levelPath id a.lvls).lookup p = some before ↔
      before ∈ a.lvls ∧ levelPath before = p := by
  rw [← Py.Dict.mem_iff_lookup Py.Dict.nodup_keys_index, Py.Dict.index_eq_map a.distinct,
    List.mem_map]
  constructor
  · rintro ⟨x, hx, heq⟩
    cases heq
    exact ⟨hx, rfl⟩
  · rintro ⟨hbefore, rfl⟩
    exact ⟨before, hbefore, rfl⟩

/-- **What the deltas of two captures are.** -/
theorem cpuStatDeltas_eq_ok :
    a.deltas b = .ok ds ↔ SamePaths a b ∧ List.Forall₂ (DeltaFrom a) b.lvls ds := by
  have hloop : ∀ ds left, deltaLoop (Py.Dict.index levelPath id a.lvls) b.lvls = .ok (ds, left) ↔
      List.Forall₂ (DeltaFrom a) b.lvls ds ∧ left =
        (Py.Dict.index levelPath id a.lvls).filter fun p => p.1 ∉ b.lvls.map levelPath := by
    intro ds left
    rw [deltaLoop_eq_ok b.distinct]
    simp only [lookup_index_iff, levelDelta_eq_ok, and_assoc]
    exact Iff.rfl
  have hnil : (Py.Dict.index levelPath id a.lvls).filter (fun p => p.1 ∉ b.lvls.map levelPath) = [] ↔
      ∀ p ∈ a.lvls.map levelPath, p ∈ b.lvls.map levelPath := by
    rw [List.filter_eq_nil_iff, Py.Dict.index_eq_map a.distinct]
    simp
  have hunfold : a.deltas b = (deltaLoop (Py.Dict.index levelPath id a.lvls) b.lvls).bind
      fun found => if found.2 = [] then .ok found.1
        else valueError ("after record is missing cgroup levels: " ++
          String.intercalate ", " ((found.2.map Prod.fst).insertionSort (· ≤ ·))) := by
    rw [Capture.deltas, cpuStatDeltas, a.levels_eq, b.levels_eq]
    rfl
  rw [hunfold, Py.bind_eq_ok]
  constructor
  · rintro ⟨⟨ds', left⟩, hfound, hend⟩
    obtain ⟨hall, rfl⟩ := (hloop ds' left).1 hfound
    dsimp only at hend
    split_ifs at hend with hleft
    · cases hend
      refine ⟨fun p => ⟨hnil.1 hleft p, fun hp => ?_⟩, hall⟩
      obtain ⟨after, hafter, rfl⟩ := List.mem_map.1 hp
      obtain ⟨delta, -, before, hbefore, hpath, -⟩ := Py.forall₂_mem_right hall.flip hafter
      exact List.mem_map.2 ⟨before, hbefore, hpath⟩
    · cases hend
  · rintro ⟨hsame, hall⟩
    refine ⟨(ds, _), (hloop ds _).2 ⟨hall, rfl⟩, if_pos (hnil.2 fun p hp => (hsame p).1 hp)⟩

/-- **When there are deltas**: the paths are the same, the counters are there, and none decreases. -/
theorem exists_deltas_iff :
    (∃ ds, a.deltas b = .ok ds) ↔ SamePaths a b ∧ Counted a ∧ Counted b ∧ NoDecrease a b := by
  simp only [cpuStatDeltas_eq_ok, exists_and_left]
  refine and_congr_right fun hsame => ?_
  rw [Py.exists_forall₂]
  -- every level has one of the same path on the other side
  have hother : ∀ x ∈ a.lvls, ∃ y ∈ b.lvls, levelPath y = levelPath x := fun x hx =>
    List.mem_map.1 ((hsame _).1 (List.mem_map_of_mem hx))
  have hback : ∀ y ∈ b.lvls, ∃ x ∈ a.lvls, levelPath x = levelPath y := fun y hy =>
    List.mem_map.1 ((hsame _).2 (List.mem_map_of_mem hy))
  have hunique : ∀ x ∈ a.lvls, ∀ x' ∈ a.lvls, levelPath x = levelPath x' → x = x' :=
    fun x hx x' hx' heq => List.inj_on_of_nodup_map a.distinct hx hx' heq
  constructor
  · intro h
    have hgrows : ∀ x ∈ a.lvls, ∀ y ∈ b.lvls, levelPath x = levelPath y →
        ∀ key ∈ cpuStatKeys, Grows x y key := by
      intro x hx y hy hpath
      obtain ⟨_, x', hx', hpath', hall, -⟩ := h y hy
      rwa [hunique x hx x' hx' (hpath.trans hpath'.symm)]
    refine ⟨fun x hx key hkey => ?_, fun y hy key hkey => ?_,
      fun x hx y hy hpath key hkey m n hm hn => ?_⟩
    · obtain ⟨y, hy, hpath⟩ := hother x hx
      obtain ⟨m, -, hm, -, -⟩ := hgrows x hx y hy hpath.symm key hkey
      exact Option.isSome_of_eq_some hm
    · obtain ⟨x, hx, hpath⟩ := hback y hy
      obtain ⟨-, n, -, hn, -⟩ := hgrows x hx y hy hpath key hkey
      exact Option.isSome_of_eq_some hn
    · obtain ⟨m', n', hm', hn', hle⟩ := hgrows x hx y hy hpath key hkey
      rw [hm] at hm'
      rw [hn] at hn'
      cases hm'
      cases hn'
      exact hle
  · rintro ⟨hcounted, hcounted', hmono⟩ y hy
    obtain ⟨x, hx, hpath⟩ := hback y hy
    refine ⟨deltaOf x y, x, hx, hpath, fun key hkey => ?_, rfl⟩
    obtain ⟨m, hm⟩ := Option.isSome_iff_exists.1 (hcounted x hx key hkey)
    obtain ⟨n, hn⟩ := Option.isSome_iff_exists.1 (hcounted' y hy key hkey)
    exact ⟨m, n, hm, hn, hmono x hx y hy hpath key hkey m n hm hn⟩

/-- Levels in another order have the same deltas in another order. -/
theorem deltas_perm (ha : a'.lvls.Perm a.lvls) (hb : b'.lvls.Perm b.lvls) (h : a.deltas b = .ok ds) :
    ∃ ds', a'.deltas b' = .ok ds' ∧ ds'.Perm ds := by
  obtain ⟨hsame, hall⟩ := cpuStatDeltas_eq_ok.1 h
  obtain ⟨ds', hall', hperm⟩ := List.perm_comp_forall₂ hb hall
  refine ⟨ds', cpuStatDeltas_eq_ok.2 ⟨fun p => ?_, ?_⟩, hperm⟩
  · rw [(ha.map levelPath).mem_iff, (hb.map levelPath).mem_iff]
    exact hsame p
  · refine hall'.imp fun y delta hdelta => ?_
    obtain ⟨x, hx, hrest⟩ := hdelta
    exact ⟨x, ha.mem_iff.2 hx, hrest⟩

/-- The counters of a second leg with those of the first added. -/
def addCounters (first second : List (String × ℤ)) : List (String × ℤ) :=
  second.map fun p => (p.1, ((first.lookup p.1).getD 0) + p.2)

theorem addCounters_map (f g : String → ℤ) :
    addCounters (cpuStatKeys.map fun key => (key, f key)) (cpuStatKeys.map fun key => (key, g key)) =
      cpuStatKeys.map fun key => (key, f key + g key) := by
  rfl

/-- The delta of both legs together: that of the second with the counters of the first added. -/
def IsSum (ds : List Delta) (e f : Delta) : Prop :=
  f.kind = e.kind ∧ f.path = e.path ∧
    ∃ d ∈ ds, d.path = e.path ∧ f.cpuStat = addCounters d.cpuStat e.cpuStat

/-- The deltas of two legs add up. -/
theorem deltas_telescope (hab : a.deltas b = .ok ds) (hbc : b.deltas c = .ok es) :
    ∃ fs, a.deltas c = .ok fs ∧ List.Forall₂ (IsSum ds) es fs := by
  obtain ⟨hsame, hall⟩ := cpuStatDeltas_eq_ok.1 hab
  obtain ⟨hsame', hall'⟩ := cpuStatDeltas_eq_ok.1 hbc
  have hboth : ∀ z e, DeltaFrom b z e → ∃ f, DeltaFrom a z f ∧ IsSum ds e f := by
    rintro z e ⟨y, hy, hyz, hgrows', rfl⟩
    obtain ⟨d, hd, x, hx, hxy, hgrows, rfl⟩ := Py.forall₂_mem_right hall.flip hy
    refine ⟨deltaOf x z, ⟨x, hx, hxy.trans hyz, fun key hkey => ?_, rfl⟩, rfl, rfl, _, hd, hyz, ?_⟩
    · exact (hgrows key hkey).trans (hgrows' key hkey)
    · simp only [deltaOf, addCounters_map, growth_add_growth]
  obtain ⟨fs, hfs, hsum⟩ := Py.forall₂_split hall' hboth
  exact ⟨fs, cpuStatDeltas_eq_ok.2 ⟨fun p => (hsame p).trans (hsame' p), hfs⟩, hsum⟩

/-- What the deltas are relied on for. -/
structure Lawful (a b c : Capture) : Prop where
  succeeds : (∃ ds, a.deltas b = .ok ds) ↔ SamePaths a b ∧ Counted a ∧ Counted b ∧ NoDecrease a b
  inOrder : ∀ ds, a.deltas b = .ok ds → ds.map Delta.path = b.lvls.map levelPath
  reordered : ∀ a' b' : Capture, a'.lvls.Perm a.lvls → b'.lvls.Perm b.lvls → ∀ ds,
    a.deltas b = .ok ds → ∃ ds', a'.deltas b' = .ok ds' ∧ ds'.Perm ds
  telescope : ∀ ds es, a.deltas b = .ok ds → b.deltas c = .ok es →
    ∃ fs, a.deltas c = .ok fs ∧ List.Forall₂ (IsSum ds) es fs

/-- The deltas stand in the order of the levels they are for. -/
theorem map_path_of_forall₂ {lvls : List Items} (h : List.Forall₂ (DeltaFrom a) lvls ds) :
    ds.map Delta.path = lvls.map levelPath := by
  induction h with
  | nil => rfl
  | cons hdelta _ ih =>
    obtain ⟨before, -, -, -, rfl⟩ := hdelta
    rw [List.map_cons, ih, List.map_cons]
    rfl

/-- **When there are deltas, what order they have, and that they add up.** -/
theorem deltas_lawful (a b c : Capture) : Lawful a b c where
  succeeds := exists_deltas_iff
  inOrder _ h := map_path_of_forall₂ (cpuStatDeltas_eq_ok.1 h).2
  reordered _ _ ha hb _ h := deltas_perm ha hb h
  telescope _ _ hab hbc := deltas_telescope hab hbc

/-- A level with equal counters. -/
def evenLevel (path : String) : Items :=
  [(.str "kind", .str "pod_slice"), (.str "path", .str path),
    (.str "cpu_stat", .dict (cpuStatKeys.map fun key => (.str key, .int 7)))]

/-- A capture of two levels. -/
def twoLevels (p q : String) (h : p ≠ q) : Capture where
  record := [(.str "levels", .list [.dict (evenLevel p), .dict (evenLevel q)])]
  lvls := [evenLevel p, evenLevel q]
  levels_eq := rfl
  distinct := by
    have hpath : ∀ path, levelPath (evenLevel path) = path := fun path => rfl
    simpa [hpath] using h

/-- The pod and its container, in the order the record names them. -/
def podFirst : Capture :=
  twoLevels "/pod" "/pod/container" (by decide)

/-- The same levels, the container first. -/
def containerFirst : Capture :=
  twoLevels "/pod/container" "/pod" (by decide)

/-- The list of the deltas follows the order of the later levels. -/
theorem order_shows : ¬ ∀ a b a' b' : Capture, a'.lvls.Perm a.lvls → b'.lvls.Perm b.lvls →
    a'.deltas b' = a.deltas b := by
  intro h
  have heq := h podFirst podFirst podFirst containerFirst (List.Perm.refl _) (List.Perm.swap _ _ _)
  have hpaths := congrArg (fun r => r.toOption.map (List.map Delta.path)) heq
  exact absurd hpaths (by decide)

end StatDeltas

end CpuLimits
