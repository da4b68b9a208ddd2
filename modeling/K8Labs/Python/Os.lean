import K8Labs.Python.Links

/-!
# Programs that change a file system

An effect `Eff α` runs in a `World`, a file system and a clock, and returns a value or raises; what
it changed before it raised stays changed.  Everything that is not determined by the program comes
from the `Env`: which call is broken off and what it leaves behind, the names of temporary
directories, the bytes that downloads return and the trees that commands write.

`Eff.Touches lost new` says of an effect that, however it ends, it loses files only in `lost` and
creates files only in `new`.  The rules for it follow the shape of the program.
-/

namespace Py

/-! ### Effects -/

/-- The state of a run: the file system and the number of calls so far. -/
structure World where
  fs : FileSystem
  clock : ℕ

/-- A computation that changes the world and may raise. -/
def Eff (α : Type) := World → Except Exc α × World

namespace Eff

variable {α β : Type}

/-- `raise`. -/
def throw (e : Exc) : Eff α := fun w => (.error e, w)

/-- A computation without effects. -/
def lift (x : Except Exc α) : Eff α := fun w => (x, w)

/-- The second computation runs unless the first raises. -/
def bind (x : Eff α) (f : α → Eff β) : Eff β := fun w =>
  match x w with
  | (.ok a, w') => f a w'
  | (.error e, w') => (.error e, w')

instance : Monad Eff where
  pure a := lift (.ok a)
  bind := bind

/-- `try … except`, with a handler that may raise again. -/
def tryCatch (x : Eff α) (handler : Exc → Eff α) : Eff α := fun w =>
  match x w with
  | (.ok a, w') => (.ok a, w')
  | (.error e, w') => handler e w'

/-- `try … finally`. -/
def tryFinally (x : Eff α) (last : Eff Unit) : Eff α := fun w =>
  match last (x w).2 with
  | (.ok _, w') => ((x w).1, w')
  | (.error e, w') => (.error e, w')

/-- A `for` loop. -/
def forEach (f : α → Eff Unit) : List α → Eff Unit
  | [] => pure ()
  | x :: xs => do
    f x
    forEach f xs

/-! ### Runs that return -/

theorem bind_eq_ok {x : Eff α} {f : α → Eff β} {w w'' : World} {b : β}
    (h : (x >>= f) w = (.ok b, w'')) : ∃ a w', x w = (.ok a, w') ∧ f a w' = (.ok b, w'') := by
  change Eff.bind x f w = _ at h
  unfold bind at h
  split at h
  · rename_i a w' hx
    exact ⟨a, w', hx, h⟩
  · cases h

theorem bind_of_ok {x : Eff α} {f : α → Eff β} {w w' : World} {a : α} (h : x w = (.ok a, w')) :
    (x >>= f) w = f a w' := by
  change Eff.bind x f w = _
  rw [bind, h]

theorem bind_of_error {x : Eff α} {f : α → Eff β} {w w' : World} {e : Exc}
    (h : x w = (.error e, w')) : (x >>= f) w = (.error e, w') := by
  change Eff.bind x f w = _
  rw [bind, h]

theorem pure_eq_ok {a b : α} {w w' : World} (h : (pure a : Eff α) w = (.ok b, w')) :
    a = b ∧ w = w' := by
  cases h
  exact ⟨rfl, rfl⟩

theorem lift_eq_ok {x : Except Exc α} {b : α} {w w' : World} (h : lift x w = (.ok b, w')) :
    x = .ok b ∧ w = w' := by
  cases h
  exact ⟨rfl, rfl⟩

theorem bind_lift_eq_ok {x : Except Exc α} {f : α → Eff β} {w w' : World} {b : β}
    (h : (lift x >>= f) w = (.ok b, w')) : ∃ a, x = .ok a ∧ f a w = (.ok b, w') := by
  obtain ⟨a, w₁, hx, hf⟩ := bind_eq_ok h
  obtain ⟨rfl, rfl⟩ := lift_eq_ok hx
  exact ⟨a, rfl, hf⟩

theorem tryFinally_eq_ok {x : Eff α} {last : Eff Unit} {w w'' : World} {a : α}
    (h : tryFinally x last w = (.ok a, w'')) :
    ∃ w', x w = (.ok a, w') ∧ last w' = (.ok (), w'') := by
  obtain ⟨r, w', hx⟩ : ∃ r w', x w = (r, w') := ⟨_, _, rfl⟩
  simp only [tryFinally, hx] at h
  split at h
  · rename_i hlast
    cases h
    exact ⟨w', hx, hlast⟩
  · cases h

theorem tryCatch_eq_ok {x : Eff α} {handler : Exc → Eff α} {w w' : World} {a : α}
    (hraise : ∀ e w b w', handler e w ≠ (.ok b, w')) (h : tryCatch x handler w = (.ok a, w')) :
    x w = (.ok a, w') := by
  unfold tryCatch at h
  split at h
  · rename_i hx
    rw [hx, h]
  · exact absurd h (hraise _ _ _ _)

/-- What every step of a loop preserves, the loop preserves. -/
theorem forEach_preserves {f : α → Eff Unit} {P : World → Prop} {xs : List α} {w w' : World}
    (hstep : ∀ x ∈ xs, ∀ w w', P w → f x w = (.ok (), w') → P w')
    (h : forEach f xs w = (.ok (), w')) (hw : P w) : P w' := by
  induction xs generalizing w with
  | nil =>
    obtain ⟨-, rfl⟩ := pure_eq_ok h
    exact hw
  | cons x xs ih =>
    obtain ⟨⟨⟩, w₁, hx, hrest⟩ := bind_eq_ok h
    exact ih (fun y hy => hstep y (List.mem_cons_of_mem _ hy)) hrest
      (hstep x List.mem_cons_self w w₁ hw hx)

/-- A loop each step of which keeps an invariant, establishes a fact about its element and keeps the
facts about the elements before it. -/
theorem forEach_establishes_under {f : α → Eff Unit} {R : α → α → Prop} {I : World → Prop}
    {P : α → World → Prop} {xs : List α} {w w' : World} (hR : xs.Pairwise R)
    (hinv : ∀ x ∈ xs, ∀ w w', I w → f x w = (.ok (), w') → I w')
    (hnew : ∀ x ∈ xs, ∀ w w', I w → f x w = (.ok (), w') → P x w')
    (hold : ∀ x ∈ xs, ∀ y, R y x → ∀ w w', P y w → f x w = (.ok (), w') → P y w')
    (h : forEach f xs w = (.ok (), w')) (hw : I w) : ∀ x ∈ xs, P x w' := by
  induction xs generalizing w with
  | nil => simp
  | cons x xs ih =>
    obtain ⟨⟨⟩, w₁, hx, hrest⟩ := bind_eq_ok h
    obtain ⟨hRx, hR⟩ := List.pairwise_cons.1 hR
    refine List.forall_mem_cons.2 ⟨?_, ih hR (fun y hy => hinv y (List.mem_cons_of_mem _ hy))
      (fun y hy => hnew y (List.mem_cons_of_mem _ hy))
      (fun y hy => hold y (List.mem_cons_of_mem _ hy)) hrest (hinv x List.mem_cons_self w w₁ hw hx)⟩
    exact forEach_preserves
      (fun z hz w w' hw hz' => hold z (List.mem_cons_of_mem _ hz) x (hRx z hz) w w' hw hz') hrest
      (hnew x List.mem_cons_self w w₁ hw hx)

/-- A loop each step of which establishes a fact about its element and keeps the facts about the
elements before it. -/
theorem forEach_establishes {f : α → Eff Unit} {R : α → α → Prop} {P : α → World → Prop}
    {xs : List α} {w w' : World} (hR : xs.Pairwise R)
    (hnew : ∀ x ∈ xs, ∀ w w', f x w = (.ok (), w') → P x w')
    (hold : ∀ x ∈ xs, ∀ y, R y x → ∀ w w', P y w → f x w = (.ok (), w') → P y w')
    (h : forEach f xs w = (.ok (), w')) : ∀ x ∈ xs, P x w' :=
  forEach_establishes_under (I := fun _ => True) hR (fun _ _ _ _ _ _ => trivial)
    (fun x hx w w' _ => hnew x hx w w') hold h trivial

/-- A loop over two lists after each other. -/
theorem forEach_append_eq_ok {f : α → Eff Unit} {xs ys : List α} {w w'' : World}
    (h : forEach f (xs ++ ys) w = (.ok (), w'')) :
    ∃ w', forEach f xs w = (.ok (), w') ∧ forEach f ys w' = (.ok (), w'') := by
  induction xs generalizing w with
  | nil => exact ⟨w, rfl, h⟩
  | cons x xs ih =>
    obtain ⟨⟨⟩, w₁, hx, hrest⟩ := bind_eq_ok h
    obtain ⟨w', hxs, hys⟩ := ih hrest
    refine ⟨w', ?_, hys⟩
    rw [forEach, bind_of_ok hx, hxs]

/-! ### What an effect touches -/

/-- However the effect ends, it loses files only in `lost` and creates files only in `new`. -/
def Touches (lost new : Path → Prop) (x : Eff α) : Prop :=
  ∀ w, FileSystem.Changes lost new w.fs (x w).2.fs

section Touches

variable {lost new lost' new' : Path → Prop} {x : Eff α} {f : α → Eff β}

theorem Touches.changes {w w' : World} {r : Except Exc α} (h : Touches lost new x)
    (hx : x w = (r, w')) : FileSystem.Changes lost new w.fs w'.fs := by
  have := h w
  rwa [hx] at this

theorem Touches.mono (h : Touches lost new x) (hl : ∀ q, lost q → lost' q)
    (hn : ∀ q, new q → new' q) : Touches lost' new' x :=
  fun w => (h w).mono hl hn

theorem touches_lift (r : Except Exc α) : Touches lost new (lift r) :=
  fun w => .refl w.fs

theorem touches_pure (a : α) : Touches lost new (pure a) := touches_lift _

theorem touches_throw (e : Exc) : Touches lost new (throw e : Eff α) :=
  fun w => .refl w.fs

/-- The second effect has to be looked at for the values that the first one returns. -/
theorem Touches.bind_of (hx : Touches lost new x)
    (hf : ∀ w a w', x w = (.ok a, w') → Touches lost new (f a)) : Touches lost new (x >>= f) := by
  intro w
  have h := hx w
  obtain ⟨r, w', hr⟩ : ∃ r w', x w = (r, w') := ⟨_, _, rfl⟩
  rw [hr] at h
  cases r with
  | ok a =>
    rw [bind_of_ok hr]
    exact h.trans (hf w a w' hr w')
  | error e =>
    rw [bind_of_error hr]
    exact h

theorem Touches.bind (hx : Touches lost new x) (hf : ∀ a, Touches lost new (f a)) :
    Touches lost new (x >>= f) :=
  hx.bind_of fun _ a _ _ => hf a

theorem touches_forEach {g : α → Eff Unit} {xs : List α}
    (h : ∀ x ∈ xs, Touches lost new (g x)) : Touches lost new (forEach g xs) := by
  induction xs with
  | nil => exact touches_pure ()
  | cons x xs ih =>
    refine (h x List.mem_cons_self).bind fun _ => ih fun y hy => h y (List.mem_cons_of_mem _ hy)

theorem Touches.tryCatch {handler : Exc → Eff α} (hx : Touches lost new x)
    (hh : ∀ e, Touches lost new (handler e)) : Touches lost new (Eff.tryCatch x handler) := by
  intro w
  have h := hx w
  obtain ⟨r, w', hr⟩ : ∃ r w', x w = (r, w') := ⟨_, _, rfl⟩
  rw [hr] at h
  cases r with
  | ok a =>
    simp only [Eff.tryCatch, hr]
    exact h
  | error e =>
    simp only [Eff.tryCatch, hr]
    exact h.trans (hh e w')

theorem Touches.tryFinally {last : Eff Unit} (hx : Touches lost new x)
    (hlast : Touches lost new last) : Touches lost new (Eff.tryFinally x last) := by
  intro w
  have hworld : (Eff.tryFinally x last w).2 = (last (x w).2).2 := by
    unfold Eff.tryFinally
    split <;> simp_all
  rw [hworld]
  exact (hx w).trans (hlast _)

end Touches

end Eff

/-! ### The environment -/

/-- A call that is broken off: the exception, and what the call leaves behind. -/
structure Interruption where
  exc : Exc
  /-- What a broken off write leaves in its file. -/
  written : ByteArray
  /-- What a broken off removal has removed, below the path it was removing. -/
  removed : List Path
  /-- What a broken off command leaves at the path it was writing to. -/
  tree : FileSystem

/-- The characters that make the name of a temporary directory unique. -/
structure Token where
  text : String
  no_slash : '/' ∉ text.toList

/-- How a command ends. -/
inductive Exit where
  | success
  | notFound
  | failure (code : ℤ) (stdout stderr : String)

/-- What the program does not determine; the first argument is the number of calls before. -/
structure Env where
  interrupt : ℕ → Option Interruption
  token : ℕ → Token
  /-- The chunks that reading a URL returns. -/
  fetch : ℕ → String → List ByteArray
  /-- How a command ends, and the tree it leaves at the path it writes to. -/
  run : ℕ → List String → Exit × FileSystem
  /-- The containers that JSON may nest. -/
  depth : ℕ

section Calls

variable (env : Env) {α : Type}

/-- One call to the outside: it does its step, or it is broken off. -/
def call (step : ℕ → FileSystem → Except Exc (α × FileSystem))
    (broken : Interruption → FileSystem → FileSystem) : Eff α := fun w =>
  match env.interrupt w.clock with
  | some i => (.error i.exc, ⟨broken i w.fs, w.clock + 1⟩)
  | none =>
    match step w.clock w.fs with
    | .ok (a, fs) => (.ok a, ⟨fs, w.clock + 1⟩)
    | .error e => (.error e, ⟨w.fs, w.clock + 1⟩)

/-- A call that only reads. -/
def inspect (f : FileSystem → Except Exc α) : Eff α :=
  call env (fun _ fs => (f fs).map fun a => (a, fs)) fun _ fs => fs

/-- A call that changes the file system. -/
def change (f : FileSystem → Except Exc FileSystem)
    (broken : Interruption → FileSystem → FileSystem) : Eff Unit :=
  call env (fun _ fs => (f fs).map fun fs' => ((), fs')) broken

/-- `os.mkdir` of a directory that may exist. -/
def ensureDir (p : Path) : Eff Unit :=
  change env (fun fs => if fs.isDir p then .ok fs else fs.mkdir p) fun _ fs => fs

/-- The directories below `done`, from the top. -/
def mkdirsBelow (done : Path) : List String → Eff Unit
  | [] => pure ()
  | name :: names => do
    ensureDir env (done ++ [name])
    mkdirsBelow (done ++ [name]) names

/-- `path.mkdir(parents=True, exist_ok=True)`. -/
def mkdirs (p : Path) : Eff Unit := mkdirsBelow env [] p

/-- Writing a file from its start; a broken off write leaves some bytes. -/
def writeFile (p : Path) (bytes : ByteArray) : Eff Unit :=
  change env (fun fs => fs.write p bytes) fun i fs =>
    match fs.write p i.written with
    | .ok fs' => fs'
    | .error _ => fs

/-- `path.unlink(missing_ok=True)`. -/
def unlinkFile (p : Path) : Eff Unit := change env (fun fs => fs.unlink p) fun _ fs => fs

/-- `os.replace`. -/
def osReplace (src dst : Path) : Eff Unit := change env (fun fs => fs.replace src dst) fun _ fs => fs

/-- `shutil.rmtree`; a broken off removal has removed some of the tree. -/
def removeTree (p : Path) : Eff Unit :=
  change env (fun fs => fs.rmtree p) fun i fs =>
    i.removed.foldl (fun fs r => fs.place (p ++ r) .empty) fs

/-- `shutil.rmtree(path, ignore_errors=True)`. -/
def removeTreeQuietly (p : Path) : Eff Unit :=
  (removeTree env p).tryCatch fun e => if e.caughtBy [.osError] then pure () else Eff.throw e

/-- Opening a URL: the chunks that reading it returns. -/
def urlopen (url : String) : Eff (List ByteArray) :=
  call env (fun n fs => .ok (env.fetch n url, fs)) fun _ fs => fs

/-- `subprocess.run` of a command that writes a tree to a path. -/
def runCommand (command : List String) (target : Path) : Eff Exit :=
  call env
    (fun n fs =>
      match env.run n command with
      | (.notFound, _) => .ok (.notFound, fs)
      | (exit, tree) => .ok (exit, fs.place target tree))
    fun i fs => fs.place target i.tree

/-! ### Temporary directories -/

/-- One component of a path that is walked. -/
def stepInto (p : Path) (name : String) : Path :=
  if name = "" ∨ name = "." then p else if name = ".." then p.dropLast else p ++ [name]

/-- The walk from a directory, every step of which starts in a directory. -/
def reachable (fs : FileSystem) (p : Path) : List String → Bool
  | [] => fs.isDir p
  | name :: names => fs.isDir p && reachable fs (stepInto p name) names

/-- The bytes of the file at the end of a walk. -/
def fileAlong (fs : FileSystem) (p : Path) : List String → Option ByteArray
  | [] => fs.fileAt p
  | name :: names => if fs.isDir p then fileAlong fs (stepInto p name) names else none

/-- The file that `Path(text)` names, from the working directory. -/
def namedFile (fs : FileSystem) (cwd : Path) (text : String) : Option ByteArray :=
  fileAlong fs (if isAbsolute text then [] else cwd) (pathParts text)

/-- The text up to the last slash, and the name after it. -/
def splitName (text : String) : List Char × List Char :=
  ((text.toList.reverse.dropWhile (· != '/')).reverse,
    (text.toList.reverse.takeWhile (· != '/')).reverse)

/-- The directory and the name of `os.path.join(dir, text)`. -/
def joinTarget (dir : Path) (text : String) : Path × List String × String :=
  let (parent, name) := splitName text
  (if isAbsolute text then [] else dir, (parent.splitOn '/').map String.ofList, String.ofList name)

/-- The path of the temporary directory with a label and a token. -/
def temporaryPath (dir : Path) (label : String) (token : Token) : Path :=
  let (start, names, name) := joinTarget dir (label ++ token.text)
  names.foldl stepInto start ++ [name]

/-- `tempfile.mkdtemp(prefix=label, dir=dir)`; the token is the one under which nothing exists. -/
def mkdtemp (dir : Path) (label : String) : Eff Path :=
  call env
    (fun n fs =>
      let (start, names, _) := joinTarget dir (label ++ (env.token n).text)
      let p := temporaryPath dir label (env.token n)
      if reachable fs start names then (fs.mkdir p).map fun fs' => (p, fs')
      else .error (fs.missing p))
    fun _ fs => fs

/-! ### What the calls do -/

variable {env} {w w' : World} {lost new : Path → Prop}
  {broken : Interruption → FileSystem → FileSystem}

theorem call_eq_ok {step : ℕ → FileSystem → Except Exc (α × FileSystem)} {a : α}
    (h : call env step broken w = (.ok a, w')) : step w.clock w.fs = .ok (a, w'.fs) := by
  unfold call at h
  split at h
  · cases h
  · split at h
    · rename_i hstep
      cases h
      exact hstep
    · cases h

theorem call_of_ok {step : ℕ → FileSystem → Except Exc (α × FileSystem)} {a : α} {fs : FileSystem}
    (hint : env.interrupt w.clock = none) (h : step w.clock w.fs = .ok (a, fs)) :
    call env step broken w = (.ok a, ⟨fs, w.clock + 1⟩) := by
  simp only [call, hint, h]

theorem touches_call {step : ℕ → FileSystem → Except Exc (α × FileSystem)}
    (hstep : ∀ n fs a fs', step n fs = .ok (a, fs') → fs.Changes lost new fs')
    (hbroken : ∀ i (fs : FileSystem), fs.Changes lost new (broken i fs)) :
    (call env step broken).Touches lost new := by
  intro w
  unfold call
  split
  · exact hbroken _ w.fs
  · split
    · rename_i h
      exact hstep _ _ _ _ h
    · exact .refl w.fs

theorem inspect_eq_ok {f : FileSystem → Except Exc α} {a : α}
    (h : inspect env f w = (.ok a, w')) : f w.fs = .ok a ∧ w'.fs = w.fs := by
  obtain ⟨b, hb, heq⟩ := map_eq_ok.1 (call_eq_ok h)
  obtain ⟨rfl, hfs⟩ := Prod.mk.inj heq
  exact ⟨hb, hfs.symm⟩

theorem inspect_of_ok {f : FileSystem → Except Exc α} {a : α} (hint : env.interrupt w.clock = none)
    (h : f w.fs = .ok a) : inspect env f w = (.ok a, ⟨w.fs, w.clock + 1⟩) :=
  call_of_ok hint (by rw [h]; rfl)

theorem inspect_of_error {f : FileSystem → Except Exc α} {e : Exc}
    (hint : env.interrupt w.clock = none) (h : f w.fs = .error e) :
    inspect env f w = (.error e, ⟨w.fs, w.clock + 1⟩) := by
  simp only [inspect, call, hint, h, Except.map]

theorem touches_inspect (f : FileSystem → Except Exc α) : (inspect env f).Touches lost new := by
  refine touches_call (fun n fs a fs' h => ?_) fun _ fs => .refl fs
  obtain ⟨b, -, heq⟩ := map_eq_ok.1 h
  cases heq
  exact .refl fs

theorem change_eq_ok {f : FileSystem → Except Exc FileSystem}
    (h : change env f broken w = (.ok (), w')) : f w.fs = .ok w'.fs := by
  obtain ⟨fs, hfs, heq⟩ := map_eq_ok.1 (call_eq_ok h)
  cases heq
  exact hfs

/-- A call that leaves nothing behind when it is broken off changes nothing when it raises. -/
theorem change_eq_error {f : FileSystem → Except Exc FileSystem} {e : Exc}
    (h : change env f (fun _ fs => fs) w = (.error e, w')) : w'.fs = w.fs := by
  simp only [change, call] at h
  split at h
  · cases h
    rfl
  · split at h
    · cases h
    · cases h
      rfl

theorem change_of_ok {f : FileSystem → Except Exc FileSystem} {fs : FileSystem}
    (hint : env.interrupt w.clock = none) (h : f w.fs = .ok fs) :
    change env f broken w = (.ok (), ⟨fs, w.clock + 1⟩) :=
  call_of_ok hint (by rw [h]; rfl)

theorem touches_change {f : FileSystem → Except Exc FileSystem}
    (hf : ∀ fs fs', f fs = .ok fs' → fs.Changes lost new fs')
    (hbroken : ∀ i (fs : FileSystem), fs.Changes lost new (broken i fs)) :
    (change env f broken).Touches lost new := by
  refine touches_call (fun n fs a fs' h => ?_) hbroken
  obtain ⟨fs'', hfs, heq⟩ := map_eq_ok.1 h
  cases heq
  exact hf fs fs' hfs

theorem changes_ensureDir {fs fs' : FileSystem} {p : Path}
    (h : (if fs.isDir p then .ok fs else fs.mkdir p) = .ok fs') :
    fs.Changes (fun _ => False) (fun _ => False) fs' ∧ fs'.isDir p = true := by
  split_ifs at h with hdir
  · cases h
    exact ⟨.refl fs, hdir⟩
  · exact ⟨FileSystem.changes_mkdir h, FileSystem.isDir_iff.2 (FileSystem.mkdir_eq_ok h).2.2.1⟩

theorem fileAlong_append {fs : FileSystem} {p : Path} {names : List String} {bytes : ByteArray}
    (hnames : ∀ name ∈ names, IsName name) (h : fs.fileAt (p ++ names) = some bytes) :
    fileAlong fs p names = some bytes := by
  induction names generalizing p with
  | nil => rwa [List.append_nil] at h
  | cons name names ih =>
    obtain ⟨hempty, hdot, hup, -⟩ := hnames name List.mem_cons_self
    have hdir : fs.isDir p = true := by
      refine FileSystem.isDir_above (List.prefix_append p (name :: names)) (fun heq => ?_) ?_
      · simpa using congrArg List.length heq
      · rw [FileSystem.fileAt_eq_some.1 h]
        exact Option.some_ne_none _
    rw [fileAlong, if_pos hdir, stepInto, if_neg (by simp [hempty, hdot]), if_neg hup]
    exact ih (fun other hother => hnames other (List.mem_cons_of_mem _ hother)) (by simpa using h)

/-- The text of a path names the file at the path. -/
theorem namedFile_text {fs : FileSystem} {cwd p : Path} {bytes : ByteArray}
    (hnames : ∀ name ∈ p, IsName name) (h : fs.fileAt p = some bytes) :
    namedFile fs cwd p.text = some bytes := by
  have habsolute : isAbsolute p.text = true := by
    simp [isAbsolute, Path.text, String.toList_append]
  rw [namedFile, if_pos habsolute, pathParts_text hnames]
  exact fileAlong_append hnames (by simpa using h)

theorem touches_mkdirs (p : Path) : (mkdirs env p).Touches lost new := by
  have key : ∀ done names, (mkdirsBelow env done names).Touches lost new := by
    intro done names
    induction names generalizing done with
    | nil => exact Eff.touches_pure ()
    | cons name names ih =>
      refine Eff.Touches.bind ?_ fun _ => ih _
      exact touches_change
        (fun fs fs' h => (changes_ensureDir h).1.mono (fun _ => False.elim) fun _ => False.elim)
        fun _ fs => .refl fs
  exact key [] p

/-- Making directories leaves every file as it is. -/
theorem fileAt_of_mkdirs {p q : Path} {r : Except Exc Unit} (h : mkdirs env p w = (r, w')) :
    w'.fs.fileAt q = w.fs.fileAt q := by
  have hquiet : (mkdirs env p).Touches (fun _ => False) fun _ => False := touches_mkdirs p
  obtain ⟨hkeeps, hcreates⟩ := hquiet.changes h
  exact Option.ext fun b => ⟨fun hq => hcreates q b hq id, fun hq => hkeeps q b hq id⟩

/-- What was asked for is a directory. -/
theorem isDir_of_mkdirs {p : Path} (h : mkdirs env p w = (.ok (), w')) (hne : p ≠ []) :
    w'.fs.isDir p = true := by
  have key : ∀ done names w, mkdirsBelow env done names w = (.ok (), w') → names ≠ [] →
      w'.fs.isDir (done ++ names) = true := by
    intro done names
    induction names generalizing done with
    | nil => exact fun _ _ hne => absurd rfl hne
    | cons name names ih =>
      intro w h _
      obtain ⟨⟨⟩, w₁, hfirst, hrest⟩ := Eff.bind_eq_ok h
      by_cases hnames : names = []
      · subst hnames
        obtain ⟨-, rfl⟩ := Eff.pure_eq_ok hrest
        exact (changes_ensureDir (change_eq_ok hfirst)).2
      · simpa using ih (done ++ [name]) w₁ hrest hnames
  exact key [] p w h hne

theorem touches_writeFile (p : Path) (bytes : ByteArray) :
    (writeFile env p bytes).Touches (· = p) (· = p) := by
  refine touches_change (fun fs fs' h => FileSystem.changes_write h) fun i fs => ?_
  split
  · rename_i h
    exact FileSystem.changes_write h
  · exact .refl fs

theorem fileAt_of_writeFile {p : Path} {bytes : ByteArray}
    (h : writeFile env p bytes w = (.ok (), w')) : w'.fs.fileAt p = some bytes :=
  FileSystem.fileAt_eq_some.2 (FileSystem.write_eq_ok (change_eq_ok h)).1

/-- A file that is written under a temporary name and renamed is there, and no third file is lost. -/
theorem write_replace_eq_ok {temporary target : Path} {bytes : ByteArray}
    (hne : temporary ≠ target)
    (h : (do writeFile env temporary bytes; osReplace env temporary target) w = (.ok (), w')) :
    w'.fs.fileAt target = some bytes ∧
      FileSystem.Keeps (fun q => q = temporary ∨ q = target) w.fs w'.fs := by
  obtain ⟨⟨⟩, w₁, hwrite, h⟩ := Eff.bind_eq_ok h
  obtain ⟨hfile, hkeeps⟩ := FileSystem.replace_file (change_eq_ok h) hne (fileAt_of_writeFile hwrite)
  refine ⟨hfile, fun q b hq hother => hkeeps q b ?_ hother⟩
  exact ((touches_writeFile _ _).changes hwrite).keeps q b hq fun heq => hother (.inl heq)

theorem touches_unlinkFile (p : Path) : (unlinkFile env p).Touches (· = p) (fun _ => False) :=
  touches_change (fun _ _ h => FileSystem.changes_unlink h) fun _ fs => .refl fs

theorem touches_osReplace (src dst : Path) :
    (osReplace env src dst).Touches (fun q => src <+: q ∨ dst <+: q) (fun q => dst <+: q) :=
  touches_change (fun _ _ h => FileSystem.changes_replace h) fun _ fs => .refl fs

theorem touches_removeTree (p : Path) :
    (removeTree env p).Touches (fun q => p <+: q) (fun _ => False) := by
  refine touches_change (fun _ _ h => FileSystem.changes_rmtree h) fun i fs => ?_
  induction i.removed generalizing fs with
  | nil => exact .refl fs
  | cons r rs ih =>
    refine FileSystem.Changes.trans ?_ (ih (fs.place (p ++ r) .empty))
    exact (FileSystem.changes_place_empty fs (p ++ r)).mono
      (fun q hq => (List.prefix_append p r).trans hq) fun _ => id

theorem touches_removeTreeQuietly (p : Path) :
    (removeTreeQuietly env p).Touches (fun q => p <+: q) (fun _ => False) := by
  refine (touches_removeTree p).tryCatch fun e => ?_
  split_ifs
  · exact Eff.touches_pure ()
  · exact Eff.touches_throw e

theorem touches_urlopen (url : String) : (urlopen env url).Touches lost new := by
  refine touches_call (fun n fs a fs' h => ?_) fun _ fs => .refl fs
  cases h
  exact .refl fs

theorem touches_runCommand (command : List String) (target : Path) :
    (runCommand env command target).Touches (fun q => target <+: q) (fun q => target <+: q) := by
  refine touches_call (fun n fs a fs' h => ?_) fun i fs => FileSystem.changes_place fs target i.tree
  split at h
  · cases h
    exact .refl fs
  · cases h
    exact FileSystem.changes_place fs target _

theorem runCommand_success {command : List String} {target : Path}
    (h : runCommand env command target w = (.ok .success, w')) :
    ∃ tree, env.run w.clock command = (.success, tree) ∧ w'.fs = w.fs.place target tree := by
  have hstep := call_eq_ok h
  split at hstep
  · cases hstep
  · rename_i exit tree hnot hrun
    obtain ⟨rfl, hfs⟩ := Prod.mk.inj (Except.ok.inj hstep)
    exact ⟨tree, hrun, hfs.symm⟩

/-- The directory is new, and its name ends with the label and the token. -/
theorem mkdtemp_eq_ok {dir p : Path} {label : String} (h : mkdtemp env dir label w = (.ok p, w')) :
    p = temporaryPath dir label (env.token w.clock) ∧ w.fs.mkdir p = .ok w'.fs := by
  have hstep := call_eq_ok h
  simp only at hstep
  split_ifs at hstep
  obtain ⟨fs', hfs, heq⟩ := map_eq_ok.1 hstep
  cases heq
  exact ⟨rfl, hfs⟩

theorem touches_mkdtemp (dir : Path) (label : String) : (mkdtemp env dir label).Touches lost new := by
  refine touches_call (fun n fs a fs' h => ?_) fun _ fs => .refl fs
  simp only at h
  split_ifs at h
  obtain ⟨fs'', hfs, heq⟩ := map_eq_ok.1 h
  cases heq
  exact (FileSystem.changes_mkdir hfs).mono (fun _ => False.elim) fun _ => False.elim

/-- The name of a temporary directory ends with the last character of its label and the token. -/
theorem exists_name_temporaryPath (dir : Path) (label : List Char) {c : Char} (hc : c ≠ '/')
    (token : Token) :
    ∃ parent name, temporaryPath dir (String.ofList (label ++ [c])) token = parent ++ [name] ∧
      c ∈ name.toList := by
  refine ⟨_, _, rfl, ?_⟩
  simp only [String.toList_ofList, String.toList_append, List.reverse_append,
    List.reverse_cons, List.reverse_nil, List.nil_append, List.singleton_append, List.mem_reverse]
  rw [List.takeWhile_append_of_pos]
  · simp [hc]
  · intro d hd
    have : d ≠ '/' := fun h => token.no_slash (h ▸ List.mem_reverse.1 hd)
    simpa using this

end Calls

end Py
