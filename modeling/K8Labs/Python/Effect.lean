import Mathlib.Data.Nat.Notation
import Mathlib.Order.Defs.Unbundled

/-!
# Effects on a state

A computation `Effect σ ε α` runs in a state and returns a value or raises; what it changed before
it raised stays changed.

* `bind_eq_ok` and its like say what a computation that returned has done, step by step.
* `Ends` is a triple with one postcondition for a return and one for an exception; its rules follow
  the shape of the program.
* `Moves` relates the state a computation begins in to the state it ends in.
* `Follows` says of a run where it may be left, and in which state; `AtEnd` is what holds there.
* `Run` adds the states at the points passed so far, at each of which the run may be broken off.
-/

namespace Py

/-- A computation that changes a state and may raise. -/
def Effect (σ ε α : Type) := σ → Except ε α × σ

namespace Effect

variable {σ ε α β : Type}

/-- `raise`. -/
def throw (e : ε) : Effect σ ε α := fun s => (.error e, s)

/-- The second computation runs unless the first raises. -/
def bind (x : Effect σ ε α) (f : α → Effect σ ε β) : Effect σ ε β := fun s =>
  match x s with
  | (.ok a, s') => f a s'
  | (.error e, s') => (.error e, s')

instance : Monad (Effect σ ε) where
  pure a := fun s => (.ok a, s)
  bind := bind

/-- A computation that does not look at the state. -/
def lift (x : Except ε α) : Effect σ ε α := fun s => (x, s)

/-- The state. -/
def get : Effect σ ε σ := fun s => (.ok s, s)

/-- A change of the state. -/
def modify (f : σ → σ) : Effect σ ε Unit := fun s => (.ok (), f s)

/-- A call that changes the state, or raises and leaves it. -/
def change (f : σ → Except ε σ) : Effect σ ε Unit := fun s =>
  match f s with
  | .ok s' => (.ok (), s')
  | .error e => (.error e, s)

/-- A loop over a list. -/
def forEach (f : α → Effect σ ε Unit) : List α → Effect σ ε Unit
  | [] => pure ()
  | x :: xs => f x >>= fun _ => forEach f xs

/-- A comprehension. -/
def collect (f : α → Effect σ ε β) : List α → Effect σ ε (List β)
  | [] => pure []
  | x :: xs => f x >>= fun b => collect f xs >>= fun bs => pure (b :: bs)

/-- `if condition: …`. -/
def onlyIf (condition : Bool) (x : Effect σ ε Unit) : Effect σ ε Unit :=
  if condition then x else pure ()

/-- `try … except`, with a handler that may raise again. -/
def tryCatch (x : Effect σ ε α) (handler : ε → Effect σ ε α) : Effect σ ε α := fun s =>
  match x s with
  | (.ok a, s') => (.ok a, s')
  | (.error e, s') => handler e s'

/-- `try … finally`. -/
def tryFinally (x : Effect σ ε α) (last : Effect σ ε Unit) : Effect σ ε α := fun s =>
  match last (x s).2 with
  | (.ok _, s') => ((x s).1, s')
  | (.error e, s') => (.error e, s')

/-! ### Computations that return -/

section Returns

variable {x : Effect σ ε α} {f : α → Effect σ ε β} {s s' s'' : σ} {a : α} {b : β} {e : ε}

theorem bind_of_ok (h : x s = (.ok a, s')) : (x >>= f) s = f a s' := by
  show Effect.bind x f s = _
  rw [Effect.bind, h]

theorem bind_of_error (h : x s = (.error e, s')) : (x >>= f) s = (.error e, s') := by
  show Effect.bind x f s = _
  rw [Effect.bind, h]

theorem tryFinally_of_ok {last : Effect σ ε Unit} {r : Except ε α} (hx : x s = (r, s'))
    (hlast : last s' = (.ok (), s'')) : tryFinally x last s = (r, s'') := by
  simp only [tryFinally, hx, hlast]

theorem tryFinally_of_error {last : Effect σ ε Unit} {r : Except ε α} (hx : x s = (r, s'))
    (hlast : last s' = (.error e, s'')) : tryFinally x last s = (.error e, s'') := by
  simp only [tryFinally, hx, hlast]

theorem tryFinally_state {last : Effect σ ε Unit} :
    (tryFinally x last s).2 = (last (x s).2).2 := by
  unfold tryFinally
  split <;> rename_i h <;> rw [h]

theorem tryCatch_of_ok {handler : ε → Effect σ ε α} (hx : x s = (.ok a, s')) :
    tryCatch x handler s = (.ok a, s') := by
  simp only [tryCatch, hx]

theorem tryCatch_of_error {handler : ε → Effect σ ε α} (hx : x s = (.error e, s')) :
    tryCatch x handler s = handler e s' := by
  simp only [tryCatch, hx]

theorem bind_eq_ok : (x >>= f) s = (.ok b, s'') ↔
    ∃ a s', x s = (.ok a, s') ∧ f a s' = (.ok b, s'') := by
  constructor
  · intro h
    obtain ⟨r, s₁, hx⟩ : ∃ r s₁, x s = (r, s₁) := ⟨_, _, rfl⟩
    cases r with
    | ok a => exact ⟨a, s₁, hx, (bind_of_ok hx).symm.trans h⟩
    | error e =>
      rw [bind_of_error hx] at h
      cases h
  · rintro ⟨a, s', hx, hf⟩
    exact (bind_of_ok hx).trans hf

theorem pure_eq_ok {b : α} : (pure a : Effect σ ε α) s = (.ok b, s') ↔ a = b ∧ s = s' := by
  show ((Except.ok a, s) : Except ε α × σ) = _ ↔ _
  rw [Prod.mk.injEq, Except.ok.injEq]

theorem lift_eq_ok {r : Except ε α} : (lift r : Effect σ ε α) s = (.ok a, s') ↔ r = .ok a ∧ s = s' := by
  rw [lift, Prod.mk.injEq]

theorem get_eq_ok {t : σ} : (get : Effect σ ε σ) s = (.ok t, s') ↔ s = t ∧ s = s' := by
  rw [get, Prod.mk.injEq, Except.ok.injEq]

theorem modify_eq_ok {f : σ → σ} : (modify f : Effect σ ε Unit) s = (.ok (), s') ↔ f s = s' := by
  simp [modify]

theorem change_of_ok {g : σ → Except ε σ} (h : g s = .ok s') : change g s = (.ok (), s') := by
  rw [change, h]

theorem change_of_error {g : σ → Except ε σ} (h : g s = .error e) : change g s = (.error e, s) := by
  rw [change, h]

end Returns

/-! ### However a computation ends -/

/-- From states with `pre`, the computation ends in `post` when it returns and in `raised` when it
raises. -/
def Ends (pre : σ → Prop) (x : Effect σ ε α) (post : α → σ → Prop) (raised : σ → Prop) : Prop :=
  ∀ s, pre s → match x s with
    | (.ok a, s') => post a s'
    | (.error _, s') => raised s'

section Ends

variable {pre : σ → Prop} {x : Effect σ ε α} {post : α → σ → Prop} {raised : σ → Prop}

theorem Ends.of_ok {s s' : σ} {a : α} (h : Ends pre x post raised) (hs : pre s)
    (hx : x s = (.ok a, s')) : post a s' := by
  have := h s hs
  rwa [hx] at this

theorem Ends.of_error {s s' : σ} {e : ε} (h : Ends pre x post raised) (hs : pre s)
    (hx : x s = (.error e, s')) : raised s' := by
  have := h s hs
  rwa [hx] at this

/-- What holds of every state the computation can end in. -/
theorem Ends.of_all (h : ∀ s r s', pre s → x s = (r, s') →
    match r with
    | .ok a => post a s'
    | .error _ => raised s') : Ends pre x post raised := by
  intro s hs
  obtain ⟨r, s', hx⟩ : ∃ r s', x s = (r, s') := ⟨_, _, rfl⟩
  have := h s r s' hs hx
  rw [hx]
  cases r <;> exact this

theorem Ends.bind {mid : α → σ → Prop} {f : α → Effect σ ε β} {post : β → σ → Prop}
    (hx : Ends pre x mid raised) (hf : ∀ a, Ends (mid a) (f a) post raised) :
    Ends pre (x >>= f) post raised := by
  refine .of_all fun s r s' hs h => ?_
  obtain ⟨first, s₁, hfirst⟩ : ∃ r s₁, x s = (r, s₁) := ⟨_, _, rfl⟩
  cases first with
  | ok a =>
    rw [bind_of_ok hfirst] at h
    have := hf a s₁ (hx.of_ok hs hfirst)
    rw [h] at this
    cases r <;> exact this
  | error e =>
    rw [bind_of_error hfirst] at h
    cases h
    exact hx.of_error hs hfirst

theorem Ends.weaken {pre' : σ → Prop} (h : Ends pre x post raised) (hpre : ∀ s, pre' s → pre s) :
    Ends pre' x post raised :=
  fun s hs => h s (hpre s hs)

theorem Ends.imp {post' : α → σ → Prop} {raised' : σ → Prop} (h : Ends pre x post raised)
    (hpost : ∀ a s, post a s → post' a s) (hraised : ∀ s, raised s → raised' s) :
    Ends pre x post' raised' := by
  refine .of_all fun s r s' hs hx => ?_
  cases r with
  | ok a => exact hpost a s' (h.of_ok hs hx)
  | error e => exact hraised s' (h.of_error hs hx)

theorem ends_true : Ends pre x (fun _ _ => True) fun _ => True := by
  refine .of_all fun s r s' _ _ => ?_
  cases r <;> trivial

theorem ends_pure {a : α} (h : ∀ s, pre s → post a s) :
    Ends pre (pure a : Effect σ ε α) post raised :=
  fun s hs => h s hs

theorem ends_throw {e : ε} (h : ∀ s, pre s → raised s) : Ends pre (throw e) post raised :=
  fun s hs => h s hs

theorem ends_modify {f : σ → σ} {post : Unit → σ → Prop} (h : ∀ s, pre s → post () (f s)) :
    Ends pre (modify f : Effect σ ε Unit) post raised :=
  fun s hs => h s hs

/-- What is known of the state that is read. -/
theorem ends_bind_get {f : σ → Effect σ ε β} {post : β → σ → Prop}
    (h : ∀ t, Ends (fun s => s = t ∧ pre s) (f t) post raised) :
    Ends pre (get >>= f) post raised :=
  fun s hs => h s s ⟨rfl, hs⟩

/-- A loop, by what holds when a part of the list is done. -/
theorem ends_forEach {f : α → Effect σ ε Unit} (inv : List α → σ → Prop) {xs : List α}
    (h : ∀ before x rest, xs = before ++ x :: rest →
      Ends (inv before) (f x) (fun _ => inv (before ++ [x])) raised) :
    Ends (inv []) (forEach f xs) (fun _ => inv xs) raised := by
  have key : ∀ rest before, xs = before ++ rest →
      Ends (inv before) (forEach f rest) (fun _ => inv xs) raised := by
    intro rest
    induction rest with
    | nil =>
      intro before heq
      rw [List.append_nil] at heq
      exact ends_pure fun s hs => heq ▸ hs
    | cons x rest ih =>
      intro before heq
      refine (h before x rest heq).bind fun _ => ih (before ++ [x]) ?_
      rw [heq, List.append_assoc, List.singleton_append]
  exact key xs [] rfl

/-- A comprehension whose values have a property that the rest of it keeps. -/
theorem ends_collect {f : α → Effect σ ε β} {Q : β → σ → Prop} {xs : List α}
    (h : ∀ x ∈ xs, Ends raised (f x) (fun b s => raised s ∧ Q b s) raised)
    (hkeep : ∀ x ∈ xs, ∀ b,
      Ends (fun s => raised s ∧ Q b s) (f x) (fun _ s => raised s ∧ Q b s) raised) :
    Ends raised (collect f xs) (fun bs s => raised s ∧ ∀ b ∈ bs, Q b s) raised := by
  -- the values so far keep the property while the rest is computed
  have key : ∀ xs' : List α, (∀ x ∈ xs', x ∈ xs) → ∀ done : List β,
      Ends (fun s => raised s ∧ ∀ b ∈ done, Q b s) (collect f xs')
        (fun bs s => raised s ∧ ∀ b ∈ done ++ bs, Q b s) raised := by
    intro xs'
    induction xs' with
    | nil =>
      intro _ done
      refine ends_pure fun s hs => ?_
      rwa [List.append_nil]
    | cons x xs' ih =>
      intro hsub done
      have hx := hsub x List.mem_cons_self
      have hfirst : Ends (fun s => raised s ∧ ∀ b ∈ done, Q b s) (f x)
          (fun b s => raised s ∧ ∀ c ∈ done ++ [b], Q c s) raised := by
        refine .of_all fun s r s' hs heq => ?_
        cases r with
        | error e => exact (h x hx).of_error hs.1 heq
        | ok b =>
          obtain ⟨hs', hb⟩ := (h x hx).of_ok hs.1 heq
          refine ⟨hs', fun c hc => ?_⟩
          rcases List.mem_append.1 hc with hc | hc
          · exact ((hkeep x hx c).of_ok ⟨hs.1, hs.2 c hc⟩ heq).2
          · rwa [List.mem_singleton.1 hc]
      refine hfirst.bind fun b => (ih (fun y hy => hsub y (List.mem_cons_of_mem x hy)) _).bind ?_
      intro bs
      refine ends_pure fun s hs => ?_
      rwa [List.append_assoc] at hs
  exact (key xs (fun _ => id) []).weaken fun s hs => ⟨hs, by simp⟩

theorem Ends.tryFinally {mid : α → σ → Prop} {caught : σ → Prop} {last : Effect σ ε Unit}
    (hx : Ends pre x mid caught) (hpost : ∀ a, Ends (mid a) last (fun _ => post a) raised)
    (hraised : Ends caught last (fun _ => raised) raised) :
    Ends pre (tryFinally x last) post raised := by
  intro s hs
  have hfirst := hx s hs
  obtain ⟨r, s', heq⟩ : ∃ r s', x s = (r, s') := ⟨_, _, rfl⟩
  obtain ⟨r', s'', hlast⟩ : ∃ r s'', last s' = (r, s'') := ⟨_, _, rfl⟩
  rw [heq] at hfirst
  simp only [Effect.tryFinally, heq, hlast]
  cases r with
  | ok a =>
    have hafter := hpost a s' hfirst
    rw [hlast] at hafter
    cases r' <;> exact hafter
  | error e =>
    have hafter := hraised s' hfirst
    rw [hlast] at hafter
    cases r' <;> exact hafter

theorem Ends.tryCatch {caught : σ → Prop} {handler : ε → Effect σ ε α}
    (hx : Ends pre x post caught) (hh : ∀ e, Ends caught (handler e) post raised) :
    Ends pre (tryCatch x handler) post raised := by
  intro s hs
  have hfirst := hx s hs
  obtain ⟨r, s', heq⟩ : ∃ r s', x s = (r, s') := ⟨_, _, rfl⟩
  rw [heq] at hfirst
  simp only [Effect.tryCatch, heq]
  cases r with
  | ok a => exact hfirst
  | error e => exact hh e s' hfirst

/-- What holds of the state however the computation ends. -/
theorem Ends.after {inv : σ → Prop} {s : σ} (h : Ends pre x (fun _ => inv) inv) (hs : pre s) :
    inv (x s).2 := by
  obtain ⟨r, s', hx⟩ : ∃ r s', x s = (r, s') := ⟨_, _, rfl⟩
  rw [hx]
  cases r with
  | ok a => exact h.of_ok hs hx
  | error e => exact h.of_error hs hx

end Ends

/-! ### Invariants -/

/-- However the computation ends, the invariant still holds. -/
def Preserves (inv : σ → Prop) (x : Effect σ ε α) : Prop := Ends inv x (fun _ => inv) inv

section Preserves

variable {inv : σ → Prop} {x : Effect σ ε α} {f : α → Effect σ ε β}

theorem Preserves.bind (hx : Preserves inv x) (hf : ∀ a, Preserves inv (f a)) :
    Preserves inv (x >>= f) := Ends.bind hx hf

theorem preserves_pure (a : α) : Preserves inv (pure a : Effect σ ε α) := ends_pure fun _ => id

theorem preserves_throw (e : ε) : Preserves inv (throw e : Effect σ ε α) := ends_throw fun _ => id

theorem preserves_lift (r : Except ε α) : Preserves inv (lift r : Effect σ ε α) := by
  intro s hs
  cases r <;> exact hs

theorem preserves_get : Preserves inv (get : Effect σ ε σ) := fun _ hs => hs

theorem preserves_modify {f : σ → σ} (h : ∀ s, inv s → inv (f s)) :
    Preserves inv (modify f : Effect σ ε Unit) := ends_modify h

theorem preserves_forEach {f : α → Effect σ ε Unit} {xs : List α}
    (h : ∀ x ∈ xs, Preserves inv (f x)) : Preserves inv (forEach f xs) :=
  ends_forEach (fun _ => inv) fun before x _ heq =>
    h x (heq ▸ List.mem_append_right before List.mem_cons_self)

theorem Preserves.after {s : σ} (h : Preserves inv x) (hs : inv s) : inv (x s).2 :=
  Ends.after h hs

end Preserves

/-! ### From the first state to the last -/

/-- However the computation ends, the state it ends in is related to the one it began in. -/
def Moves (R : σ → σ → Prop) (x : Effect σ ε α) : Prop := ∀ s, R s (x s).2

section Moves

variable {R : σ → σ → Prop} {x : Effect σ ε α} {f : α → Effect σ ε β}

theorem Moves.imp {R' : σ → σ → Prop} (hx : Moves R x) (h : ∀ s s', R s s' → R' s s') :
    Moves R' x := fun s => h s _ (hx s)

/-- A property of the first state that the relation carries over. -/
theorem Moves.preserves {inv : σ → Prop} (hx : Moves R x) (h : ∀ s s', R s s' → inv s → inv s') :
    Preserves inv x := by
  refine .of_all fun s r s' hs heq => ?_
  have hmove := hx s
  rw [heq] at hmove
  have hafter := h s s' hmove hs
  cases r <;> exact hafter

section Refl

variable [Std.Refl R]

theorem moves_pure (a : α) : Moves R (pure a : Effect σ ε α) := fun s => refl_of R s

theorem moves_throw (e : ε) : Moves R (throw e : Effect σ ε α) := fun s => refl_of R s

theorem moves_lift (r : Except ε α) : Moves R (lift r : Effect σ ε α) := fun s => refl_of R s

theorem moves_get : Moves R (get : Effect σ ε σ) := fun s => refl_of R s

theorem moves_onlyIf {condition : Bool} {x : Effect σ ε Unit} (hx : Moves R x) :
    Moves R (onlyIf condition x) := by
  cases condition with
  | false => exact moves_pure ()
  | true => exact hx

end Refl

section Trans

variable [IsTrans σ R]

theorem Moves.bind (hx : Moves R x) (hf : ∀ a, Moves R (f a)) : Moves R (x >>= f) := by
  intro s
  obtain ⟨r, s', heq⟩ : ∃ r s', x s = (r, s') := ⟨_, _, rfl⟩
  have hfirst := hx s
  rw [heq] at hfirst
  cases r with
  | ok a =>
    rw [bind_of_ok heq]
    exact trans_of R hfirst (hf a s')
  | error e =>
    rw [bind_of_error heq]
    exact hfirst

theorem Moves.tryCatch {handler : ε → Effect σ ε α} (hx : Moves R x)
    (hh : ∀ e, Moves R (handler e)) : Moves R (tryCatch x handler) := by
  intro s
  obtain ⟨r, s', heq⟩ : ∃ r s', x s = (r, s') := ⟨_, _, rfl⟩
  have hfirst := hx s
  rw [heq] at hfirst
  simp only [Effect.tryCatch, heq]
  cases r with
  | ok a => exact hfirst
  | error e => exact trans_of R hfirst (hh e s')

end Trans

variable [IsPreorder σ R]

theorem moves_forEach {f : α → Effect σ ε Unit} {xs : List α} (h : ∀ x ∈ xs, Moves R (f x)) :
    Moves R (forEach f xs) := by
  induction xs with
  | nil => exact moves_pure ()
  | cons x xs ih =>
    exact (h x List.mem_cons_self).bind fun _ => ih fun y hy => h y (List.mem_cons_of_mem x hy)

theorem moves_collect {xs : List α} (h : ∀ x ∈ xs, Moves R (f x)) : Moves R (collect f xs) := by
  induction xs with
  | nil => exact moves_pure []
  | cons x xs ih =>
    refine (h x List.mem_cons_self).bind fun b => ?_
    exact (ih fun y hy => h y (List.mem_cons_of_mem x hy)).bind fun bs => moves_pure (b :: bs)

end Moves

/-! ### Timetables

A timetable lists the places of a run at which it may be left: what stops it there, if anything
does, and the state there. -/

/-- Where the run is left. -/
def left : List (Option ε × σ) → Option (ε × σ)
  | [] => none
  | (some e, s) :: _ => some (e, s)
  | (none, _) :: rest => left rest

/-- The run goes by the timetable; past its end, it returns the value in the last state. -/
def Follows (x : Effect σ ε α) (s : σ) (table : List (Option ε × σ)) (a : α) (last : σ) : Prop :=
  x s = match left table with
    | some (e, s') => (.error e, s')
    | none => (.ok a, last)

/-- `raise`, or nothing. -/
def happens : Option ε → Effect σ ε Unit
  | none => pure ()
  | some e => throw e

section Follows

variable {x : Effect σ ε α} {f : α → Effect σ ε β} {s s' s'' : σ} {a : α} {b : β}
  {table table' : List (Option ε × σ)}

theorem left_append : left (table ++ table') = (left table).or (left table') := by
  induction table with
  | nil => rfl
  | cons place rest ih =>
    obtain ⟨e, s⟩ := place
    cases e with
    | none => exact ih
    | some e => rfl

theorem Follows.of_left {e : ε} (h : Follows x s table a s') (hl : left table = some (e, s'')) :
    x s = (.error e, s'') := by
  rw [Follows, hl] at h
  exact h

theorem Follows.of_none (h : Follows x s table a s') (hl : left table = none) :
    x s = (.ok a, s') := by
  rw [Follows, hl] at h
  exact h

theorem follows_pure : Follows (pure a : Effect σ ε α) s [] a s := rfl

theorem follows_lift : Follows (fun s => (.ok a, s) : Effect σ ε α) s [] a s := rfl

theorem follows_modify {g : σ → σ} : Follows (modify g : Effect σ ε Unit) s [] () (g s) := rfl

theorem follows_happens {e : Option ε} : Follows (happens e) s [(e, s)] () s := by
  cases e <;> rfl

theorem Follows.bind (hx : Follows x s table a s') (hf : Follows (f a) s' table' b s'') :
    Follows (x >>= f) s (table ++ table') b s'' := by
  rw [Follows, left_append]
  cases hl : left table with
  | some place => exact bind_of_error (hx.of_left hl)
  | none => exact (bind_of_ok (hx.of_none hl)).trans hf

/-- A loop whose body leaves the state as it is. -/
theorem follows_forEach {γ : Type} {g : γ → Effect σ ε Unit} {xs : List γ}
    {tables : γ → List (Option ε × σ)} (h : ∀ c, Follows (g c) s (tables c) () s) :
    Follows (forEach g xs) s (xs.flatMap tables) () s := by
  induction xs with
  | nil => exact follows_pure
  | cons c rest ih =>
    rw [List.flatMap_cons]
    exact (h c).bind ih

end Follows

section AtEnd

variable {table table' : List (Option ε × σ)} {Q : ε → σ → Prop} {P : Prop} {e : ε} {s : σ}

/-- What holds at the place where the run is left, or else past its end. -/
def AtEnd (table : List (Option ε × σ)) (Q : ε → σ → Prop) (P : Prop) : Prop :=
  match left table with
  | some (e, s) => Q e s
  | none => P

theorem mem_of_left (h : left table = some (e, s)) : (some e, s) ∈ table := by
  induction table with
  | nil => cases h
  | cons first rest ih =>
    obtain ⟨e', s'⟩ := first
    cases e' with
    | none => exact List.mem_cons_of_mem _ (ih h)
    | some e' =>
      cases h
      exact List.mem_cons_self

/-- What the run is left with is the first of the stops. -/
theorem map_fst_left : (left table).map Prod.fst = (table.map Prod.fst).findSome? id := by
  induction table with
  | nil => rfl
  | cons place rest ih =>
    obtain ⟨e, s⟩ := place
    cases e with
    | none => exact ih
    | some e => rfl

theorem AtEnd.of_left (h : left table = some (e, s)) : AtEnd table Q P ↔ Q e s := by
  rw [AtEnd, h]

theorem AtEnd.of_none (h : left table = none) : AtEnd table Q P ↔ P := by
  rw [AtEnd, h]

theorem atEnd_nil : AtEnd [] Q P ↔ P := Iff.rfl

theorem atEnd_cons {o : Option ε} : AtEnd ((o, s) :: table) Q P ↔
    (∃ e, o = some e ∧ Q e s) ∨ o = none ∧ AtEnd table Q P := by
  cases o with
  | none => simp [AtEnd, left]
  | some e => simp [AtEnd, left]

theorem atEnd_cons_of_not {o : Option ε} (h : ∀ e, ¬Q e s) :
    AtEnd ((o, s) :: table) Q P ↔ o = none ∧ AtEnd table Q P := by
  rw [atEnd_cons, or_iff_right]
  rintro ⟨e, -, hq⟩
  exact h e hq

theorem atEnd_append : AtEnd (table ++ table') Q P ↔ AtEnd table Q (AtEnd table' Q P) := by
  unfold AtEnd
  rw [left_append]
  cases left table <;> rfl

end AtEnd

/-! ### Points of a run -/

/-- A run: the state now, and the states at the points passed so far. -/
structure Run (σ : Type) where
  now : σ
  seen : List σ

/-- A point of the run, where it may be broken off. -/
def point (interrupt : ℕ → Option ε) : Effect (Run σ) ε Unit := fun s =>
  (match interrupt s.seen.length with
    | none => .ok ()
    | some e => .error e, { s with seen := s.seen ++ [s.now] })

/-- A call that changes the state; it may be broken off before and after. -/
def act (interrupt : ℕ → Option ε) (f : σ → σ) : Effect (Run σ) ε Unit :=
  point interrupt >>= fun _ =>
  modify (fun s => { s with now := f s.now }) >>= fun _ => point interrupt

/-- The number of the points passed. -/
def passed : Effect (Run σ) ε ℕ := fun s => (.ok s.seen.length, s)

section Run

variable {interrupt : ℕ → Option ε} {s s' : Run σ}

theorem point_of_none (h : interrupt s.seen.length = none) :
    point interrupt s = (.ok (), { s with seen := s.seen ++ [s.now] }) := by
  simp [point, h]

/-- A point is passed, also when the run is broken off there. -/
theorem ends_point {pre raised : Run σ → Prop} {post : Unit → Run σ → Prop}
    (hpost : ∀ s, pre s → post () { s with seen := s.seen ++ [s.now] })
    (hraised : ∀ s, pre s → raised { s with seen := s.seen ++ [s.now] }) :
    Ends pre (point interrupt) post raised := by
  intro s hs
  simp only [point]
  cases interrupt s.seen.length with
  | none => exact hpost s hs
  | some e => exact hraised s hs

end Run

end Effect

end Py
