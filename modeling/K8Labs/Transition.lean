import Mathlib.Data.List.Induction

/-!
# Transition systems

A system is given by `step`: what an event does in a state, or `none` where it cannot happen.  Its
runs are sequences of events, in any order in which they can happen.

* `run_preserves` : what every allowed step keeps, every run with allowed steps keeps.
* `run_history` : a property of the events so far and of the state they lead to.
-/

namespace Transition

variable {σ α : Type*} {step : σ → α → Option σ} {s s' : σ} {a : α} {as bs : List α}

/-- The state after a sequence of events, if each of them can happen. -/
def run (step : σ → α → Option σ) : σ → List α → Option σ
  | s, [] => some s
  | s, a :: as => (step s a).bind fun s' => run step s' as

/-- Each event is allowed in the state in which it happens. -/
def Allowed (step : σ → α → Option σ) (ok : σ → α → Prop) : σ → List α → Prop
  | _, [] => True
  | s, a :: as => ok s a ∧ ∀ s', step s a = some s' → Allowed step ok s' as

@[simp] theorem run_nil : run step s [] = some s := rfl

theorem run_cons : run step s (a :: as) = (step s a).bind fun s' => run step s' as := rfl

theorem run_append : run step s (as ++ bs) = (run step s as).bind fun s' => run step s' bs := by
  induction as generalizing s with
  | nil => rfl
  | cons a as ih => rw [List.cons_append, run_cons, run_cons, Option.bind_assoc, funext fun _ => ih]

theorem run_concat_eq_some : run step s (as ++ [a]) = some s' ↔
    ∃ t, run step s as = some t ∧ step t a = some s' := by
  rw [run_append, Option.bind_eq_some_iff]
  simp [run_cons]

/-- What every allowed step keeps, a run with allowed steps keeps. -/
theorem run_preserves {ok : σ → α → Prop} {inv : σ → Prop}
    (hstep : ∀ s a s', ok s a → step s a = some s' → inv s → inv s')
    (hallowed : Allowed step ok s as) (h : run step s as = some s') (hs : inv s) : inv s' := by
  induction as generalizing s with
  | nil =>
    cases h
    exact hs
  | cons a as ih =>
    obtain ⟨t, ht, h⟩ := Option.bind_eq_some_iff.1 h
    exact ih (hallowed.2 t ht) h (hstep s a t hallowed.1 ht hs)

theorem allowed_of_forall {ok : σ → α → Prop} (h : ∀ a ∈ as, ∀ s, ok s a) :
    Allowed step ok s as := by
  induction as generalizing s with
  | nil => trivial
  | cons a as ih =>
    exact ⟨h a List.mem_cons_self s, fun s' _ => ih fun b hb => h b (List.mem_cons_of_mem _ hb)⟩

theorem allowed_cons {ok : σ → α → Prop} (hok : ok s a) (hstep : step s a = some s')
    (h : Allowed step ok s' as) : Allowed step ok s (a :: as) :=
  ⟨hok, fun _ ht => Option.some.inj (hstep.symm.trans ht) ▸ h⟩

/-- What every step keeps, every run keeps. -/
theorem run_preserves_all {inv : σ → Prop} (hstep : ∀ s a s', step s a = some s' → inv s → inv s')
    (h : run step s as = some s') (hs : inv s) : inv s' := by
  have hok : ∀ s a s', True → step s a = some s' → inv s → inv s' := fun s a s' _ => hstep s a s'
  exact run_preserves hok (allowed_of_forall fun _ _ _ => trivial) h hs

/-- A property of the events so far and the state after them. -/
theorem run_history {P : List α → σ → Prop} (hinit : P [] s)
    (hstep : ∀ as t a t', run step s as = some t → step t a = some t' → P as t → P (as ++ [a]) t')
    (h : run step s as = some s') : P as s' := by
  induction as using List.reverseRecOn generalizing s' with
  | nil =>
    cases h
    exact hinit
  | append_singleton as a ih =>
    obtain ⟨t, ht, hlast⟩ := run_concat_eq_some.1 h
    exact hstep as t a s' ht hlast (ih ht)

end Transition
