import Mathlib.Data.List.Infix
import Mathlib.Data.Nat.Notation

/-!
# Replacing the matches of a pattern

`pattern.sub(f, text)` for a pattern that matches no empty text: from the left, every match that
does not overlap the one before is replaced.  The pattern is given by what it finds at the start of
a text (`Matcher`).

* `sub_of_some`, `sub_of_none` : the two steps of the scan, `sub_induction` : induction along it.
* `sub_eq_self_iff` : when matches get shorter, nothing changes exactly in a text without a match.
-/

namespace Py

/-- What a pattern finds at the start of a text: the replacement of the match and the rest behind
it. -/
structure Matcher (α : Type*) where
  matchAt : List α → Option (List α × List α)
  /-- A match is not empty, and the rest is what stands behind it. -/
  consumes : ∀ {text r rest}, matchAt text = some (r, rest) → ∃ c cs, text = c :: (cs ++ rest)

namespace Matcher

variable {α : Type*} (m : Matcher α)

/-- `sub`, behind a match with so many elements to skip. -/
def subFrom : ℕ → List α → List α
  | _, [] => []
  | k + 1, _ :: cs => subFrom k cs
  | 0, c :: cs =>
    match m.matchAt (c :: cs) with
    | some (r, rest) => r ++ subFrom (cs.length - rest.length) cs
    | none => c :: subFrom 0 cs

/-- `pattern.sub(f, text)`. -/
def sub (text : List α) : List α := m.subFrom 0 text

variable {m} {text r rest cs : List α} {c : α}

@[simp] theorem sub_nil : m.sub [] = [] := rfl

theorem subFrom_append (xs rest : List α) : m.subFrom xs.length (xs ++ rest) = m.sub rest := by
  induction xs with
  | nil => rfl
  | cons c xs ih => exact ih

theorem sub_of_some (h : m.matchAt text = some (r, rest)) : m.sub text = r ++ m.sub rest := by
  obtain ⟨c, cs, rfl⟩ := m.consumes h
  rw [sub, subFrom, h]
  dsimp only
  rw [List.length_append, Nat.add_sub_cancel, subFrom_append]

theorem sub_of_none (h : m.matchAt (c :: cs) = none) : m.sub (c :: cs) = c :: m.sub cs := by
  rw [sub, subFrom, h]
  rfl

theorem length_lt_of_matchAt (h : m.matchAt text = some (r, rest)) : rest.length < text.length := by
  obtain ⟨c, cs, rfl⟩ := m.consumes h
  rw [List.length_cons, List.length_append]
  omega

/-- Induction along the scan. -/
theorem sub_induction {P : List α → Prop} (nil : P [])
    (found : ∀ text r rest, m.matchAt text = some (r, rest) → P rest → P text)
    (skipped : ∀ c cs, m.matchAt (c :: cs) = none → P cs → P (c :: cs)) (text : List α) :
    P text := by
  generalize hn : text.length = n
  induction n using Nat.strong_induction_on generalizing text with
  | _ n ih =>
    cases text with
    | nil => exact nil
    | cons c cs =>
      cases h : m.matchAt (c :: cs) with
      | none => exact skipped c cs h (ih cs.length (by rw [← hn]; exact Nat.lt_succ_self _) cs rfl)
      | some found' =>
        obtain ⟨r, rest⟩ := found'
        exact found _ r rest h (ih rest.length (hn ▸ length_lt_of_matchAt h) rest rfl)

/-- No match begins anywhere in the text. -/
def Unmatched (m : Matcher α) (text : List α) : Prop := ∀ suffix, suffix <:+ text →
  m.matchAt suffix = none

section Shrinking

variable (hshrinks : ∀ {text r rest}, m.matchAt text = some (r, rest) →
  (r ++ rest).length < text.length)

include hshrinks

theorem length_sub_le (text : List α) : (m.sub text).length ≤ text.length := by
  induction text using m.sub_induction with
  | nil => exact le_rfl
  | found text r rest hmatch ih =>
    have hlt := hshrinks hmatch
    rw [sub_of_some hmatch]
    rw [List.length_append] at hlt ⊢
    omega
  | skipped c cs hmatch ih =>
    rw [sub_of_none hmatch]
    exact Nat.succ_le_succ ih

/-- **A text is left as it is exactly when nothing matches.** -/
theorem sub_eq_self_iff : m.sub text = text ↔ m.Unmatched text := by
  constructor
  · intro h
    induction text using m.sub_induction with
    | nil =>
      intro suffix hsuffix
      rw [List.suffix_nil.1 hsuffix]
      cases hmatch : m.matchAt [] with
      | none => rfl
      | some found =>
        obtain ⟨c, cs, hnil⟩ := m.consumes hmatch
        cases hnil
    | found text r rest hmatch _ =>
      -- the match got shorter, and what follows it did not get longer
      have hlt := hshrinks hmatch
      have hle := length_sub_le hshrinks rest
      have hlength := congrArg List.length h
      rw [sub_of_some hmatch] at hlength
      rw [List.length_append] at hlt hlength
      omega
    | skipped c cs hmatch ih =>
      rw [sub_of_none hmatch] at h
      intro suffix hsuffix
      rcases List.suffix_cons_iff.1 hsuffix with rfl | hsuffix
      · exact hmatch
      · exact ih (List.cons.inj h).2 suffix hsuffix
  · intro h
    induction text with
    | nil => rfl
    | cons c cs ih =>
      rw [sub_of_none (h _ (List.suffix_refl _)),
        ih fun suffix hsuffix => h suffix (hsuffix.trans (List.suffix_cons c cs))]

end Shrinking

end Matcher

end Py
