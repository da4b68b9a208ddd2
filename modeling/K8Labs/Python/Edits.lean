import K8Labs.Python.Dict
import K8Labs.Python.Document

/-!
# Edits of a document in place

An edit of a dictionary computes what becomes of one key from what stands under it, and may raise.
What is edited once is left alone by the same edits (`editAll_settles`) when each of them leaves its
own results alone and the later ones of its key do not undo it.
-/

namespace Py

/-- What comes out is left alone. -/
def Settles {α ε : Type*} (f : α → Except ε α) : Prop := ∀ x y, f x = .ok y → f y = .ok y

/-- Elements that are left alone one by one. -/
theorem traverse_settles {α ε : Type*} {f : α → Except ε α} (hf : Settles f) : Settles (traverse f) := by
  intro xs ys h
  rw [traverse_eq_ok] at h ⊢
  induction h with
  | nil => exact .nil
  | cons hxy _ ih => exact .cons (hf _ _ hxy) ih

namespace Dict

variable {α β ε : Type*} [DecidableEq α]

/-- `d[k] = f(d.get(k))`, where `f` may raise. -/
def edit (k : α) (f : Option β → Except ε β) (d : List (α × β)) : Except ε (List (α × β)) :=
  (f (d.lookup k)).map fun v => update k (fun _ => v) d

/-- Edits, one after the other. -/
def editAll : List (α × (Option β → Except ε β)) → List (α × β) → Except ε (List (α × β))
  | [], d => .ok d
  | e :: edits, d => (edit e.1 e.2 d).bind (editAll edits)

/-- A value that is given is left alone once it has come out. -/
def Stable (f : Option β → Except ε β) : Prop := ∀ o v, f o = .ok v → f (some v) = .ok v

/-- What the first function leaves alone, it leaves alone behind the second one. -/
def Keeps (f g : Option β → Except ε β) : Prop :=
  ∀ v w, f (some v) = .ok v → g (some v) = .ok w → f (some w) = .ok w

section Edit

variable {k k' : α} {v : β} {f g : Option β → Except ε β} {d d' : List (α × β)}
  {edits : List (α × (Option β → Except ε β))}

theorem update_of_lookup (h : d.lookup k = some v) : update k (fun _ => v) d = d := by
  induction d with
  | nil => cases h
  | cons p d ih =>
    obtain ⟨j, u⟩ := p
    rw [lookup_cons] at h
    rw [update]
    by_cases hj : j = k
    · rw [if_pos hj.symm] at h
      cases h
      rw [if_pos hj]
    · rw [if_neg (Ne.symm hj)] at h
      rw [if_neg hj, ih h]

/-- What an edit does. -/
theorem edit_eq_ok (h : edit k f d = .ok d') :
    ∃ v, f (d.lookup k) = .ok v ∧ ∀ k', d'.lookup k' = if k' = k then some v else d.lookup k' := by
  obtain ⟨v, hv, rfl⟩ := map_eq_ok.1 h
  exact ⟨v, hv, lookup_update k (fun _ => v) d⟩

/-- What an edit leaves alone. -/
theorem edit_eq_self_iff : edit k f d = .ok d ↔ ∃ v, d.lookup k = some v ∧ f (some v) = .ok v := by
  constructor
  · intro h
    obtain ⟨v, hv, hlookup⟩ := edit_eq_ok h
    have hk : d.lookup k = some v := by simpa using hlookup k
    exact ⟨v, hk, hk ▸ hv⟩
  · rintro ⟨v, hk, hv⟩
    rw [edit, hk, hv]
    exact congrArg Except.ok (update_of_lookup hk)

theorem exists_edit : (∃ d', edit k f d = .ok d') ↔ ∃ v, f (d.lookup k) = .ok v := by
  simp only [edit, map_eq_ok]
  exact ⟨fun ⟨_, v, hv, _⟩ => ⟨v, hv⟩, fun ⟨v, hv⟩ => ⟨_, v, hv, rfl⟩⟩

theorem edit_stable (hf : Stable f) (h : edit k f d = .ok d') : edit k f d' = .ok d' := by
  obtain ⟨v, hv, hlookup⟩ := edit_eq_ok h
  exact edit_eq_self_iff.2 ⟨v, (hlookup k).trans (if_pos rfl), hf _ v hv⟩

/-- An edit of another key, or one that keeps what the first one leaves alone. -/
theorem edit_keeps (hd : edit k f d = .ok d) (hkeeps : k ≠ k' ∨ Keeps f g)
    (h : edit k' g d = .ok d') : edit k f d' = .ok d' := by
  obtain ⟨v, hk, hv⟩ := edit_eq_self_iff.1 hd
  obtain ⟨w, hw, hlookup⟩ := edit_eq_ok h
  by_cases hkey : k = k'
  · subst hkey
    rw [hk] at hw
    exact edit_eq_self_iff.2 ⟨w, (hlookup k).trans (if_pos rfl),
      hkeeps.resolve_left (fun h => h rfl) v w hv hw⟩
  · exact edit_eq_self_iff.2 ⟨v, ((hlookup k).trans (if_neg hkey)).trans hk, hv⟩

theorem editAll_keeps (hd : edit k f d = .ok d) (hkeeps : ∀ e ∈ edits, k ≠ e.1 ∨ Keeps f e.2)
    (h : editAll edits d = .ok d') : edit k f d' = .ok d' := by
  induction edits generalizing d with
  | nil =>
    cases h
    exact hd
  | cons e edits ih =>
    rw [List.forall_mem_cons] at hkeeps
    obtain ⟨d₁, hd₁, hrest⟩ := bind_eq_ok.1 h
    exact ih (edit_keeps hd hkeeps.1 hd₁) hkeeps.2 hrest

/-- What comes out of some edits, each of them leaves alone. -/
theorem edit_of_editAll (hstable : ∀ e ∈ edits, Stable e.2)
    (hkeeps : edits.Pairwise fun e e' => e.1 ≠ e'.1 ∨ Keeps e.2 e'.2)
    (h : editAll edits d = .ok d') : ∀ e ∈ edits, edit e.1 e.2 d' = .ok d' := by
  induction edits generalizing d with
  | nil => exact fun e he => absurd he List.not_mem_nil
  | cons e edits ih =>
    rw [List.forall_mem_cons] at hstable
    rw [List.pairwise_cons] at hkeeps
    obtain ⟨d₁, hd₁, hrest⟩ := bind_eq_ok.1 h
    refine List.forall_mem_cons.2 ⟨?_, ih hstable.2 hkeeps.2 hrest⟩
    exact editAll_keeps (edit_stable hstable.1 hd₁) hkeeps.1 hrest

theorem editAll_eq_self (h : ∀ e ∈ edits, edit e.1 e.2 d = .ok d) : editAll edits d = .ok d := by
  induction edits with
  | nil => rfl
  | cons e edits ih =>
    rw [List.forall_mem_cons] at h
    exact bind_eq_ok.2 ⟨d, h.1, ih h.2⟩

/-- **Edits that do not undo each other** leave alone what they have edited. -/
theorem editAll_settles (hstable : ∀ e ∈ edits, Stable e.2)
    (hkeeps : edits.Pairwise fun e e' => e.1 ≠ e'.1 ∨ Keeps e.2 e'.2) : Settles (editAll edits) :=
  fun _ _ h => editAll_eq_self (edit_of_editAll hstable hkeeps h)

theorem lookup_editAll (hk : ∀ e ∈ edits, k ≠ e.1) (h : editAll edits d = .ok d') :
    d'.lookup k = d.lookup k := by
  induction edits generalizing d with
  | nil =>
    cases h
    rfl
  | cons e edits ih =>
    rw [List.forall_mem_cons] at hk
    obtain ⟨d₁, hd₁, hrest⟩ := bind_eq_ok.1 h
    obtain ⟨v, -, hlookup⟩ := edit_eq_ok hd₁
    rw [ih hk.2 hrest, hlookup, if_neg hk.1]

/-- Edits leave alone what each of them leaves alone. -/
theorem editAll_eq_self_iff (hstable : ∀ e ∈ edits, Stable e.2)
    (hkeeps : edits.Pairwise fun e e' => e.1 ≠ e'.1 ∨ Keeps e.2 e'.2) :
    editAll edits d = .ok d ↔ ∀ e ∈ edits, edit e.1 e.2 d = .ok d :=
  ⟨edit_of_editAll hstable hkeeps, editAll_eq_self⟩

/-- What comes out of some edits is left alone behind others of other keys. -/
theorem editAll_eq_self_of_editAll {edits' : List (α × (Option β → Except ε β))}
    (hstable : ∀ e ∈ edits, Stable e.2)
    (hkeeps : edits.Pairwise fun e e' => e.1 ≠ e'.1 ∨ Keeps e.2 e'.2)
    (hother : ∀ e ∈ edits, ∀ e' ∈ edits', e.1 ≠ e'.1) (hd : editAll edits d = .ok d)
    (h : editAll edits' d = .ok d') : editAll edits d' = .ok d' :=
  editAll_eq_self fun e he =>
    editAll_keeps (edit_of_editAll hstable hkeeps hd e he) (fun e' he' => .inl (hother e he e' he')) h

/-- Edits of different keys raise when one of them does. -/
theorem exists_editAll (hkeys : edits.Pairwise fun e e' => e.1 ≠ e'.1) :
    (∃ d', editAll edits d = .ok d') ↔ ∀ e ∈ edits, ∃ v, e.2 (d.lookup e.1) = .ok v := by
  induction edits generalizing d with
  | nil => exact iff_of_true ⟨d, rfl⟩ fun e he => absurd he List.not_mem_nil
  | cons e edits ih =>
    rw [List.pairwise_cons] at hkeys
    rw [List.forall_mem_cons]
    -- behind the first edit, the other keys are as they were
    have hrest : ∀ {d₁}, edit e.1 e.2 d = .ok d₁ →
        ((∃ d', editAll edits d₁ = .ok d') ↔ ∀ e' ∈ edits, ∃ v, e'.2 (d.lookup e'.1) = .ok v) := by
      intro d₁ hd₁
      obtain ⟨v, -, hlookup⟩ := edit_eq_ok hd₁
      rw [ih hkeys.2]
      refine forall₂_congr fun e' he' => ?_
      rw [hlookup, if_neg (Ne.symm (hkeys.1 e' he'))]
    rw [← exists_edit]
    constructor
    · rintro ⟨d', h⟩
      obtain ⟨d₁, hd₁, htail⟩ := bind_eq_ok.1 h
      exact ⟨⟨d₁, hd₁⟩, (hrest hd₁).1 ⟨d', htail⟩⟩
    · rintro ⟨⟨d₁, hd₁⟩, htail⟩
      obtain ⟨d', hd'⟩ := (hrest hd₁).2 htail
      exact ⟨d', bind_eq_ok.2 ⟨d₁, hd₁, hd'⟩⟩

/-- An assignment. -/
theorem stable_const (v : β) : Stable (fun _ : Option β => (.ok v : Except ε β)) :=
  fun _ _ h => h

end Edit

end Dict

/-! ### Values -/

/-- `d[key] = v`. -/
def Items.set (items : Items) (key : String) (v : Value) : Items :=
  Dict.update (Scalar.str key) (fun _ => v) items

namespace Value

/-- What an edit makes of a value that must be there. -/
def required (key : String) (f : Value → Except Exc Value) : Option Value → Except Exc Value
  | some v => f v
  | Option.none => .error ⟨.keyError, key⟩

/-- What an edit makes of a value, of a default when there is none. -/
def defaulted (default : Value) (f : Value → Except Exc Value) (o : Option Value) : Except Exc Value :=
  f (o.getD default)

/-- The edits of a dictionary; on any other value they raise. -/
def editItems (refusal : Value → Exc) (f : Items → Except Exc Items) : Value → Except Exc Value
  | .dict d => (f d).map .dict
  | v => .error (refusal v)

/-- What `v[key]` raises on a value that is not a dictionary. -/
def notIndexed : Value → Exc
  | .list _ => ⟨.typeError, "list indices must be integers or slices, not str"⟩
  | .scalar (.str _) => ⟨.typeError, "string indices must be integers, not 'str'"⟩
  | _ => ⟨.typeError, "object is not subscriptable"⟩

/-- `for x in v`, where every `x` is edited in place; only the elements of a list can be. -/
def editElements (f : Value → Except Exc Value) : Value → Except Exc Value
  | .list xs => (traverse f xs).map .list
  | v => (v.iterate.bind (traverse f)).map fun _ => v

/-- `v[key]`, edited in place. -/
def editIndexed (key : String) (f : Value → Except Exc Value) : Value → Except Exc Value :=
  editItems notIndexed (Dict.edit (Scalar.str key) (required key f))

section Settles

variable {key : String} {default : Value} {f : Value → Except Exc Value}
  {g : Items → Except Exc Items} {refusal : Value → Exc} {v w : Value}

theorem stable_required (hf : Settles f) : Dict.Stable (required key f) := by
  intro o v h
  cases o with
  | none => cases h
  | some u => exact hf u v h

theorem stable_defaulted (hf : Settles f) : Dict.Stable (defaulted default f) := fun _ _ h => hf _ _ h

theorem editItems_eq_ok : editItems refusal g v = .ok w ↔
    ∃ d d', v = .dict d ∧ g d = .ok d' ∧ w = .dict d' := by
  cases v with
  | dict d =>
    rw [editItems, map_eq_ok]
    constructor
    · rintro ⟨d', hd', rfl⟩
      exact ⟨d, d', rfl, hd', rfl⟩
    · rintro ⟨d₁, d', h, hd', rfl⟩
      cases h
      exact ⟨d', hd', rfl⟩
  | list xs => exact iff_of_false (by rintro ⟨⟩) (by rintro ⟨d, d', ⟨⟩, -⟩)
  | scalar s => exact iff_of_false (by rintro ⟨⟩) (by rintro ⟨d, d', ⟨⟩, -⟩)

theorem exists_editItems : (∃ w, editItems refusal g v = .ok w) ↔
    ∃ d, v = .dict d ∧ ∃ d', g d = .ok d' := by
  simp only [editItems_eq_ok]
  exact ⟨fun ⟨_, d, d', hv, hd', _⟩ => ⟨d, hv, d', hd'⟩,
    fun ⟨d, hv, d', hd'⟩ => ⟨_, d, d', hv, hd', rfl⟩⟩

theorem editItems_settles (hg : Settles g) : Settles (editItems refusal g) := by
  intro v w h
  obtain ⟨d, d', -, hd', rfl⟩ := editItems_eq_ok.1 h
  exact editItems_eq_ok.2 ⟨d', d', rfl, hg d d' hd', rfl⟩

theorem editElements_settles (hf : Settles f) : Settles (editElements f) := by
  intro v w h
  cases v with
  | list xs =>
    obtain ⟨ys, hys, rfl⟩ := map_eq_ok.1 h
    exact map_eq_ok.2 ⟨ys, traverse_settles hf xs ys hys, rfl⟩
  | scalar s =>
    obtain ⟨-, -, rfl⟩ := map_eq_ok.1 h
    exact h
  | dict d =>
    obtain ⟨-, -, rfl⟩ := map_eq_ok.1 h
    exact h

theorem exists_editElements :
    (∃ w, editElements f v = .ok w) ↔ ∃ xs, v.iterate = .ok xs ∧ ∀ x ∈ xs, ∃ y, f x = .ok y := by
  have hloop : (∃ ys, v.iterate.bind (traverse f) = .ok ys) ↔
      ∃ xs, v.iterate = .ok xs ∧ ∀ x ∈ xs, ∃ y, f x = .ok y := by
    simp only [bind_eq_ok, ← traverse_isOk]
    exact ⟨fun ⟨ys, xs, hxs, hys⟩ => ⟨xs, hxs, ys, hys⟩, fun ⟨xs, hxs, ys, hys⟩ => ⟨ys, xs, hxs, hys⟩⟩
  rw [← hloop]
  cases v <;> simp only [editElements, map_eq_ok] <;>
    exact ⟨fun ⟨_, ys, hys, _⟩ => ⟨ys, hys⟩, fun ⟨ys, hys⟩ => ⟨_, ys, hys, rfl⟩⟩

theorem editElements_eq_self (h : ∃ w, editElements f v = .ok w) :
    editElements f v = .ok v ↔ ∀ x ∈ v.elements, f x = .ok x := by
  cases v with
  | list xs =>
    rw [editElements, map_eq_ok]
    simp only [Value.list.injEq, exists_eq_right, elements, traverse_eq_ok, List.forall₂_same]
  | scalar s =>
    obtain ⟨w, hw⟩ := h
    obtain ⟨ys, hys, -⟩ := map_eq_ok.1 hw
    exact iff_of_true (map_eq_ok.2 ⟨ys, hys, rfl⟩) fun x hx => absurd hx List.not_mem_nil
  | dict d =>
    obtain ⟨w, hw⟩ := h
    obtain ⟨ys, hys, -⟩ := map_eq_ok.1 hw
    exact iff_of_true (map_eq_ok.2 ⟨ys, hys, rfl⟩) fun x hx => absurd hx List.not_mem_nil

theorem editIndexed_settles (hf : Settles f) : Settles (editIndexed key f) :=
  editItems_settles fun _ _ h => Dict.edit_stable (stable_required hf) h

/-- What stands under a key stands in a dictionary. -/
theorem eq_dict_of_field (h : v.field key = w) (hne : w ≠ .none) :
    ∃ d : Items, v = .dict d ∧ d.get key = w := by
  cases v with
  | dict d => exact ⟨d, rfl, h⟩
  | list xs => exact absurd h.symm hne
  | scalar s => exact absurd h.symm hne

/-- What stands under the key is edited. -/
theorem editIndexed_eq_ok (h : editIndexed key f v = .ok w) : f (v.field key) = .ok (w.field key) := by
  obtain ⟨d, d', rfl, hd', rfl⟩ := editItems_eq_ok.1 h
  obtain ⟨u', hu', hlookup⟩ := Dict.edit_eq_ok hd'
  have hkey : List.lookup (Scalar.str key) d' = some u' := by simpa using hlookup (Scalar.str key)
  cases hu : List.lookup (Scalar.str key) d with
  | none =>
    rw [hu] at hu'
    cases hu'
  | some u =>
    rw [hu] at hu'
    rw [field, Items.get, Items.lookup, hu, field, Items.get, Items.lookup, hkey]
    exact hu'

end Settles

end Value

namespace Items

variable {items : Items} {key key' : String} {v : Value}

theorem lookup_set (items : Items) (key : String) (v : Value) (key' : String) :
    (items.set key v).lookup key' = if key' = key then some v else items.lookup key' := by
  rw [set, lookup, Dict.lookup_update]
  simp only [Scalar.str.injEq]
  rfl

theorem set_of_lookup (h : items.lookup key = some v) : items.set key v = items :=
  Dict.update_of_lookup h

theorem get_set_of_ne (h : key' ≠ key) (items : Items) (v : Value) :
    (items.set key v).get key' = items.get key' := by
  rw [get, lookup_set, if_neg h, get]

theorem get_set (items : Items) (key : String) (v : Value) : (items.set key v).get key = v := by
  rw [get, lookup_set, if_pos rfl]
  rfl

/-- What is not the default is there. -/
theorem lookup_of_getOr {default : Value} (h : items.getOr key default = v) (hne : v ≠ default) :
    items.lookup key = some v := by
  rw [getOr] at h
  cases hlookup : items.lookup key with
  | none =>
    rw [hlookup] at h
    exact absurd h.symm hne
  | some u =>
    rw [hlookup] at h
    exact congrArg some h

theorem lookup_of_get (h : items.get key = v) (hne : v ≠ .none) : items.lookup key = some v :=
  lookup_of_getOr h hne

theorem getOr_set (items : Items) (key : String) (v d : Value) : (items.set key v).getOr key d = v := by
  rw [getOr, lookup_set, if_pos rfl]
  rfl

end Items

end Py
