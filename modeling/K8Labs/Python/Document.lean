import K8Labs.Python.Value

/-!
# Walking through documents

What `.get`, a `for` loop and a set make of any value of a document, and loops that collect messages.

* `text_ne_empty` : what is true has a text.
* `gather_eq_nil` : a loop collects nothing exactly when no step does.
-/

namespace Py

/-- `d.get(key, default)`. -/
def Items.getOr (items : Items) (key : String) (default : Value) : Value :=
  (items.lookup key).getD default

namespace Value

/-- The dictionary a `.get` is called on. -/
def items : Value → Except Exc Items
  | .dict items => .ok items
  | _ => .error ⟨.attributeError, "object has no attribute 'get'"⟩

/-- The elements that a `for` loop goes through. -/
def iterate : Value → Except Exc (List Value)
  | .list xs => .ok xs
  | .dict items => .ok (items.map fun item => .scalar item.1)
  | .scalar (.str s) => .ok (s.toList.map fun c => .str c.toString)
  | _ => typeError "object is not iterable"

/-- A value that is looked for in a set or a dictionary. -/
def hashed : Value → Except Exc Scalar
  | .scalar s => .ok s
  | _ => typeError "unhashable type"

/-- `v is True`. -/
def isTrue : Value → Bool
  | .scalar (.bool b) => b
  | _ => false

/-- `v is False`. -/
def isFalse : Value → Bool
  | .scalar (.bool b) => !b
  | _ => false

/-- What stands under a key, `none` when there is no such place. -/
def field (key : String) : Value → Value
  | .dict items => Items.get items key
  | _ => .none

/-- What stands at the end of a path of keys. -/
def descend (v : Value) (path : List String) : Value := path.foldl (fun v key => v.field key) v

/-- The elements of a list, none for any other value. -/
def elements : Value → List Value
  | .list xs => xs
  | _ => []

section Inversion

variable {v : Value} {d : Items} {s : Scalar} {xs : List Value}

theorem items_eq_ok : v.items = .ok d ↔ v = .dict d := by
  cases v <;> simp [items]

theorem hashed_eq_ok : v.hashed = .ok s ↔ v = .scalar s := by
  cases v <;> simp [hashed, typeError]

/-- The loop goes through the elements of a list. -/
theorem mem_iterate {x : Value} (h : v.iterate = .ok xs) (hx : x ∈ v.elements) : x ∈ xs := by
  cases v with
  | list ys =>
    cases h
    exact hx
  | scalar s => cases hx
  | dict items => cases hx

/-- The loop goes through the elements of a list and, when all it meets are dictionaries, through
nothing else. -/
theorem iterate_eq_elements (h : v.iterate = .ok xs) (hxs : ∀ x ∈ xs, ∃ d, x = .dict d) :
    xs = v.elements := by
  cases v with
  | list ys =>
    cases h
    rfl
  | dict items =>
    cases h
    cases items with
    | nil => rfl
    | cons item items =>
      obtain ⟨d, hd⟩ := hxs _ List.mem_cons_self
      cases hd
  | scalar s =>
    cases s with
    | str s =>
      cases h
      cases hs : s.toList with
      | nil => rfl
      | cons c cs =>
        obtain ⟨d, hd⟩ := hxs (.str c.toString) (by simp [hs])
        cases hd
    | _ => cases h

@[simp] theorem elements_none : elements .none = [] := rfl

theorem field_dict (d : Items) (key : String) : field key (.dict d) = d.get key := rfl

theorem field_of_index {x : Value} {key : String} (h : v.index key = .ok x) : v.field key = x := by
  cases v with
  | dict items =>
    rw [field, Items.get]
    cases hlookup : Items.lookup items key with
    | none => simp [index, hlookup] at h
    | some y => simpa [index, hlookup] using h
  | list xs => cases h
  | scalar s => cases s <;> cases h

theorem elements_orElse (v : Value) : (v.orElse (.list [])).elements = v.elements := by
  unfold orElse
  split_ifs with h
  · rfl
  · cases v with
    | list xs =>
      cases xs with
      | nil => rfl
      | cons x xs => exact absurd rfl h
    | _ => rfl

end Inversion

/-! ### Texts -/

section Texts

variable {v : Value}

theorem text_list_head (xs : List Value) : (Value.list xs).text.toList.head? = some '[' := by
  simp [text, repr]

theorem text_dict_head (d : Items) : (Value.dict d).text.toList.head? = some '\x7b' := by
  simp [text, repr]

theorem toString_int_ne_empty (n : ℤ) : toString n ≠ "" := by
  intro h
  have hnil := congrArg String.toList h
  cases n with
  | ofNat n =>
    have htext : (toString (Int.ofNat n)).toList = natDigits n := toList_toString n
    rw [htext] at hnil
    exact natDigits_ne_nil n hnil
  | negSucc n =>
    have htext : toString (Int.negSucc n) = "-" ++ toString (n + 1) := rfl
    rw [htext, String.toList_append] at hnil
    simp at hnil

theorem formatFixed_ne_empty (digits : ℕ) (q : ℚ) (h : digits ≠ 0) : formatFixed digits q ≠ "" := by
  intro heq
  have hnil := congrArg String.toList heq
  unfold formatFixed at hnil
  simp [h] at hnil

/-- The text of what is true, but for a date without any. -/
theorem text_ne_empty (htrue : v.truthy = true) (hstamp : v ≠ .scalar (.stamp "")) : v.text ≠ "" := by
  intro h
  cases v with
  | list xs =>
    have hhead := text_list_head xs
    rw [h] at hhead
    cases hhead
  | dict d =>
    have hhead := text_dict_head d
    rw [h] at hhead
    cases hhead
  | scalar s =>
    cases s with
    | none => cases htrue
    | bool b => cases b <;> exact absurd h (by decide)
    | int n => exact toString_int_ne_empty n h
    | float f =>
      cases f with
      | fin q => exact formatFixed_ne_empty _ q (by omega) h
      | _ => exact absurd h (by decide)
    | str s =>
      have hs : s = "" := h
      rw [hs] at htrue
      cases htrue
    | stamp s =>
      have hs : s = "" := h
      exact hstamp (by rw [hs])

end Texts

end Value

theorem Items.elements_getOr (d : Items) (key : String) :
    (d.getOr key (.list [])).elements = (d.get key).elements := by
  unfold Items.getOr Items.get
  cases d.lookup key <;> rfl

theorem Items.getOr_dict {d e : Items} {key : String} (h : d.getOr key (.dict []) = .dict e)
    (key' : String) : (d.get key).field key' = e.get key' := by
  unfold Items.getOr at h
  unfold Items.get
  cases hkey : d.lookup key with
  | none =>
    rw [hkey] at h
    cases h
    rfl
  | some v =>
    rw [hkey] at h
    cases h
    rfl

/-! ### Loops that collect messages -/

section Gather

variable {α β ε : Type*}

/-- The messages of every step, until one raises. -/
def gather (f : α → Except ε (List β)) (xs : List α) : Except ε (List β) :=
  (Py.traverse f xs).map List.flatten

theorem gather_eq_nil {f : α → Except ε (List β)} {xs : List α} :
    gather f xs = .ok [] ↔ ∀ x ∈ xs, f x = .ok [] := by
  rw [gather, map_eq_ok]
  induction xs with
  | nil => simp [traverse]
  | cons x xs ih =>
    rw [List.forall_mem_cons, ← ih]
    simp only [traverse, bind_eq_ok, Except.ok.injEq]
    constructor
    · rintro ⟨_, ⟨ys, hx, zs, hxs, rfl⟩, hflat⟩
      rw [List.flatten_cons, List.append_eq_nil_iff] at hflat
      exact ⟨hflat.1 ▸ hx, zs, hxs, hflat.2⟩
    · rintro ⟨hx, zs, hxs, hflat⟩
      exact ⟨[] :: zs, ⟨[], hx, zs, hxs, rfl⟩, hflat⟩

theorem gather_append (f : α → Except ε (List β)) (xs ys : List α) :
    gather f (xs ++ ys) = (gather f xs).bind fun as => (gather f ys).map (as ++ ·) := by
  rw [gather, traverse_append, gather, gather]
  cases Py.traverse f xs with
  | error e => rfl
  | ok zs =>
    cases Py.traverse f ys with
    | error e => rfl
    | ok ws => exact congrArg Except.ok List.flatten_append

/-- A loop that keeps every element. -/
theorem gather_eq_self {f : α → Except ε (List α)} {xs : List α} (h : ∀ x ∈ xs, f x = .ok [x]) :
    gather f xs = .ok xs := by
  induction xs with
  | nil => rfl
  | cons x xs ih =>
    rw [List.forall_mem_cons] at h
    rw [← List.singleton_append, gather_append, ih h.2, gather, traverse, h.1]
    rfl

/-- One message, when something is wrong. -/
def messageIf (wrong : Bool) (message : β) : List β := if wrong then [message] else []

@[simp] theorem messageIf_eq_nil {wrong : Bool} {message : β} :
    messageIf wrong message = [] ↔ wrong = false := by
  cases wrong <;> simp [messageIf]

end Gather

end Py
