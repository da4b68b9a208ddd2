import K8Labs.KernelBuild.SourceGate

/-!
# Normalising an interface again

The gate normalises the interfaces of its pins when it loads them and once more when it reads them,
and a list of normalised interfaces is itself a list that can be pinned.

An entry without a pattern takes its symbol for one, and an entry without a symbol takes its id or
its name for that, but only in the result: there the symbol stands beside an empty pattern, which
the next time is filled.

* `reload_iff` : **normalising is idempotent if and only if every entry that is not refused has a
  pattern when it has a name, and a name when it has an interface or a file; a list that is reloaded
  names the same interfaces in the same files in any case.**
-/

namespace KernelBuild

namespace SourceGate

open Py (Value Items Scalar Exc)

/-! ### What it is for -/

/-- What stands in an interface list: a date, a time or binary data has a text. -/
structure Entry where
  value : Value
  stamps : ∀ key, Items.get (value.asDict.getD []) key ≠ .scalar (.stamp "")

namespace Entry

/-- The keys of an entry, none where it is no dictionary. -/
def items (entry : Entry) : Items := entry.value.asDict.getD []

/-- Normalising what comes out of the normalisation changes nothing. -/
def Idempotent (entry : Entry) : Prop :=
  ∀ i, normaliseInterface entry.value = .ok i → normaliseInterface (.dict i.items) = .ok i

/-- The entry has something that is true under one of the keys. -/
def Gives (entry : Entry) (keys : List String) : Prop :=
  ∃ key ∈ keys, (entry.items.get key).truthy = true

/-- The pattern is a text, or a value that can be searched like one. -/
def Searchable (entry : Entry) : Prop :=
  ∃ pattern, escapePlain (firstTrue entry.items ["pattern", "symbol", "regex", "match"]) =
    .ok pattern

/-- An entry with a name has a pattern, and an entry with an interface or a file has a name. -/
def Complete (entry : Entry) : Prop :=
  (entry.Gives ["symbol", "id", "name"] → entry.Gives ["pattern", "symbol", "regex", "match"]) ∧
    (entry.Gives ["interface", "file", "path", "source_file", "location"] →
      entry.Gives ["symbol", "id", "name"])

end Entry

/-- A pinned file with an interface list and nothing else. -/
def listed (entries : List Value) : Items := [(.str "required_interfaces", .list entries)]

/-- The interfaces of a list, written to a pinned file and loaded again, are the same interfaces in
the same files. -/
def Reloads (entries : List Entry) : Prop :=
  ∀ is, getInterfaces (listed (entries.map Entry.value)) = .ok is →
    ∃ js, getInterfaces (loadPinned [some (.dict (listed (is.map fun i => .dict i.items)))]) =
        .ok js ∧
      js.map (fun j => (j.id, j.file)) = is.map fun i => (i.id, i.file)

/-! ### Patterns -/

/-- A pattern without special characters is escaped. -/
def plainEscape (s : String) : String :=
  if patternChars.any s.toList.contains then s else reEscape s

section Patterns

variable {s : String} {v p : Value}

theorem contains_char (c : Char) (s : String) :
    (Value.str s).contains c.toString = .ok (s.toList.contains c) := by
  have hchar : c.toString.toList = [c] := by simp [Char.toString]
  rw [Value.contains, hchar, Except.ok.injEq, Bool.eq_iff_iff, List.contains_iff_mem, List.any_eq_true]
  constructor
  · rintro ⟨tail, htail, hprefix⟩
    exact ((List.mem_tails _ _).1 htail).subset
      ((List.isPrefixOf_iff_prefix.1 hprefix).subset List.mem_cons_self)
  · intro hc
    obtain ⟨before, after, heq⟩ := List.append_of_mem hc
    refine ⟨c :: after, (List.mem_tails _ _).2 (heq ▸ List.suffix_append before _), ?_⟩
    exact List.isPrefixOf_iff_prefix.2 ⟨after, rfl⟩

theorem containsAny_eq (s : String) (cs : List Char) :
    containsAny (.str s) cs = .ok (cs.any s.toList.contains) := by
  induction cs with
  | nil => rfl
  | cons c cs ih =>
    rw [containsAny, contains_char, ih, List.any_cons]
    cases s.toList.contains c <;> rfl

theorem plainEscape_of_special (h : ∃ c ∈ patternChars, c ∈ s.toList) : plainEscape s = s := by
  obtain ⟨c, hc, hmem⟩ := h
  exact if_pos (List.any_eq_true.2 ⟨c, hc, List.contains_iff_mem.2 hmem⟩)

theorem plainEscape_of_plain (h : ¬∃ c ∈ patternChars, c ∈ s.toList) : plainEscape s = reEscape s := by
  refine if_neg fun hany => h ?_
  obtain ⟨c, hc, hmem⟩ := List.any_eq_true.1 hany
  exact ⟨c, hc, List.contains_iff_mem.1 hmem⟩

theorem plainEscape_empty : plainEscape "" = "" := rfl

theorem escapePlain_eq (s : String) : escapePlain (.str s) = .ok (.str (plainEscape s)) := by
  unfold escapePlain
  rw [containsAny_eq]
  by_cases hs : s = ""
  · rw [hs, plainEscape_empty]
    rfl
  · have htrue : (Value.str s).truthy = true := by simpa [Value.truthy] using hs
    rw [if_pos htrue, plainEscape]
    cases patternChars.any s.toList.contains <;> rfl

theorem reEscape_ne_empty (h : s ≠ "") : reEscape s ≠ "" := by
  intro heq
  have hnil := congrArg String.toList heq
  rw [reEscape, String.toList_ofList, String.toList_empty, List.flatMap_eq_nil_iff] at hnil
  refine h (String.toList_injective (List.eq_nil_iff_forall_not_mem.2 fun c hc => ?_))
  have hpart := hnil c hc
  split_ifs at hpart

theorem plainEscape_eq_empty_iff : plainEscape s = "" ↔ s = "" := by
  constructor
  · intro h
    by_contra hs
    unfold plainEscape at h
    split_ifs at h
    · exact hs h
    · exact reEscape_ne_empty hs h
  · rintro rfl
    exact plainEscape_empty

/-- What is escaped has a backslash, or is as it was. -/
theorem plainEscape_plainEscape (s : String) : plainEscape (plainEscape s) = plainEscape s := by
  by_cases hspecial : ∃ c ∈ patternChars, c ∈ s.toList
  · rw [plainEscape_of_special hspecial, plainEscape_of_special hspecial]
  have hplain := plainEscape_of_plain hspecial
  rw [hplain]
  by_cases hescaped : ∃ c ∈ escapedChars, c ∈ s.toList
  · obtain ⟨c, hc, hmem⟩ := hescaped
    refine plainEscape_of_special ⟨'\\', by decide, ?_⟩
    rw [reEscape, String.toList_ofList, List.mem_flatMap]
    exact ⟨c, hmem, by rw [if_pos (.inr hc)]; exact List.mem_cons_self⟩
  · have hsame : reEscape s = s := by
      refine String.toList_injective ?_
      have hone : ∀ c ∈ s.toList,
          (if c ∈ patternChars ∨ c ∈ escapedChars then ['\\', c] else [c]) = [c] := by
        intro c hc
        refine if_neg ?_
        rintro (h | h)
        · exact hspecial ⟨c, h, hc⟩
        · exact hescaped ⟨c, h, hc⟩
      rw [reEscape, String.toList_ofList, List.flatMap_congr hone, List.flatMap_singleton']
    rw [hsame, hplain, hsame]

/-- A value that is no text is kept. -/
theorem escapePlain_of_not_str (hnot : ∀ s, v ≠ .str s) (h : escapePlain v = .ok p) : p = v := by
  unfold escapePlain at h
  split_ifs at h
  · obtain ⟨special, -, hpattern⟩ := Py.bind_eq_ok.1 h
    split_ifs at hpattern
    · exact (Except.ok.inj hpattern).symm
    · split at hpattern
      · exact absurd rfl (hnot _)
      · cases hpattern
  · exact (Except.ok.inj h).symm

/-- The pattern of an entry, in the form that it keeps. -/
theorem escapePlain_eq_ok (hv : v.truthy = true ∨ v = .str "") (h : escapePlain v = .ok p) :
    plainEscape p.text = p.text ∧ (p.text = "" ↔ v.text = "") := by
  have hspecial : ∀ c ∈ patternChars, p.text.toList.head? = some c →
      plainEscape p.text = p.text := fun c hc hhead =>
    plainEscape_of_special ⟨c, hc, List.mem_of_head? hhead⟩
  cases v with
  | list xs =>
    obtain rfl := escapePlain_of_not_str (by rintro s ⟨⟩) h
    exact ⟨hspecial '[' (by decide) (Value.text_list_head xs), Iff.rfl⟩
  | dict d =>
    obtain rfl := escapePlain_of_not_str (by rintro s ⟨⟩) h
    exact ⟨hspecial '\x7b' (by decide) (Value.text_dict_head d), Iff.rfl⟩
  | scalar a =>
    cases a with
    | str s =>
      obtain rfl := Except.ok.inj ((escapePlain_eq s).symm.trans h)
      have hempty : plainEscape s = "" ↔ s = "" := plainEscape_eq_empty_iff
      exact ⟨plainEscape_plainEscape s, hempty⟩
    | _ =>
      -- no other scalar is searched
      have htrue := hv.resolve_right (by simp)
      unfold escapePlain at h
      rw [if_pos htrue] at h
      cases h

end Patterns

/-! ### The first value that is true -/

theorem firstTrue_cons (entry : Items) (key : String) (keys : List String) :
    firstTrue entry (key :: keys) =
      if (entry.get key).truthy then entry.get key else firstTrue entry keys := by
  unfold firstTrue
  rw [List.map_cons, List.find?_cons]
  cases (entry.get key).truthy <;> rfl

@[simp] theorem firstTrue_nil (entry : Items) : firstTrue entry [] = .str "" := rfl

theorem firstTrue_none {entry : Items} {key : String} (h : entry.get key = .none)
    (keys : List String) : firstTrue entry (key :: keys) = firstTrue entry keys := by
  rw [firstTrue_cons, h]
  rfl

theorem firstTrue_str {entry : Items} {key s : String} (h : entry.get key = .str s)
    (keys : List String) :
    firstTrue entry (key :: keys) = if s ≠ "" then .str s else firstTrue entry keys := by
  rw [firstTrue_cons, h]
  simp [Value.truthy]

theorem ite_ne_empty_self (s : String) : (if s ≠ "" then Value.str s else .str "") = .str s := by
  split_ifs with h
  · rfl
  · rw [not_not.1 h]

theorem ite_ite_same {α : Type} {P : Prop} [Decidable P] (a b : α) :
    (if P then a else if P then a else b) = if P then a else b := by
  split_ifs <;> rfl

/-! ### Normalising again -/

section Again

variable {entry : Entry} {keys : List String} {i j : Interface}

namespace Entry

theorem gives_or {keys' : List String} :
    entry.Gives keys ∨ entry.Gives keys' ↔ entry.Gives (keys ++ keys') := by
  unfold Gives
  simp only [List.mem_append, or_and_right, exists_or]

theorem gives_congr {keys' : List String} (h : keys ⊆ keys') (h' : keys' ⊆ keys) :
    entry.Gives keys ↔ entry.Gives keys' :=
  ⟨fun ⟨key, hkey, htrue⟩ => ⟨key, h hkey, htrue⟩, fun ⟨key, hkey, htrue⟩ => ⟨key, h' hkey, htrue⟩⟩

/-- The first value that is true has a text; there is one when the entry gives one. -/
theorem firstTrue_cases (entry : Entry) (keys : List String) :
    (firstTrue entry.items keys).truthy = true ∧ (firstTrue entry.items keys).text ≠ "" ∧
        entry.Gives keys ∨
      firstTrue entry.items keys = .str "" ∧ ¬entry.Gives keys := by
  induction keys with
  | nil =>
    refine .inr ⟨rfl, ?_⟩
    rintro ⟨key, hkey, -⟩
    cases hkey
  | cons key keys ih =>
    unfold Gives at ih ⊢
    rw [firstTrue_cons, List.exists_mem_cons_iff]
    by_cases htrue : (Items.get entry.items key).truthy = true
    · rw [if_pos htrue]
      exact .inl ⟨htrue, Value.text_ne_empty htrue (entry.stamps key), .inl htrue⟩
    · rw [if_neg htrue, or_iff_right htrue]
      exact ih

theorem text_firstTrue (entry : Entry) (keys : List String) :
    (firstTrue entry.items keys).text ≠ "" ↔ entry.Gives keys := by
  rcases entry.firstTrue_cases keys with ⟨-, htext, hgives⟩ | ⟨hnone, hgives⟩
  · exact iff_of_true htext hgives
  · rw [hnone]
    exact iff_of_false (fun h => h rfl) hgives

/-- What comes out for an entry, text by text. -/
theorem normaliseInterface_eq_ok (h : normaliseInterface entry.value = .ok i) :
    i.name = i.id ∧ i.path = i.file ∧ plainEscape i.pattern = i.pattern ∧
      (i.pattern ≠ "" ↔ entry.Gives ["pattern", "symbol", "regex", "match"]) ∧
      (i.symbol ≠ "" ↔ entry.Gives ["symbol", "id", "name"]) ∧
      (i.file ≠ "" ↔ entry.Gives ["file", "path", "source_file", "location"]) ∧
      (i.id ≠ "" ↔ entry.Gives ["id", "name", "interface", "symbol"] ∨ i.file ≠ "") := by
  obtain ⟨pattern, hpattern, rfl⟩ := Py.map_eq_ok.1 h
  have hvalue := (entry.firstTrue_cases ["pattern", "symbol", "regex", "match"]).imp And.left And.left
  obtain ⟨hescaped, hempty⟩ := escapePlain_eq_ok hvalue hpattern
  refine ⟨rfl, rfl, hescaped, ?_, entry.text_firstTrue _, entry.text_firstTrue _, ?_⟩
  · rw [← entry.text_firstTrue, Ne, Ne, not_iff_not]
    exact hempty
  · change ((firstTrue entry.items _).orElse (firstTrue entry.items _)).text ≠ "" ↔ _
    rcases entry.firstTrue_cases ["id", "name", "interface", "symbol"] with
      ⟨htrue, htext, hgives⟩ | ⟨hnone, hgives⟩
    · rw [Value.orElse, if_pos htrue]
      exact iff_of_true htext (.inl hgives)
    · rw [hnone, or_iff_right hgives]
      exact Iff.rfl

end Entry

/-- An interface, normalised. -/
theorem normaliseInterface_again (hname : i.name = i.id) (hpath : i.path = i.file) :
    normaliseInterface (.dict i.items) = .ok
      { id := if i.id ≠ "" then i.id else if i.symbol ≠ "" then i.symbol else i.file
        name := if i.id ≠ "" then i.id else if i.symbol ≠ "" then i.symbol else i.file
        description := i.description
        file := i.file
        path := i.file
        pattern := plainEscape (if i.pattern ≠ "" then i.pattern else i.symbol)
        symbol := if i.symbol ≠ "" then i.symbol else i.id } := by
  have hfile : firstTrue i.items ["file", "path", "source_file", "location"] = .str i.file := by
    rw [firstTrue_str (s := i.file) rfl, firstTrue_str (s := i.path) rfl, firstTrue_none rfl,
      firstTrue_none rfl, firstTrue_nil, hpath, ite_ite_same, ite_ne_empty_self]
  have hidentifier : firstTrue i.items ["id", "name", "interface", "symbol"] =
      .str (if i.id ≠ "" then i.id else i.symbol) := by
    rw [firstTrue_str (s := i.id) rfl, firstTrue_str (s := i.name) rfl, firstTrue_none rfl,
      firstTrue_str (s := i.symbol) rfl, firstTrue_nil, hname, ite_ite_same, ite_ne_empty_self,
      apply_ite Value.str]
  have hpattern : firstTrue i.items ["pattern", "symbol", "regex", "match"] =
      .str (if i.pattern ≠ "" then i.pattern else i.symbol) := by
    rw [firstTrue_str (s := i.pattern) rfl, firstTrue_str (s := i.symbol) rfl, firstTrue_none rfl,
      firstTrue_none rfl, firstTrue_nil, ite_ne_empty_self, apply_ite Value.str]
  have hdescription : firstTrue i.items ["description", "desc"] = .str i.description := by
    rw [firstTrue_str (s := i.description) rfl, firstTrue_none rfl, firstTrue_nil, ite_ne_empty_self]
  have hsymbol : firstTrue i.items ["symbol", "id", "name"] =
      .str (if i.symbol ≠ "" then i.symbol else i.id) := by
    rw [firstTrue_str (s := i.symbol) rfl, firstTrue_str (s := i.id) rfl,
      firstTrue_str (s := i.name) rfl, firstTrue_nil, hname, ite_ite_same, ite_ne_empty_self,
      apply_ite Value.str]
  have hasDict : (Value.dict i.items).asDict.getD [] = i.items := rfl
  have hidentity : (Value.str (if i.id ≠ "" then i.id else i.symbol)).orElse (.str i.file) =
      .str (if i.id ≠ "" then i.id else if i.symbol ≠ "" then i.symbol else i.file) := by
    by_cases hid : i.id = ""
    · by_cases hsym : i.symbol = ""
      · simp [Value.orElse, Value.truthy, hid, hsym]
      · simp [Value.orElse, Value.truthy, hid, hsym]
    · simp [Value.orElse, Value.truthy, hid]
  unfold normaliseInterface
  simp only [hasDict, hfile, hidentifier, hpattern, hdescription, hsymbol, hidentity,
    escapePlain_eq]
  rfl

theorem Entry.normaliseInterface_isOk {entry : Entry} :
    (∃ i, normaliseInterface entry.value = .ok i) ↔ entry.Searchable := by
  constructor
  · rintro ⟨i, h⟩
    obtain ⟨pattern, hpattern, -⟩ := Py.map_eq_ok.1 h
    exact ⟨pattern, hpattern⟩
  · rintro ⟨pattern, hpattern⟩
    exact ⟨_, Py.map_eq_ok.2 ⟨pattern, hpattern, rfl⟩⟩

/-- **When normalising an entry again changes nothing.** -/
theorem Entry.idempotent_iff (entry : Entry) :
    entry.Idempotent ↔ (entry.Searchable → entry.Complete) := by
  by_cases hok : entry.Searchable
  swap
  · refine iff_of_true (fun i h => ?_) fun h => absurd h hok
    exact absurd (normaliseInterface_isOk.1 ⟨i, h⟩) hok
  rw [imp_iff_right hok]
  obtain ⟨i, h⟩ := normaliseInterface_isOk.2 hok
  obtain ⟨hname, hpath, hescaped, hpattern, hsymbol, hfile, hid⟩ := normaliseInterface_eq_ok h
  have hsame : entry.Idempotent ↔ normaliseInterface (.dict i.items) = .ok i :=
    ⟨fun hall => hall i h, fun hi j hj => Except.ok.inj (h.symm.trans hj) ▸ hi⟩
  have hlocation : entry.Gives ["interface", "file", "path", "source_file", "location"] ∨
      entry.Gives ["symbol", "id", "name"] ↔ i.id ≠ "" := by
    rw [hid, hfile, gives_or, gives_or]
    exact gives_congr (by decide) (by decide)
  rw [hsame, normaliseInterface_again hname hpath]
  unfold Complete
  rw [← hpattern, ← hsymbol]
  constructor
  · intro heq
    have heq := Except.ok.inj heq
    have hfilled := congrArg Interface.pattern heq
    have hmarked := congrArg Interface.symbol heq
    dsimp only at hfilled hmarked
    refine ⟨fun hsym hnone => ?_, fun hplace hnone => ?_⟩
    · -- the symbol would be the pattern
      rw [if_neg (not_not.2 hnone), hnone, plainEscape_eq_empty_iff] at hfilled
      exact hsym hfilled
    · -- the id would be the symbol
      rw [if_neg (not_not.2 hnone), hnone] at hmarked
      exact hlocation.1 (.inl hplace) hmarked
  · rintro ⟨hfilled, hmarked⟩
    have hpatternKept : plainEscape (if i.pattern ≠ "" then i.pattern else i.symbol) = i.pattern := by
      split_ifs with hnone
      · exact hescaped
      · by_cases hsym : i.symbol = ""
        · rw [hsym, plainEscape_empty, not_not.1 hnone]
        · exact absurd (hfilled hsym) hnone
    have hnamed : i.symbol = "" → i.id = "" := fun hsym => by
      by_contra hne
      rcases hlocation.2 hne with hplace | hsymbolic
      · exact hmarked hplace hsym
      · exact hsymbol.2 hsymbolic hsym
    have hsymbolKept : (if i.symbol ≠ "" then i.symbol else i.id) = i.symbol := by
      split_ifs with hnone
      · rfl
      · rw [not_not.1 hnone, hnamed (not_not.1 hnone)]
    have hidKept : (if i.id ≠ "" then i.id else if i.symbol ≠ "" then i.symbol else i.file) =
        i.id := by
      split_ifs with hne hsym
      · rfl
      · exact absurd (hlocation.1 (.inr (hsymbol.1 hsym))) hne
      · by_contra hplace
        exact hne (hid.2 (.inr fun hnone => hplace (hnone.trans (not_not.1 hne).symm)))
    rw [hpatternKept, hsymbolKept, hidKept]
    cases i
    cases hname
    cases hpath
    rfl

/-- An interface that comes out of the normalisation. -/
structure Normalised (i : Interface) : Prop where
  name_eq : i.name = i.id
  path_eq : i.path = i.file
  id_filled : i.id = "" → i.symbol = "" ∧ i.file = ""

theorem Entry.normalised (h : normaliseInterface entry.value = .ok i) : Normalised i := by
  obtain ⟨hname, hpath, -, -, hsymbol, -, hid⟩ := normaliseInterface_eq_ok h
  refine ⟨hname, hpath, fun hnone => ?_⟩
  rw [← not_not (a := i.id = ""), ← Ne, hid, not_or] at hnone
  refine ⟨?_, not_not.1 hnone.2⟩
  by_contra hsym
  obtain ⟨key, hkey, htrue⟩ := hsymbol.1 hsym
  have hkeys : ["symbol", "id", "name"] ⊆ ["id", "name", "interface", "symbol"] := by decide
  exact hnone.1 ⟨key, hkeys hkey, htrue⟩

theorem normalised_required : ∀ i ∈ requiredInterfaces, Normalised i := by
  have hall : ∀ i ∈ requiredInterfaces, i.name = i.id ∧ i.path = i.file ∧ i.id ≠ "" := by
    simp [requiredInterfaces]
  exact fun i hi => ⟨(hall i hi).1, (hall i hi).2.1, fun h => absurd h (hall i hi).2.2⟩

/-- Normalised once more, an interface keeps its id and its file. -/
theorem Normalised.again (h : Normalised i) :
    ∃ j, normaliseInterface (.dict i.items) = .ok j ∧ (j.id, j.file) = (i.id, i.file) := by
  refine ⟨_, normaliseInterface_again h.name_eq h.path_eq, ?_⟩
  dsimp only
  split_ifs with hid hsym
  · rfl
  · exact absurd (h.id_filled (not_not.1 hid)).1 hsym
  · rw [(h.id_filled (not_not.1 hid)).2, not_not.1 hid]

theorem traverse_again {is : List Interface} (h : ∀ i ∈ is, Normalised i) :
    ∃ js, Py.traverse normaliseInterface (is.map fun i => .dict i.items) = .ok js ∧
      js.map (fun j => (j.id, j.file)) = is.map fun i => (i.id, i.file) := by
  induction is with
  | nil => exact ⟨[], rfl, rfl⟩
  | cons i is ih =>
    rw [List.forall_mem_cons] at h
    obtain ⟨j, hj, hplace⟩ := h.1.again
    obtain ⟨js, hjs, hplaces⟩ := ih h.2
    refine ⟨j :: js, ?_, ?_⟩
    · rw [List.map_cons, Py.traverse, hj, hjs]
      rfl
    · rw [List.map_cons, List.map_cons, hplace, hplaces]

/-- The interfaces of a list with interfaces. -/
theorem rawInterfaces_listed (entries : List Value) : rawInterfaces (listed entries) = some entries :=
  rfl

/-- A list that is pinned is loaded. -/
theorem rawInterfaces_loadPinned (entries : List Value) :
    rawInterfaces (loadPinned [some (.dict (listed entries))]) = some entries := by
  have hloaded : (loadPinned [some (.dict (listed entries))]).get "required_interfaces" =
      .list entries := get_merged ⟨listed entries, List.nodup_singleton _⟩ "required_interfaces"
  unfold rawInterfaces
  rw [interfaceKeys, List.findSome?_cons, hloaded]
  rfl

/-- What is loaded from a list: interfaces out of the normalisation, not all without a file. -/
theorem getInterfaces_listed {entries : List Entry} {is : List Interface}
    (h : getInterfaces (listed (entries.map Entry.value)) = .ok is) :
    (∀ i ∈ is, Normalised i) ∧ ∃ i ∈ is, i.file ≠ "" := by
  rw [getInterfaces, rawInterfaces_listed] at h
  obtain ⟨normalised, hnormalised, rfl⟩ := Py.map_eq_ok.1 h
  split_ifs with hempty
  · exact ⟨normalised_required, _, List.mem_cons_self, by decide⟩
  · constructor
    · intro i hi
      obtain ⟨v, hv, hi⟩ := (Py.mem_traverse hnormalised).1 hi
      obtain ⟨entry, -, rfl⟩ := List.mem_map.1 hv
      exact Entry.normalised hi
    · simpa using hempty

/-- **A list that is written and loaded again** names the same interfaces in the same files. -/
theorem reloads (entries : List Entry) : Reloads entries := by
  intro is h
  obtain ⟨hnormalised, i, hi, hfile⟩ := getInterfaces_listed h
  obtain ⟨js, hjs, hplaces⟩ := traverse_again hnormalised
  have hmem : (i.id, i.file) ∈ js.map fun j => (j.id, j.file) := by
    rw [hplaces]
    exact List.mem_map_of_mem hi
  obtain ⟨j, hj, heq⟩ := List.mem_map.1 hmem
  have hsome : ¬(js.all fun j => j.file = "") = true := by
    intro hall
    have hnone := of_decide_eq_true (List.all_eq_true.1 hall j hj)
    exact hfile ((Prod.mk.inj heq).2.symm.trans hnone)
  refine ⟨js, ?_, hplaces⟩
  rw [getInterfaces, rawInterfaces_loadPinned]
  refine Py.map_eq_ok.2 ⟨js, hjs, ?_⟩
  rw [if_neg hsome]

/-- **When normalising is idempotent**: every entry that is not refused and has a name has a
pattern, and every one that has an interface or a file has a name.  A list that is reloaded names
the same interfaces in the same files. -/
theorem reload_iff (entries : List Entry) :
    ((∀ entry ∈ entries, entry.Idempotent) ∧ Reloads entries) ↔
      ∀ entry ∈ entries, entry.Searchable → entry.Complete := by
  rw [and_iff_left (reloads entries)]
  exact forall₂_congr fun entry _ => entry.idempotent_iff

/-- An entry with an id and a file. -/
def unpatterned : Entry where
  value := .dict [(.str "id", .str "arena"), (.str "file", .str "include/uapi/linux/bpf.h")]
  stamps key := by
    change Items.get [(.str "id", .str "arena"), (.str "file", .str "include/uapi/linux/bpf.h")] key ≠ _
    unfold Items.get Items.lookup
    rw [Py.Dict.lookup_cons, Py.Dict.lookup_cons]
    split_ifs <;> simp

/-- The entry has no pattern at first, and its id for one when it is normalised again. -/
theorem unpatterned_changes :
    ¬∀ entries : List Entry, (∀ entry ∈ entries, entry.Idempotent) ∧ Reloads entries := by
  intro hall
  have hagain := (hall [unpatterned]).1 unpatterned List.mem_cons_self _ rfl
  have hpattern := congrArg (Except.map Interface.pattern) hagain
  revert hpattern
  decide

end Again

end SourceGate

end KernelBuild
