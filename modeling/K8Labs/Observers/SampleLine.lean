import K8Labs.Observers.Scrape

/-!
# The line of a sample

The reader meets the line of a sample in pieces, since a label may hold characters at which
`splitlines` ends a line.  A piece is skipped, or its labels are read up to the first closing brace:

* `parseLine_inner`: a piece that begins inside a label is skipped or refused;
* `ItemsOk.clean`: labels that are read to their end have no comma and no closing brace.
-/

namespace Observers

open Py

/-! ### Skipped lines -/

/-- A line without a sample: empty, a comment, or without the braces. -/
def Skipped (line : List Char) : Prop :=
  line = [] ∨ line.head? = some '#' ∨ '}' ∉ line.dropWhile (· != '{')

instance (line : List Char) : Decidable (Skipped line) := inferInstanceAs (Decidable (_ ∨ _ ∨ _))

section Lines

variable {named : List Char → Option Char} {cellId timestamp : String} {line : List Char}
  {row : Option Row}

theorem dropWhile_of_partition {c : Char} {t before after : List Char}
    (h : partition c t = some (before, after)) : t.dropWhile (· != c) = c :: after := by
  obtain ⟨rfl, hbefore⟩ := partition_eq_some h
  have hne : ∀ d ∈ before, (d != c) = true := fun d hd => by
    rw [bne_iff_ne]
    rintro rfl
    exact hbefore hd
  rw [List.dropWhile_append_of_pos hne, List.dropWhile_cons_of_neg (by simp)]

theorem parseLine_of_skipped (h : Skipped line) : parseLine named cellId timestamp line = .ok none := by
  unfold parseLine
  by_cases hfirst : line = [] ∨ line.head? = some '#'
  · rw [if_pos hfirst]
  · rw [if_neg hfirst]
    split
    · rfl
    · next metric rest hpartition =>
      have hrest : '}' ∉ rest := by
        rcases h with h | h | h
        · exact absurd (.inl h) hfirst
        · exact absurd (.inr h) hfirst
        · rw [dropWhile_of_partition hpartition] at h
          exact fun hmem => h (List.mem_cons_of_mem _ hmem)
      rw [partition_eq_none hrest]

/-- A line that is not skipped has its labels read. -/
theorem exists_items_of_parseLine (h : parseLine named cellId timestamp line = .ok row)
    (hskip : ¬ Skipped line) :
    ∃ metric rest, line = metric ++ '{' :: rest ∧ '{' ∉ metric ∧ '}' ∈ rest ∧
      ItemsOk named metric rest := by
  unfold parseLine at h
  rw [if_neg fun hfirst => hskip (hfirst.imp_right .inl)] at h
  have hbrace : '}' ∈ line.dropWhile (· != '{') := by
    by_contra hne
    exact hskip (.inr (.inr hne))
  have hopen : '{' ∈ line := by
    by_contra hne
    rw [List.dropWhile_eq_nil_iff.2 fun c hc => by
      rw [bne_iff_ne]
      rintro rfl
      exact hne hc] at hbrace
    cases hbrace
  obtain ⟨metric, rest, hpartition⟩ : ∃ metric rest, partition '{' line = some (metric, rest) :=
    ⟨_, _, if_pos hopen⟩
  have hrest : '}' ∈ rest := by
    rw [dropWhile_of_partition hpartition] at hbrace
    exact (List.mem_cons.1 hbrace).resolve_left (by decide)
  have hclose : partition '}' rest =
      some (rest.takeWhile (· != '}'), (rest.dropWhile (· != '}')).tail) := if_pos hrest
  rw [hpartition] at h
  dsimp only at h
  rw [hclose] at h
  obtain ⟨labels, hlabels, -⟩ := bind_eq_ok.1 h
  obtain ⟨hline, hmetric⟩ := partition_eq_some hpartition
  exact ⟨metric, rest, hline, hmetric, hrest, itemsOk_of_parseLabels hlabels⟩

end Lines

/-! ### Names -/

/-- A character of the names of metrics and labels. -/
def isNameChar (c : Char) : Bool := c.isAlphanum || c == '_'

/-- A name. -/
def IsName (s : String) : Prop := ∀ c ∈ s.toList, isNameChar c = true

instance (s : String) : Decidable (IsName s) := inferInstanceAs (Decidable (∀ c ∈ s.toList, _))

theorem isName_ofList {cs : List Char} (h : cs.all isNameChar = true) :
    IsName (String.ofList cs) := by
  rw [IsName, String.toList_ofList]
  exact List.all_eq_true.1 h

/-- A line boundary is one of ten characters. -/
theorem forall_isLineBoundary {P : Char → Prop}
    (h : ∀ n ∈ [0xa, 0xb, 0xc, 0xd, 0x1c, 0x1d, 0x1e, 0x85, 0x2028, 0x2029], P (Char.ofNat n))
    {c : Char} (hc : isLineBoundary c = true) : P c := by
  unfold isLineBoundary at hc
  have := h c.toNat (by simpa using hc)
  rwa [Char.ofNat_toNat] at this

/-- What ends a piece of a line or begins its labels. -/
def Splits (c : Char) : Prop := c = '{' ∨ isLineBoundary c = true

theorem Splits.forall {P : Char → Prop} (hopen : P '{')
    (h : ∀ n ∈ [0xa, 0xb, 0xc, 0xd, 0x1c, 0x1d, 0x1e, 0x85, 0x2028, 0x2029], P (Char.ofNat n))
    {c : Char} (hc : Splits c) : P c := by
  rcases hc with rfl | hc
  · exact hopen
  · exact forall_isLineBoundary h hc

theorem Splits.not_isNameChar {c : Char} (h : Splits c) : isNameChar c = false :=
  h.forall (P := fun c => isNameChar c = false) (by decide) (by decide)

theorem Splits.notMem {c : Char} (h : Splits c) :
    c ∉ ['\\', 'n', '"', ',', '=', '}', ' '] :=
  h.forall (P := fun c => c ∉ ['\\', 'n', '"', ',', '=', '}', ' ']) (by decide) (by decide)

/-! ### The labels of a line -/

/-- What comes after a label: the labels that are left, the closing brace and the value. -/
def closing : List (String × String) → List Char → List Char
  | [], after => '}' :: after
  | l :: ls, after => ',' :: (renderLabel l ++ closing ls after)

theorem renderLabels_append (l : String × String) (ls : List (String × String)) (after : List Char) :
    renderLabels (l :: ls) ++ after = '{' :: (renderLabel l ++ closing ls after) := by
  unfold renderLabels
  rw [List.cons_append]
  congr 1
  induction ls generalizing l with
  | nil => simp [closing]
  | cons m ls ih =>
    have := ih m
    rw [List.map_cons, List.map_cons, List.intercalate_cons_cons, ← List.map_cons, closing, ← this]
    simp

theorem renderLabel_append (l : String × String) (t : List Char) :
    renderLabel l ++ t = l.1.toList ++ '=' :: '"' :: (escaped l.2.toList ++ '"' :: t) := by
  simp [renderLabel, escapeLabel, escaped]

/-! ### Inside a label -/

/-- The text begins inside a label. -/
def Inner (after t : List Char) : Prop :=
  ∃ cs ls, t = escaped cs ++ '"' :: closing ls after ∧ ∀ l ∈ ls, IsName l.1

section Inner

variable {after : List Char} {d : Char} {x y : List Char}

/-- A character that is not in the first part of a text is in the second. -/
theorem append_eq_split {pre t : List Char} (hpre : d ∉ pre) (h : pre ++ t = x ++ d :: y) :
    ∃ x', x = pre ++ x' ∧ t = x' ++ d :: y := by
  rcases List.append_eq_append_iff.1 h with ⟨x', hx, ht⟩ | ⟨x', hpre', hy⟩
  · exact ⟨x', hx, ht⟩
  · cases x' with
    | nil => exact ⟨[], by rw [hpre', List.append_nil, List.append_nil], hy.symm⟩
    | cons c x' =>
      obtain ⟨rfl, -⟩ := List.cons.inj hy
      exact absurd (hpre' ▸ by simp) hpre

theorem escaped_eq_split (hd : Splits d) {cs : List Char} (h : escaped cs = x ++ d :: y) :
    ∃ zs, y = escaped zs := by
  have hnot := hd.notMem
  simp only [List.mem_cons, not_or] at hnot
  induction cs generalizing x with
  | nil => simp [escaped] at h
  | cons c cs ih =>
    rw [escaped_cons] at h
    rcases escapeLabelChar_cases c with ⟨-, he⟩ | ⟨-, he⟩ | ⟨-, he⟩ | ⟨-, -, -, he⟩
    all_goals rw [he] at h
    · obtain ⟨x', -, h⟩ := append_eq_split (by simp [hnot]) h
      exact ih h
    · obtain ⟨x', -, h⟩ := append_eq_split (by simp [hnot]) h
      exact ih h
    · obtain ⟨x', -, h⟩ := append_eq_split (by simp [hnot]) h
      exact ih h
    · cases x with
      | nil =>
        obtain ⟨-, h⟩ := List.cons.inj h
        exact ⟨cs, h.symm⟩
      | cons e x => exact ih (List.cons.inj h).2

theorem Splits.notMem_name {l : String × String} (hd : Splits d) (hname : IsName l.1) :
    d ∉ l.1.toList := by
  intro hmem
  have := hname d hmem
  rw [hd.not_isNameChar] at this
  cases this

/-- After a brace or a line boundary the text is inside a label again. -/
theorem Inner.split (hd : Splits d) (hafter : d ∉ after) (h : Inner after (x ++ d :: y)) :
    Inner after y := by
  obtain ⟨cs, ls, heq, hnames⟩ := h
  have hnot := hd.notMem
  simp only [List.mem_cons, not_or] at hnot
  induction ls generalizing cs x with
  | nil =>
    rcases List.append_eq_append_iff.1 heq.symm with ⟨x', rfl, hrest⟩ | ⟨x', hcs, hrest⟩
    · obtain ⟨x', -, hrest⟩ := @append_eq_split _ _ _ ['"', '}'] _ (by simp [hnot]) hrest
      exact absurd (hrest ▸ by simp) hafter
    · cases x' with
      | nil => exact absurd (List.cons.inj hrest).1 hnot.2.2.1
      | cons c x' =>
        obtain ⟨rfl, rfl⟩ := List.cons.inj hrest
        obtain ⟨zs, rfl⟩ := escaped_eq_split hd hcs
        exact ⟨zs, [], rfl, by simp⟩
  | cons l ls ih =>
    rw [List.forall_mem_cons] at hnames
    rcases List.append_eq_append_iff.1 heq.symm with ⟨x', rfl, hrest⟩ | ⟨x', hcs, hrest⟩
    · rw [closing, renderLabel_append] at hrest
      have hpre : d ∉ '"' :: ',' :: (l.1.toList ++ ['=', '"']) := by
        simp [hnot, hd.notMem_name hnames.1]
      obtain ⟨x', -, hrest⟩ := append_eq_split (t := escaped l.2.toList ++ '"' :: closing ls after)
        hpre (by simpa using hrest)
      exact ih l.2.toList hrest.symm hnames.2
    · cases x' with
      | nil => exact absurd (List.cons.inj hrest).1 hnot.2.2.1
      | cons c x' =>
        obtain ⟨rfl, rfl⟩ := List.cons.inj hrest
        obtain ⟨zs, rfl⟩ := escaped_eq_split hd hcs
        exact ⟨zs, l :: ls, rfl, List.forall_mem_cons.2 hnames⟩

end Inner

/-! ### Items -/

/-- The characters of an item. -/
def inItem (c : Char) : Bool := c != ',' && c != '}'

theorem inItem_of_mem_escaped {cs : List Char} (h : ∀ c ∈ cs, inItem c = true) :
    ∀ c ∈ escaped cs, inItem c = true := by
  intro c hc
  rcases mem_escaped hc with rfl | rfl | rfl | ⟨hc, -⟩
  · rfl
  · rfl
  · rfl
  · exact h c hc

theorem IsName.inItem {s : String} (h : IsName s) : ∀ c ∈ s.toList, inItem c = true := by
  intro c hc
  have hname := h c hc
  rw [Observers.inItem, Bool.and_eq_true, bne_iff_ne, bne_iff_ne]
  refine ⟨?_, ?_⟩
  all_goals
    rintro rfl
    exact absurd hname (by decide)

/-- The first comma or closing brace of a label cuts it there. -/
theorem exists_cut {cs : List Char} (h : ¬ ∀ c ∈ cs, inItem c = true) :
    ∃ xs, ∀ t, (escaped cs ++ t).takeWhile inItem = escaped xs := by
  simp only [not_forall, exists_prop, Bool.not_eq_true] at h
  obtain ⟨xs, c, ys, rfl, hc, hxs⟩ := @eq_append_separator (fun c => !inItem c) cs (by simpa using h)
  have hself : escapeLabelChar c = [c] := by
    rcases escapeLabelChar_cases c with ⟨rfl, -⟩ | ⟨rfl, -⟩ | ⟨rfl, -⟩ | ⟨-, -, -, he⟩
    · simp [inItem] at hc
    · simp [inItem] at hc
    · simp [inItem] at hc
    · exact he
  refine ⟨xs, fun t => ?_⟩
  rw [escaped_append, escaped_cons, hself, List.append_assoc, List.append_assoc,
    List.takeWhile_append_of_pos (inItem_of_mem_escaped fun d hd => by simpa using hxs d hd),
    List.singleton_append, List.takeWhile_cons_of_neg (by simpa using hc), List.append_nil]

theorem takeWhile_closing (ls : List (String × String)) (after : List Char) :
    (closing ls after).takeWhile inItem = [] := by
  cases ls with
  | nil => exact List.takeWhile_cons_of_neg (by decide)
  | cons l ls => exact List.takeWhile_cons_of_neg (by decide)

/-- A text that has a closing brace has the same first item as a longer one. -/
theorem takeWhile_inItem_append {t : List Char} (h : '}' ∈ t) (u : List Char) :
    (t ++ u).takeWhile inItem = t.takeWhile inItem := by
  rw [List.takeWhile_append, if_neg]
  intro hlen
  have hall := List.takeWhile_eq_self_iff.1
    ((List.takeWhile_prefix inItem).eq_of_length hlen) _ h
  exact absurd hall (by decide)

section Items

variable {named : List Char → Option Char} {cellId timestamp : String} {metric after : List Char}

/-- The items of a text that begins inside a label are not read. -/
theorem Inner.not_itemsOk {t u : List Char} (h : Inner after (t ++ u)) (ht : '}' ∈ t) :
    ¬ ItemsOk named metric t := by
  intro hok
  obtain ⟨r, hr⟩ := hok.first
  obtain ⟨cs, ls, heq, -⟩ := h
  have hfirst : t.takeWhile inItem = (escaped cs ++ '"' :: closing ls after).takeWhile inItem := by
    rw [← takeWhile_inItem_append ht u, heq]
  change parseItem named metric (t.takeWhile inItem) = _ at hr
  rw [hfirst] at hr
  by_cases hclean : ∀ c ∈ cs, inItem c = true
  · rw [List.takeWhile_append_of_pos (inItem_of_mem_escaped hclean),
      List.takeWhile_cons_of_pos (by decide), takeWhile_closing] at hr
    exact parseItem_inner cs (.inr rfl) hr
  · obtain ⟨xs, hxs⟩ := exists_cut hclean
    rw [hxs] at hr
    exact parseItem_inner xs (.inl rfl) (by rwa [List.append_nil])

/-- A piece that begins inside a label is skipped, or refused. -/
theorem parseLine_inner {t u : List Char} {row : Option Row} (hafter : '{' ∉ after)
    (h : Inner after (t ++ u)) (hrow : parseLine named cellId timestamp t = .ok row) :
    Skipped t := by
  by_contra hskip
  obtain ⟨metric, rest, rfl, -, hbrace, hok⟩ := exists_items_of_parseLine hrow hskip
  rw [List.append_assoc, List.cons_append] at h
  exact (h.split (.inl rfl) hafter).not_itemsOk hbrace hok

theorem IsName.notMem {s : String} {c : Char} (h : IsName s) (hc : isNameChar c = false) :
    c ∉ s.toList := by
  intro hmem
  rw [h c hmem] at hc
  cases hc

theorem inItem_renderLabel {l : String × String} (hname : IsName l.1)
    (hvalue : ∀ c ∈ l.2.toList, inItem c = true) : ∀ c ∈ renderLabel l, inItem c = true := by
  intro c hc
  rw [← List.append_nil (renderLabel l), renderLabel_append] at hc
  simp only [List.mem_append, List.mem_cons, List.not_mem_nil, or_false] at hc
  rcases hc with hc | rfl | rfl | hc | rfl
  · exact hname.inItem c hc
  · rfl
  · rfl
  · exact inItem_of_mem_escaped hvalue c hc
  · rfl

/-- A label that is read has neither comma nor closing brace, and is read to its end. -/
theorem ItemsOk.first_clean {l : String × String} {t u s : List Char}
    (hok : ItemsOk named metric t) (ht : '}' ∈ t) (hname : IsName l.1)
    (heq : t ++ u = renderLabel l ++ s) (hs : s.takeWhile inItem = []) :
    (∀ c ∈ l.2.toList, inItem c = true) ∧
      ∃ t', t = renderLabel l ++ t' ∧ t' ++ u = s ∧ '}' ∈ t' := by
  obtain ⟨r, hr⟩ := hok.first
  change parseItem named metric (t.takeWhile inItem) = _ at hr
  have hfirst : t.takeWhile inItem = (renderLabel l ++ s).takeWhile inItem := by
    rw [← takeWhile_inItem_append ht u, heq]
  by_cases hclean : ∀ c ∈ l.2.toList, inItem c = true
  · have hall := inItem_renderLabel hname hclean
    rw [List.takeWhile_append_of_pos hall, hs, List.append_nil] at hfirst
    have hsplit : t = renderLabel l ++ t.dropWhile inItem := by
      rw [← hfirst, List.takeWhile_append_dropWhile]
    rw [hsplit, List.append_assoc, List.append_cancel_left_eq] at heq
    refine ⟨hclean, _, hsplit, heq, ?_⟩
    rw [hsplit] at ht
    exact (List.mem_append.1 ht).resolve_left fun hmem => absurd (hall _ hmem) (by decide)
  · obtain ⟨xs, hxs⟩ := exists_cut hclean
    rw [renderLabel_append, List.takeWhile_append_of_pos hname.inItem,
      List.takeWhile_cons_of_pos (by decide), List.takeWhile_cons_of_pos (by decide), hxs] at hfirst
    rw [hfirst] at hr
    exact absurd hr (parseItem_open (hname.notMem (by decide)) xs)

/-- **Labels that are read to their end** have no comma and no closing brace. -/
theorem ItemsOk.clean {l : String × String} {ls : List (String × String)} {t u : List Char}
    (hok : ItemsOk named metric t) (ht : '}' ∈ t) (hnames : ∀ m ∈ l :: ls, IsName m.1)
    (heq : t ++ u = renderLabel l ++ closing ls after) :
    (∀ m ∈ l :: ls, ∀ c ∈ m.2.toList, inItem c = true) ∧
      ∃ t', t = renderLabel l ++ closing ls t' ∧ t' ++ u = after := by
  induction ls generalizing l t with
  | nil =>
    obtain ⟨hclean, t', rfl, hrest, hbrace⟩ :=
      hok.first_clean ht (hnames l (by simp)) heq (takeWhile_closing _ _)
    refine ⟨by simpa using hclean, ?_⟩
    cases t' with
    | nil => cases hbrace
    | cons c t' =>
      obtain ⟨rfl, htail⟩ := List.cons.inj hrest
      exact ⟨t', rfl, htail⟩
  | cons m ls ih =>
    obtain ⟨hclean, t', rfl, hrest, hbrace⟩ :=
      hok.first_clean ht (hnames l (by simp)) heq (takeWhile_closing _ _)
    cases t' with
    | nil => cases hbrace
    | cons c t' =>
      obtain ⟨rfl, htail⟩ := List.cons.inj hrest
      have hitem : ∀ c ∈ renderLabel l, c ≠ ',' ∧ c ≠ '}' := fun c hc => by
        have := inItem_renderLabel (hnames l (by simp)) hclean c hc
        simpa [inItem] using this
      obtain ⟨hrestClean, s, rfl, hs⟩ := ih (hok.skip hitem)
        ((List.mem_cons.1 hbrace).resolve_left (by decide))
        (fun m hm => hnames m (List.mem_cons_of_mem _ hm)) htail
      exact ⟨List.forall_mem_cons.2 ⟨hclean, hrestClean⟩, s, rfl, hs⟩

end Items

/-! ### The line of a sample -/

/-- No label has a comma or a closing brace. -/
def Apart (labels : List (String × String)) : Prop :=
  ∀ l ∈ labels, ∀ c ∈ l.2.toList, c ≠ ',' ∧ c ≠ '}'

/-- No label has a line boundary that is not escaped. -/
def OneLine (labels : List (String × String)) : Prop :=
  ∀ l ∈ labels, ∀ c ∈ l.2.toList, isLineBoundary c = true → c = '\n'

/-- A property of all characters of all labels; each label is read as a list. -/
instance decidableForallChars (P : Char → Prop) [DecidablePred P] (labels : List (String × String)) :
    Decidable (∀ l ∈ labels, ∀ c ∈ l.2.toList, P c) :=
  decidable_of_iff ((labels.all fun l => l.2.toList.all fun c => decide (P c)) = true) (by simp)

instance (labels : List (String × String)) : Decidable (Apart labels) :=
  inferInstanceAs (Decidable (∀ l ∈ labels, ∀ c ∈ l.2.toList, c ≠ ',' ∧ c ≠ '}'))

instance (labels : List (String × String)) : Decidable (OneLine labels) :=
  inferInstanceAs (Decidable (∀ l ∈ labels, ∀ c ∈ l.2.toList, isLineBoundary c = true → c = '\n'))

/-- The labels as they are read. -/
def readBack (labels : List (String × String)) : List (String × String) :=
  labels.map fun l => (l.1, String.ofList (mangled l.2.toList))

section Line

variable {named : List Char → Option Char} {cellId timestamp : String} {metric value : List Char}
  {l : String × String} {ls : List (String × String)}

theorem inItem_eq_true {c : Char} : inItem c = true ↔ c ≠ ',' ∧ c ≠ '}' := by simp [inItem]

theorem fold_parseItem {labels acc : List (String × String)}
    (hnames : ∀ m ∈ labels, IsName m.1)
    (hnodup : (acc.map Prod.fst ++ labels.map Prod.fst).Nodup) :
    fold (fun labels item => (parseItem named metric item).map fun (key, value) =>
      Dict.update key (fun _ => value) labels) acc (labels.map renderLabel) =
        .ok (acc ++ readBack labels) := by
  induction labels generalizing acc with
  | nil =>
    rw [readBack, List.map_nil, List.map_nil, List.append_nil]
    rfl
  | cons m labels ih =>
    rw [List.forall_mem_cons] at hnames
    have hfresh : m.1 ∉ acc.map Prod.fst := fun hmem =>
      List.disjoint_of_nodup_append hnodup hmem List.mem_cons_self
    rw [List.map_cons, fold, parseItem_renderLabel (hnames.1.notMem (by decide)), Except.map,
      Except.bind]
    dsimp only
    rw [Dict.update_of_notMem hfresh, ih hnames.2 (by simpa using hnodup), readBack, readBack,
      List.map_cons, List.append_assoc]
    rfl

/-- The labels of a line are told apart at the commas. -/
theorem parseLabels_render {labels : List (String × String)} (hne : labels ≠ [])
    (hnames : ∀ m ∈ labels, IsName m.1) (hnodup : (labels.map Prod.fst).Nodup)
    (hapart : Apart labels) :
    parseLabels named metric ([','].intercalate (labels.map renderLabel)) =
      .ok (readBack labels) := by
  have hsplit : ([','].intercalate (labels.map renderLabel)).splitOn ',' = labels.map renderLabel := by
    refine List.splitOn_intercalate _ (fun cs hcs => ?_) (by simpa using hne)
    obtain ⟨m, hm, rfl⟩ := List.mem_map.1 hcs
    intro hcomma
    exact absurd (inItem_renderLabel (hnames m hm) (fun c hc => inItem_eq_true.2 (hapart m hm c hc)) _
      hcomma) (by decide)
  rw [parseLabels, hsplit, fold_parseItem hnames (by simpa using hnodup), List.nil_append]

/-- A sample line, as a text. -/
theorem line_eq (metric : List Char) (l : String × String) (ls : List (String × String))
    (after : List Char) : metric ++ renderLabels (l :: ls) ++ after =
      metric ++ '{' :: (renderLabel l ++ closing ls after) := by
  rw [List.append_assoc, renderLabels_append]

/-- The row of a sample whose labels are told apart. -/
def rowOf (timestamp metric : String) (labels : List (String × String)) (value : List Char) : Row where
  timestamp := timestamp
  source := "collector"
  metric := metric
  value := String.ofList value
  unit := if endsWith metric "_seconds_total" then "seconds" else "count"
  labelsJson := labelsJson labels

/-- A line in one piece whose labels are told apart. -/
theorem parseLine_render {name : String} {labels : List (String × String)} {q : Py.Float}
    (hname : IsName name) (hne : name.toList ≠ []) (hlabels : labels ≠ [])
    (hnames : ∀ m ∈ labels, IsName m.1) (hnodup : (labels.map Prod.fst).Nodup)
    (hapart : Apart labels) (hvalue : ∀ c ∈ value, isSpace c = false)
    (hfloat : parseFloat (String.ofList value) = .ok q) :
    parseLine named cellId timestamp (name.toList ++ renderLabels labels ++ ' ' :: value) =
      .ok (if (readBack labels).lookup "cell_id" = some cellId then
        some (rowOf timestamp name (readBack labels) value) else none) := by
  have hline : name.toList ++ renderLabels labels ++ ' ' :: value = name.toList ++
      '{' :: ([','].intercalate (labels.map renderLabel) ++ '}' :: ' ' :: value) := by
    simp [renderLabels]
  have hbrace : '}' ∉ [','].intercalate (labels.map renderLabel) := by
    intro hmem
    rcases mem_intercalate hmem with hmem | ⟨part, hpart, hmem⟩
    · exact absurd hmem (by decide)
    · obtain ⟨m, hm, rfl⟩ := List.mem_map.1 hpart
      have hall := inItem_renderLabel (hnames m hm) fun c hc => inItem_eq_true.2 (hapart m hm c hc)
      exact absurd (hall _ hmem) (by decide)
  rw [hline, parseLine, if_neg, partition_append (hname.notMem (by decide))]
  · dsimp only
    rw [partition_append hbrace]
    dsimp only
    rw [String.ofList_toList, parseLabels_render hlabels hnames hnodup hapart, Except.bind]
    rw [strip_cons_space, strip_eq_self hvalue, hfloat]
    by_cases hcell : (readBack labels).lookup "cell_id" = some cellId
    · rw [if_neg (not_not.2 hcell), if_pos hcell]
      rfl
    · rw [if_pos hcell, if_neg hcell]
  · obtain ⟨c, cs, hcs⟩ := List.exists_cons_of_ne_nil hne
    have hc := hname c (hcs ▸ List.mem_cons_self)
    rw [hcs, not_or]
    refine ⟨by simp, ?_⟩
    rw [List.cons_append, List.head?_cons, Option.some_inj]
    rintro rfl
    exact absurd hc (by decide)

/-! ### Pieces -/

theorem mem_closing {m : String × String} {c : Char} (hm : m ∈ ls) (hc : c ∈ renderLabel m)
    (after : List Char) : c ∈ closing ls after := by
  induction ls with
  | nil => cases hm
  | cons k ls ih =>
    rw [closing, List.mem_cons, List.mem_append]
    rcases List.mem_cons.1 hm with rfl | hm
    · exact .inr (.inl hc)
    · exact .inr (.inr (ih hm))

/-- A line boundary in a label breaks the line, and what comes after it is inside a label. -/
theorem exists_break {after : List Char} (hnames : ∀ m ∈ l :: ls, IsName m.1)
    (hafter : ∀ c ∈ after, isLineBoundary c = false) (h : ¬ OneLine (l :: ls)) :
    ∃ x c y, renderLabel l ++ closing ls after = x ++ c :: y ∧ isLineBoundary c = true ∧
      (∀ d ∈ x, isLineBoundary d = false) ∧ Inner after y := by
  have hmem : ∃ c ∈ renderLabel l ++ closing ls after, isLineBoundary c = true := by
    simp only [OneLine, not_forall] at h
    obtain ⟨m, hm, c, hc, hboundary, hne⟩ := h
    have hnot := Splits.notMem (.inr hboundary)
    simp only [List.mem_cons, not_or] at hnot
    have hrender : c ∈ renderLabel m := by
      have := mem_escaped_of_mem hc hnot.1 hne hnot.2.2.1
      rw [← List.append_nil (renderLabel m), renderLabel_append]
      simp [this]
    refine ⟨c, ?_, hboundary⟩
    rw [List.mem_append]
    rcases List.mem_cons.1 hm with rfl | hm
    · exact .inl hrender
    · exact .inr (mem_closing hm hrender after)
  obtain ⟨x, c, y, heq, hc, hx⟩ := eq_append_separator hmem
  refine ⟨x, c, y, heq, hc, hx, ?_⟩
  have hsplits : Splits c := .inr hc
  have hnot := hsplits.notMem
  simp only [List.mem_cons, not_or] at hnot
  have hpre : c ∉ l.1.toList ++ ['=', '"'] := by
    simp [hnot, hsplits.notMem_name (hnames l List.mem_cons_self)]
  rw [renderLabel_append] at heq
  obtain ⟨x', -, hinner⟩ := append_eq_split (t := escaped l.2.toList ++ '"' :: closing ls after)
    hpre (by simpa using heq)
  refine Inner.split (x := x') hsplits (fun hmem => ?_) (hinner ▸ ⟨_, ls, rfl, fun m hm =>
    hnames m (List.mem_cons_of_mem _ hm)⟩)
  rw [hafter c hmem] at hc
  cases hc

/-- What holds of the signs between the labels and of every label holds of the whole line. -/
theorem forall_mem_closing {P : Char → Prop} {after : List Char} (hcomma : P ',') (hbrace : P '}')
    (hafter : ∀ c ∈ after, P c) (hlabel : ∀ m ∈ l :: ls, ∀ c ∈ renderLabel m, P c) :
    ∀ c ∈ renderLabel l ++ closing ls after, P c := by
  induction ls generalizing l with
  | nil =>
    intro c hc
    rw [List.mem_append, closing, List.mem_cons] at hc
    rcases hc with hc | rfl | hc
    · exact hlabel l List.mem_cons_self c hc
    · exact hbrace
    · exact hafter c hc
  | cons m ls ih =>
    rw [List.forall_mem_cons] at hlabel
    intro c hc
    rw [List.mem_append, closing, List.mem_cons] at hc
    rcases hc with hc | rfl | hc
    · exact hlabel.1 c hc
    · exact hcomma
    · exact ih hlabel.2 c hc

/-- Labels without line boundaries leave the line in one piece. -/
theorem not_isLineBoundary_closing {after : List Char} (hnames : ∀ m ∈ l :: ls, IsName m.1)
    (hafter : ∀ c ∈ after, isLineBoundary c = false) (h : OneLine (l :: ls)) :
    ∀ c ∈ renderLabel l ++ closing ls after, isLineBoundary c = false := by
  refine forall_mem_closing rfl rfl hafter fun m hm c hc => ?_
  by_contra hboundary
  rw [Bool.not_eq_false] at hboundary
  have hsplits : Splits c := .inr hboundary
  have hnot := hsplits.notMem
  simp only [List.mem_cons, not_or] at hnot
  rw [← List.append_nil (renderLabel m), renderLabel_append] at hc
  simp only [List.mem_append, List.mem_cons, hnot, hsplits.notMem_name (hnames m hm), false_or,
    or_false] at hc
  rcases mem_escaped hc with hc | hc | hc | ⟨hc, hne⟩
  · exact hnot.1 hc
  · exact hnot.2.1 hc
  · exact hnot.2.2.1 hc
  · exact hne (h m hm c hc hboundary)

/-- A line has no line feed in it: those of the labels are escaped. -/
theorem newline_notMem_closing {after : List Char} (hnames : ∀ m ∈ l :: ls, IsName m.1)
    (hafter : '\n' ∉ after) : '\n' ∉ renderLabel l ++ closing ls after := by
  have hsplits : Splits '\n' := .inr rfl
  have hlabel : ∀ m ∈ l :: ls, ∀ c ∈ renderLabel m, c ≠ '\n' := by
    rintro m hm c hc rfl
    rw [← List.append_nil (renderLabel m), renderLabel_append] at hc
    simp only [List.mem_append, List.mem_cons, hsplits.notMem_name (hnames m hm), false_or,
      List.not_mem_nil, or_false] at hc
    rcases hc with hc | hc | hc | hc
    · cases hc
    · cases hc
    · rcases mem_escaped hc with hc | hc | hc | ⟨-, hne⟩
      · cases hc
      · cases hc
      · cases hc
      · exact hne rfl
    · cases hc
  exact fun hmem => forall_mem_closing (P := fun c => c ≠ '\n') (by decide) (by decide)
    (fun c hc heq => hafter (heq ▸ hc)) hlabel _ hmem rfl

/-- The labels of a piece that begins with the metric. -/
theorem items_of_parseLine {name : String} {rest : List Char} {row : Option Row}
    (hname : IsName name)
    (hrow : parseLine named cellId timestamp (name.toList ++ '{' :: rest) = .ok row)
    (hskip : ¬ Skipped (name.toList ++ '{' :: rest)) :
    '}' ∈ rest ∧ ItemsOk named name.toList rest := by
  obtain ⟨metric, rest', heq, hmetric, hbrace, hok⟩ := exists_items_of_parseLine hrow hskip
  obtain ⟨x, rfl, hrest⟩ := append_eq_split (hname.notMem (by decide)) heq
  cases x with
  | nil =>
    obtain ⟨-, rfl⟩ := List.cons.inj hrest
    rw [List.append_nil] at hok
    exact ⟨hbrace, hok⟩
  | cons c x =>
    obtain ⟨rfl, -⟩ := List.cons.inj hrest
    exact absurd (by simp) hmetric

theorem isLineBoundary_brace {name : String} (hname : IsName name) {xs : List Char}
    (hxs : ∀ c ∈ xs, isLineBoundary c = false) :
    ∀ c ∈ name.toList ++ '{' :: xs, isLineBoundary c = false := by
  intro c hc
  rw [List.mem_append, List.mem_cons] at hc
  rcases hc with hc | rfl | hc
  · by_contra hne
    rw [Bool.not_eq_false] at hne
    exact hname.notMem (Splits.not_isNameChar (.inr hne)) hc
  · rfl
  · exact hxs c hc

/-- **A line whose labels are not told apart** is skipped in all its pieces, or refused. -/
theorem skipped_of_parseLine {name : String} {after : List Char} (hname : IsName name)
    (hnames : ∀ m ∈ l :: ls, IsName m.1) (hafter : ∀ c ∈ after, ¬ Splits c)
    (hbroken : ¬ (Apart (l :: ls) ∧ OneLine (l :: ls)))
    (hok : ∀ p ∈ (name.toList ++ renderLabels (l :: ls) ++ after).splitOnP isLineBoundary,
      ∃ row, parseLine named cellId timestamp p = .ok row) :
    ∀ p ∈ (name.toList ++ renderLabels (l :: ls) ++ after).splitOnP isLineBoundary, Skipped p := by
  have hboundary : ∀ c ∈ after, isLineBoundary c = false := fun c hc => by
    by_contra hne
    exact hafter c hc (.inr (by simpa using hne))
  rw [line_eq] at hok ⊢
  by_cases hline : OneLine (l :: ls)
  · -- the line is one piece, and its labels are read to their end
    rw [List.splitOnP_eq_singleton (isLineBoundary_brace hname
      (not_isLineBoundary_closing hnames hboundary hline)), List.forall_mem_singleton] at hok ⊢
    obtain ⟨row, hrow⟩ := hok
    by_contra hskip
    obtain ⟨hbrace, hitems⟩ := items_of_parseLine hname hrow hskip
    obtain ⟨hclean, -⟩ := hitems.clean (u := []) hbrace hnames (List.append_nil _)
    exact hbroken ⟨fun m hm c hc => inItem_eq_true.1 (hclean m hm c hc), hline⟩
  · obtain ⟨x, c, y, heq, hc, hx, hinner⟩ := exists_break hnames hboundary hline
    rw [heq, ← List.cons_append, ← List.append_assoc, List.splitOnP_append_cons_of_forall_mem
      (isLineBoundary_brace hname hx) c hc, List.forall_mem_cons] at hok ⊢
    obtain ⟨⟨row, hrow⟩, hrest⟩ := hok
    refine ⟨?_, fun p hp => ?_⟩
    · by_contra hskip
      obtain ⟨hbrace, hitems⟩ := items_of_parseLine hname hrow hskip
      obtain ⟨-, t, -, ht⟩ := hitems.clean hbrace hnames heq.symm
      exact hafter c (ht ▸ by simp) (.inr hc)
    · obtain ⟨u, hu⟩ := forall_mem_splitOnP (P := Inner after) (fun x d y hd =>
        Inner.split (.inr hd) fun hmem => hafter d hmem (.inr hd)) hinner p hp
      obtain ⟨row, hrow⟩ := hrest p hp
      exact parseLine_inner (fun hmem => hafter _ hmem (.inl rfl)) hu hrow

/-- The labels are skipped in all their pieces, as they are written. -/
def Hidden (labels : List (String × String)) : Prop :=
  ∀ p ∈ (renderLabels labels).splitOnP isLineBoundary, Skipped p

instance (labels : List (String × String)) : Decidable (Hidden labels) :=
  inferInstanceAs (Decidable (∀ p ∈ _, _))

theorem skipped_brace {name : String} (hname : IsName name) {rest : List Char} :
    Skipped (name.toList ++ '{' :: rest) ↔ '}' ∉ rest := by
  have hdrop : (name.toList ++ '{' :: rest).dropWhile (· != '{') = '{' :: rest :=
    dropWhile_of_partition (partition_append (hname.notMem (by decide)) rest)
  have hhead : (name.toList ++ '{' :: rest).head? ≠ some '#' := by
    cases hcs : name.toList with
    | nil => simp
    | cons c cs =>
      rw [List.cons_append, List.head?_cons, Ne, Option.some_inj]
      rintro rfl
      exact absurd (hname _ (hcs ▸ List.mem_cons_self)) (by decide)
  rw [Skipped, hdrop]
  constructor
  · rintro (h | h | h)
    · simp at h
    · exact absurd h hhead
    · exact fun hmem => h (List.mem_cons_of_mem _ hmem)
  · exact fun h => .inr (.inr (by simpa using h))

/-- Text without braces after a line does not matter. -/
theorem skipped_append {line after : List Char} (hne : line ≠ []) (hclose : '}' ∉ after) : Skipped (line ++ after) ↔ Skipped line := by
  have hhead : (line ++ after).head? = line.head? := by
    cases line with
    | nil => exact absurd rfl hne
    | cons c line => rfl
  have hdrop : '}' ∈ (line ++ after).dropWhile (· != '{') ↔ '}' ∈ line.dropWhile (· != '{') := by
    rw [List.dropWhile_append]
    split_ifs with hempty
    · rw [List.isEmpty_iff.1 hempty]
      exact ⟨fun hmem => absurd ((List.dropWhile_suffix _).subset hmem) hclose, by simp⟩
    · simp [hclose]
  simp [Skipped, hne, hhead, hdrop]

theorem skipped_pieces_append {t after : List Char} {e : Char} (he : isLineBoundary e = false)
    (hafter : ∀ c ∈ after, isLineBoundary c = false) (hclose : '}' ∉ after) :
    (∀ p ∈ (t ++ e :: after).splitOnP isLineBoundary, Skipped p) ↔
      ∀ p ∈ (t ++ [e]).splitOnP isLineBoundary, Skipped p := by
  induction hn : t.length using Nat.strong_induction_on generalizing t with
  | _ n ih =>
    by_cases hsep : ∃ c ∈ t, isLineBoundary c = true
    · obtain ⟨xs, c, ys, rfl, hc, hxs⟩ := eq_append_separator hsep
      have hrest := ih ys.length (by simp at hn; omega) (t := ys) rfl
      rw [List.append_assoc, List.cons_append, List.append_assoc, List.cons_append,
        List.splitOnP_append_cons_of_forall_mem hxs c hc,
        List.splitOnP_append_cons_of_forall_mem hxs c hc, List.forall_mem_cons,
        List.forall_mem_cons, hrest]
    · have hnone : ∀ c ∈ t, isLineBoundary c = false := fun c hc => by
        by_contra hne
        exact hsep ⟨c, hc, by simpa using hne⟩
      rw [@List.splitOnP_eq_singleton _ _ (t ++ [e]), List.splitOnP_eq_singleton,
        List.forall_mem_singleton, List.forall_mem_singleton,
        show t ++ e :: after = (t ++ [e]) ++ after by simp,
        skipped_append (by simp) hclose]
      · intro c hc
        simp only [List.mem_append, List.mem_cons] at hc
        rcases hc with hc | rfl | hc
        · exact hnone c hc
        · exact he
        · exact hafter c hc
      · intro c hc
        simp only [List.mem_append, List.mem_singleton] at hc
        rcases hc with hc | rfl
        · exact hnone c hc
        · exact he

theorem closing_eq_append (ls : List (String × String)) :
    ∃ t, ∀ after, closing ls after = t ++ '}' :: after := by
  induction ls with
  | nil => exact ⟨[], fun after => rfl⟩
  | cons l ls ih =>
    obtain ⟨t, ht⟩ := ih
    exact ⟨',' :: (renderLabel l ++ t), fun after => by rw [closing, ht]; simp⟩

/-- The pieces of a line that begins with a metric. -/
theorem skipped_pieces_brace {name : String} (hname : IsName name) (rest : List Char) :
    (∀ p ∈ (name.toList ++ '{' :: rest).splitOnP isLineBoundary, Skipped p) ↔
      '}' ∉ rest.takeWhile (fun c => !isLineBoundary c) ∧
        ∀ p ∈ ((rest.splitOnP isLineBoundary).tail), Skipped p := by
  by_cases hsep : ∃ c ∈ rest, isLineBoundary c = true
  · obtain ⟨xs, c, ys, rfl, hc, hxs⟩ := eq_append_separator hsep
    rw [← List.cons_append, ← List.append_assoc, List.splitOnP_append_cons_of_forall_mem
      (isLineBoundary_brace hname hxs) c hc, List.splitOnP_append_cons_of_forall_mem hxs c hc,
      List.forall_mem_cons, skipped_brace hname, List.tail_cons,
      List.takeWhile_append_of_pos (by simpa using hxs), List.takeWhile_cons_of_neg (by simpa using hc),
      List.append_nil]
  · have hnone : ∀ c ∈ rest, isLineBoundary c = false := fun c hc => by
      by_contra hne
      exact hsep ⟨c, hc, by simpa using hne⟩
    rw [List.splitOnP_eq_singleton (isLineBoundary_brace hname hnone),
      List.splitOnP_eq_singleton hnone, List.forall_mem_singleton, skipped_brace hname,
      List.takeWhile_eq_self_iff.2 (by simpa using hnone)]
    simp

/-- The metric and the value of a line do not matter for its being skipped. -/
theorem skipped_line_iff {name : String} {after : List Char} (hname : IsName name)
    (hafter : ∀ c ∈ after, isLineBoundary c = false) (hclose : '}' ∉ after) :
    (∀ p ∈ (name.toList ++ renderLabels (l :: ls) ++ after).splitOnP isLineBoundary, Skipped p) ↔
      Hidden (l :: ls) := by
  obtain ⟨t, ht⟩ := closing_eq_append ls
  have hempty : IsName "" := by simp [IsName]
  have hbare : renderLabels (l :: ls) = "".toList ++ '{' :: (renderLabel l ++ t ++ ['}']) := by
    have := renderLabels_append l ls []
    rw [List.append_nil, ht, ← List.append_assoc] at this
    rw [this]
    rfl
  have hline : name.toList ++ renderLabels (l :: ls) ++ after =
      (name.toList ++ '{' :: (renderLabel l ++ t)) ++ '}' :: after := by
    rw [hbare]
    simp
  rw [Hidden, hline, skipped_pieces_append (by decide) hafter hclose, hbare,
    skipped_pieces_brace hempty, List.append_assoc, List.cons_append, skipped_pieces_brace hname]

end Line

end Observers
