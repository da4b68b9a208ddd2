import K8Labs.Observers.Collector
import K8Labs.Python.Sorted
import K8Labs.Python.UnicodeEscape

/-!
# Scraping the collector

`parseMetrics` is the reader of the runner: it takes the text of the collector apart line by line,
the labels of a line at its commas, and undoes the escapes of a label with the codec
`unicode_escape`.
-/

namespace Observers

open Py

/-- `raise CellRunError(message)`. -/
def cellRunError {α : Type*} (message : String) : Except Exc α := .error ⟨.runtimeError, message⟩

/-- `REQUIRED_METRICS`, sorted. -/
def requiredMetrics : List String :=
  ["container_cpu_cfs_periods_total", "container_cpu_cfs_throttled_periods_total",
    "container_cpu_cfs_throttled_seconds_total", "container_cpu_usage_seconds_total",
    "container_memory_working_set_bytes", "container_pressure_cpu_waiting_seconds_total"]

/-- A row of the scrape. -/
structure Row where
  timestamp : String
  source : String
  metric : String
  value : String
  unit : String
  labelsJson : List Char
  deriving DecidableEq

/-- `json.dumps(labels, sort_keys=True)`. -/
def labelsJson (labels : List (String × String)) : List Char :=
  '{' :: ([',', ' '].intercalate ((labels.insertionSort fun a b => a.1 ≤ b.1).map fun label =>
    Json.encodeString label.1 ++ ':' :: ' ' :: Json.encodeString label.2) ++ ['}'])

section Parse

variable (named : List Char → Option Char)

/-- One label: its key, and its value without the escapes. -/
def parseItem (metric item : List Char) : Except Exc (String × String) :=
  let invalid := "invalid Prometheus label in " ++ String.ofList metric
  match partition '=' item with
  | none => cellRunError invalid
  | some (key, encoded) =>
    if encoded.length < 2 ∨ encoded.head? ≠ some '"' ∨ encoded.getLast? ≠ some '"' then
      cellRunError invalid
    else
      (UnicodeEscape.decode named (((encoded.drop 1).dropLast).flatMap latin1)).map fun value =>
        (String.ofList key, String.ofList value)

/-- The labels; of one key the last counts. -/
def parseLabels (metric labelsText : List Char) : Except Exc (List (String × String)) :=
  fold (fun labels item => (parseItem named metric item).map fun (key, value) =>
    Dict.update key (fun _ => value) labels) [] (labelsText.splitOn ',')

/-- The row of a line, when the line has a sample of the cell. -/
def parseLine (cellId timestamp : String) (line : List Char) : Except Exc (Option Row) :=
  if line = [] ∨ line.head? = some '#' then .ok none
  else
    match partition '{' line with
    | none => .ok none
    | some (metric, rest) =>
      match partition '}' rest with
      | none => .ok none
      | some (labelsText, value) =>
        (parseLabels named metric labelsText).bind fun labels =>
          if labels.lookup "cell_id" ≠ some cellId then .ok none
          else
            let rawValue := strip (String.ofList value)
            match parseFloat rawValue with
            | .error _ => cellRunError ("metric " ++ String.ofList metric ++ " has no numeric value")
            | .ok _ =>
              .ok (some
                { timestamp := timestamp
                  source := "collector"
                  metric := String.ofList metric
                  value := rawValue
                  unit := if endsWith (String.ofList metric) "_seconds_total" then "seconds"
                    else "count"
                  labelsJson := labelsJson labels })

/-- `parse_metrics`. -/
def parseMetrics (text : List Char) (cellId timestamp : String) : Except Exc (List Row) :=
  (Py.traverse (parseLine named cellId timestamp) (breakLines (collapseCrLf text) [])).bind fun rows =>
    let rows := rows.filterMap id
    let missing := requiredMetrics.filter fun name => !(rows.map Row.metric).contains name
    if missing = [] then .ok rows
    else cellRunError ("collector is missing required metric(s): " ++ ", ".intercalate missing)

end Parse

/-! ### Escaped text -/

/-- The escaped characters of a label value. -/
def escaped (cs : List Char) : List Char := cs.flatMap escapeLabelChar

/-- The value of a label after it is encoded, and its bytes decoded as the codec does. -/
def mangled (cs : List Char) : List Char := cs.flatMap latin1

theorem escaped_cons (c : Char) (cs : List Char) :
    escaped (c :: cs) = escapeLabelChar c ++ escaped cs := List.flatMap_cons ..

theorem escaped_append (xs ys : List Char) : escaped (xs ++ ys) = escaped xs ++ escaped ys :=
  List.flatMap_append

/-- The escape of a character: a backslash and one more, or the character itself. -/
theorem escapeLabelChar_cases (c : Char) :
    (c = '\\' ∧ escapeLabelChar c = ['\\', '\\']) ∨ (c = '\n' ∧ escapeLabelChar c = ['\\', 'n']) ∨
      (c = '"' ∧ escapeLabelChar c = ['\\', '"']) ∨
        (c ≠ '\\' ∧ c ≠ '\n' ∧ c ≠ '"' ∧ escapeLabelChar c = [c]) := by
  unfold escapeLabelChar
  split_ifs with h₁ h₂ h₃
  · exact .inl ⟨h₁, rfl⟩
  · exact .inr (.inl ⟨h₂, rfl⟩)
  · exact .inr (.inr (.inl ⟨h₃, rfl⟩))
  · exact .inr (.inr (.inr ⟨h₁, h₂, h₃, rfl⟩))

theorem mem_escaped {d : Char} {cs : List Char} (h : d ∈ escaped cs) :
    d = '\\' ∨ d = 'n' ∨ d = '"' ∨ (d ∈ cs ∧ d ≠ '\n') := by
  obtain ⟨c, hc, hd⟩ := List.mem_flatMap.1 h
  rcases escapeLabelChar_cases c with ⟨-, he⟩ | ⟨-, he⟩ | ⟨-, he⟩ | ⟨-, hn, -, he⟩
  all_goals rw [he] at hd
  · simp_all
  · simp at hd
    tauto
  · simp at hd
    tauto
  · rw [List.mem_singleton] at hd
    exact .inr (.inr (.inr ⟨hd ▸ hc, hd ▸ hn⟩))

/-- A quote in escaped text comes after a backslash. -/
theorem head_escaped_ne_quote {cs : List Char} (hne : cs ≠ []) (s : List Char) :
    (escaped cs ++ s).head? ≠ some '"' := by
  obtain ⟨c, cs, rfl⟩ := List.exists_cons_of_ne_nil hne
  rw [escaped_cons, List.append_assoc]
  rcases escapeLabelChar_cases c with ⟨-, he⟩ | ⟨-, he⟩ | ⟨-, he⟩ | ⟨-, -, hq, he⟩
  all_goals rw [he]
  · simp
  · simp
  · simp
  · simpa using hq

theorem mem_escaped_of_mem {d : Char} {cs : List Char} (h : d ∈ cs) (h₁ : d ≠ '\\') (h₂ : d ≠ '\n')
    (h₃ : d ≠ '"') : d ∈ escaped cs :=
  List.mem_flatMap.2 ⟨d, h, by simp [escapeLabelChar, h₁, h₂, h₃]⟩

theorem notMem_escaped {d : Char} (h₁ : d ≠ '\\') (h₂ : d ≠ 'n') (h₃ : d ≠ '"') {cs : List Char}
    (h : d ∉ cs) : d ∉ escaped cs := by
  intro hd
  rcases mem_escaped hd with hd | hd | hd | ⟨hd, -⟩
  · exact h₁ hd
  · exact h₂ hd
  · exact h₃ hd
  · exact h hd

/-- An unescaped character splits escaped text where it splits the text. -/
theorem partition_escaped {d : Char} (h₁ : d ≠ '\\') (h₂ : d ≠ 'n') (h₃ : d ≠ '"')
    (h₄ : d ≠ '\n') {cs s : List Char} (hs : d ∉ s) {before after : List Char} (h : partition d (escaped cs ++ s) = some (before, after)) :
    ∃ xs ys, cs = xs ++ d :: ys ∧ after = escaped ys ++ s := by
  by_cases hmem : d ∈ cs
  · obtain ⟨xs, ys, rfl, hxs⟩ := List.eq_append_cons_of_mem hmem
    have hself : escapeLabelChar d = [d] := by simp [escapeLabelChar, h₁, h₃, h₄]
    rw [escaped_append, escaped_cons, hself, List.append_assoc, List.append_assoc,
      List.singleton_append, partition_append (notMem_escaped h₁ h₂ h₃ hxs)] at h
    cases h
    exact ⟨xs, ys, rfl, rfl⟩
  · rw [partition_eq_none] at h
    · cases h
    · rw [List.mem_append, not_or]
      exact ⟨notMem_escaped h₁ h₂ h₃ hmem, hs⟩

/-! ### Undoing the escapes -/

section Items

variable {named : List Char → Option Char} {n : ℕ}

open UnicodeEscape

theorem decodeFrom_plain {xs : List Char} (h : ∀ c ∈ xs, c ≠ '\\') (t : List Char)
    (hn : (xs ++ t).length ≤ n) : ∃ m, t.length ≤ m ∧
      decodeFrom named n (xs ++ t) = (decodeFrom named m t).map (xs ++ ·) := by
  induction xs generalizing n with
  | nil =>
    refine ⟨n, hn, ?_⟩
    rw [List.nil_append]
    cases decodeFrom named n t <;> rfl
  | cons c xs ih =>
    rw [List.forall_mem_cons] at h
    obtain ⟨n, rfl⟩ : ∃ k, n = k + 1 := ⟨n - 1, by simp at hn; omega⟩
    obtain ⟨m, hm, hdecode⟩ := ih (n := n) h.2 (by simpa using hn)
    refine ⟨m, hm, ?_⟩
    rw [List.cons_append, decodeFrom, if_neg h.1, hdecode]
    cases decodeFrom named m t <;> rfl

/-- A backslash and the character it escapes. -/
theorem decodeFrom_pair {c d : Char} (hescape : ∀ t, escape named (c :: t) = .ok ([d], t))
    (t : List Char) (hn : ('\\' :: c :: t).length ≤ n) : ∃ m, t.length ≤ m ∧
      decodeFrom named n ('\\' :: c :: t) = (decodeFrom named m t).map ([d] ++ ·) := by
  obtain ⟨n, rfl⟩ : ∃ k, n = k + 1 := ⟨n - 1, by simp at hn; omega⟩
  refine ⟨n, by simp at hn; omega, ?_⟩
  rw [decodeFrom, if_pos rfl, hescape]
  rfl

theorem ne_backslash_of_mem_latin1 {c d : Char} (hc : c ≠ '\\') (hd : d ∈ latin1 c) : d ≠ '\\' := by
  rintro rfl
  by_cases hascii : IsAscii c
  · rw [latin1_of_ascii hascii, List.mem_singleton] at hd
    exact hc hd.symm
  · exact (latin1_of_not_ascii hascii).2 _ hd (by decide)

/-- The escape of a character gives its bytes. -/
theorem decodeFrom_escapeLabelChar (c : Char) (t : List Char)
    (hn : (mangled (escapeLabelChar c) ++ t).length ≤ n) : ∃ m, t.length ≤ m ∧
      decodeFrom named n (mangled (escapeLabelChar c) ++ t) =
        (decodeFrom named m t).map (latin1 c ++ ·) := by
  rcases escapeLabelChar_cases c with ⟨rfl, he⟩ | ⟨rfl, he⟩ | ⟨rfl, he⟩ | ⟨hc, -, -, he⟩
  all_goals rw [he] at hn ⊢
  · exact decodeFrom_pair (fun t => rfl) t hn
  · exact decodeFrom_pair (fun t => rfl) t hn
  · exact decodeFrom_pair (fun t => rfl) t hn
  · have hsingle : mangled [c] = latin1 c := by simp [mangled]
    rw [hsingle] at hn ⊢
    exact decodeFrom_plain (fun d hd => ne_backslash_of_mem_latin1 hc hd) t hn

/-- Escaped text gives the bytes of the text, whatever comes after it. -/
theorem decodeFrom_escaped (cs t : List Char) (hn : (mangled (escaped cs) ++ t).length ≤ n) :
    ∃ m, t.length ≤ m ∧ decodeFrom named n (mangled (escaped cs) ++ t) =
      (decodeFrom named m t).map (mangled cs ++ ·) := by
  induction cs generalizing n with
  | nil => exact @decodeFrom_plain _ _ [] (by simp) t hn
  | cons c cs ih =>
    have hsplit : mangled (escaped (c :: cs)) ++ t =
        mangled (escapeLabelChar c) ++ (mangled (escaped cs) ++ t) := by
      rw [escaped_cons, mangled, List.flatMap_append, List.append_assoc]
      rfl
    rw [hsplit] at hn ⊢
    obtain ⟨k, hk, hfirst⟩ := @decodeFrom_escapeLabelChar named _ c _ hn
    obtain ⟨m, hm, hrest⟩ := ih hk
    refine ⟨m, hm, ?_⟩
    rw [hfirst, hrest]
    cases decodeFrom named m t with
    | ok ds => simp [Except.map, mangled]
    | error exc => rfl

theorem decode_escaped (cs : List Char) :
    decode named (mangled (escaped cs)) = .ok (mangled cs) := by
  obtain ⟨m, -, h⟩ := @decodeFrom_escaped named (mangled (escaped cs)).length cs [] (by simp)
  rw [List.append_nil] at h
  rw [decode, h]
  cases m <;> simp [decodeFrom, Except.map]

/-- A lone backslash at the end. -/
theorem decode_backslash (cs : List Char) (ds : List Char) :
    decode named (mangled (escaped cs) ++ ['\\']) ≠ .ok ds := by
  obtain ⟨m, hm, h⟩ := @decodeFrom_escaped named (mangled (escaped cs) ++ ['\\']).length cs ['\\']
    (by simp)
  obtain ⟨m, rfl⟩ : ∃ k, m = k + 1 := ⟨m - 1, by simp at hm; omega⟩
  rw [decode, h, decodeFrom, if_pos rfl]
  simp [escape, UnicodeEscape.decodeError, Except.map, Except.bind]

variable {metric key : List Char} {r : String × String}

theorem parseItem_eq_ok {item : List Char} (h : parseItem named metric item = .ok r) :
    ∃ key encoded, partition '=' item = some (key, encoded) ∧ 2 ≤ encoded.length ∧
      encoded.head? = some '"' ∧ encoded.getLast? = some '"' ∧
        ∃ ds, decode named (mangled (encoded.drop 1).dropLast) = .ok ds := by
  unfold parseItem at h
  split at h
  · cases h
  · next key encoded hpartition =>
    simp only [cellRunError] at h
    rw [ite_error_eq_ok, not_or, not_or, not_lt, not_not, not_not] at h
    obtain ⟨⟨hlen, hhead, hlast⟩, h⟩ := h
    obtain ⟨ds, hds, -⟩ := Py.map_eq_ok.1 h
    exact ⟨key, encoded, hpartition, hlen, hhead, hlast, ds, hds⟩

/-- A label that is cut off in its value. -/
theorem parseItem_open (hkey : '=' ∉ key) (cs : List Char) :
    parseItem named metric (key ++ '=' :: '"' :: escaped cs) ≠ .ok r := by
  intro h
  obtain ⟨key', encoded, hpartition, hlen, -, hlast, ds, hds⟩ := parseItem_eq_ok h
  rw [partition_append hkey] at hpartition
  cases hpartition
  rcases List.eq_nil_or_concat cs with rfl | ⟨cs, c, rfl⟩
  · simp [escaped] at hlen
  have hsingle : escaped [c] = escapeLabelChar c := by simp [escaped]
  rw [List.concat_eq_append, escaped_append] at hlast hds
  rw [hsingle, ← List.cons_append, List.getLast?_append] at hlast
  -- the last character is a quote, so it is the second half of an escape
  rcases escapeLabelChar_cases c with ⟨-, he⟩ | ⟨-, he⟩ | ⟨rfl, -⟩ | ⟨-, -, hc, he⟩
  · simp [he] at hlast
  · simp [he] at hlast
  · have hsplit : ('"' :: (escaped cs ++ escaped ['"'])).drop 1 = escaped cs ++ ['\\'] ++ ['"'] := by
      simp [escaped, escapeLabelChar]
    rw [hsplit, List.dropLast_concat, mangled, List.flatMap_append] at hds
    exact decode_backslash cs ds hds
  · simp [he, hc] at hlast

/-- An item that begins inside a value. -/
theorem parseItem_inner (cs : List Char) {s : List Char} (hs : s = [] ∨ s = ['"']) :
    parseItem named metric (escaped cs ++ s) ≠ .ok r := by
  intro h
  obtain ⟨key', encoded, hpartition, hlen, hhead, -, -⟩ := parseItem_eq_ok h
  have hnot : '=' ∉ s := by rcases hs with rfl | rfl <;> simp
  obtain ⟨xs, ys, -, rfl⟩ := partition_escaped (by decide) (by decide) (by decide) (by decide) hnot
    hpartition
  by_cases hys : ys = []
  · subst hys
    rcases hs with rfl | rfl <;> simp [escaped] at hlen
  · exact head_escaped_ne_quote hys s hhead

/-- A whole label. -/
theorem parseItem_renderLabel {label : String × String} (hkey : '=' ∉ label.1.toList) :
    parseItem named metric (renderLabel label) =
      .ok (label.1, String.ofList (mangled label.2.toList)) := by
  have hlast : (('"' :: (escapeLabel label.2 ++ ['"'])).getLast?) = some '"' := by
    rw [List.getLast?_cons, List.getLast?_append]
    rfl
  have hbody : (('"' :: (escapeLabel label.2 ++ ['"'])).drop 1).dropLast = escaped label.2.toList := by
    simp [escapeLabel, escaped]
  unfold parseItem renderLabel
  rw [partition_append hkey]
  dsimp only
  rw [if_neg, hbody]
  · have := @decode_escaped named label.2.toList
    rw [mangled] at this
    rw [this, Except.map, String.ofList_toList]
  · rw [not_or, not_or, not_lt, not_not, not_not]
    exact ⟨by simp, rfl, hlast⟩

/-! ### The items of a line -/

/-- Every item up to the closing brace is read. -/
def ItemsOk (named : List Char → Option Char) (metric rest : List Char) : Prop :=
  ∀ item ∈ (rest.takeWhile (· != '}')).splitOn ',', ∃ r, parseItem named metric item = .ok r

theorem itemsOk_of_parseLabels {text : List Char} {labels : List (String × String)}
    (h : parseLabels named metric text = .ok labels) :
    ∀ item ∈ text.splitOn ',', ∃ r, parseItem named metric item = .ok r := by
  unfold parseLabels at h
  generalize ([] : List (String × String)) = acc at h
  generalize text.splitOn ',' = items at h
  induction items generalizing acc with
  | nil => simp
  | cons item items ih =>
    obtain ⟨acc', hfirst, hrest⟩ := bind_eq_ok.1 h
    obtain ⟨r, hr, -⟩ := Py.map_eq_ok.1 hfirst
    exact List.forall_mem_cons.2 ⟨⟨r, hr⟩, ih acc' hrest⟩

/-- The items after the first one. -/
theorem ItemsOk.skip {item rest : List Char} (hitem : ∀ c ∈ item, c ≠ ',' ∧ c ≠ '}')
    (h : ItemsOk named metric (item ++ ',' :: rest)) : ItemsOk named metric rest := by
  have hbrace : ∀ c ∈ item, (c != '}') = true := fun c hc => by simpa using (hitem c hc).2
  intro x hx
  refine h x ?_
  rw [List.takeWhile_append_of_pos hbrace, List.takeWhile_cons_of_pos (by decide),
    List.splitOn_append_cons_self_of_not_mem fun hmem => (hitem _ hmem).1 rfl]
  exact List.mem_cons_of_mem _ hx

/-- The first item. -/
theorem ItemsOk.first {rest : List Char} (h : ItemsOk named metric rest) :
    ∃ r, parseItem named metric (rest.takeWhile fun c => c != ',' && c != '}') = .ok r := by
  have hboth : (rest.takeWhile fun c => c != ',' && c != '}') =
      (rest.takeWhile (· != '}')).takeWhile (· != ',') := by
    rw [List.takeWhile_takeWhile]
    congr
    funext c
    by_cases hcomma : c = ',' <;> by_cases hbrace : c = '}' <;> simp [hcomma, hbrace]
  rw [hboth]
  exact h _ (takeWhile_mem_splitOn _ _)

end Items

end Observers
