import K8Labs.Python.Str
import Mathlib.Data.Int.Log
import Mathlib.Data.List.Sort

/-!
# Rendering one campaign cell

`research/cpu-limits/phase8/manifests/render-cell.py` substitutes validated values into the
workload template, and `CellSpec` of `campaign/k8s.py` builds those values from the measured
fields.  `render` is the renderer on the text of the template: it refuses unknown and missing
placeholders, values outside the placeholder's pattern, a request above its limit, and output in
which a placeholder is left.

The patterns are written as recognisers of the whole value (`re.fullmatch`); the quantity pattern
`^[1-9][0-9]{1,4}m$` wants **two to five digits** (`isQuantity_natDigits`).
-/

namespace Phase8

/-- `RenderError`: a manifest cannot be produced from these values.  A placeholder of the template
without a value raises `KeyError` instead. -/
inductive RenderFailure where
  | renderError (message : String)
  | keyError (name : String)
  | valueError (message : String)
  deriving DecidableEq

/-! ### Patterns -/

/-- `[1-9][0-9]{lo,hi}`. -/
def isNumeral (lo hi : ℕ) (cs : List Char) : Bool :=
  match cs with
  | c :: rest =>
    c.isDigit && c != '0' && rest.all Char.isDigit && decide (lo ≤ rest.length) &&
      decide (rest.length ≤ hi)
  | [] => false

/-- `[1-9][0-9]{1,4}m`. -/
def isQuantity (cs : List Char) : Bool := cs.getLast? == some 'm' && isNumeral 1 4 cs.dropLast

/-- A lower-case letter or a digit of a cell name. -/
def isNameChar (c : Char) : Bool := c.isLower || c.isDigit

/-- `[a-z0-9][a-z0-9-]{0,40}`. -/
def isCellName (cs : List Char) : Bool :=
  match cs with
  | c :: rest => isNameChar c && rest.all (fun d => isNameChar d || d == '-') &&
      decide (rest.length ≤ 40)
  | [] => false

/-- `read-heavy|write-heavy|balanced|cpu-heavy`. -/
def isMix (cs : List Char) : Bool :=
  ["read-heavy", "write-heavy", "balanced", "cpu-heavy"].contains (String.ofList cs)

/-- `0(\.\d+)?|1(\.0+)?`. -/
def isRatio (cs : List Char) : Bool :=
  match cs with
  | ['0'] => true
  | ['1'] => true
  | '0' :: '.' :: ds => !ds.isEmpty && ds.all Py.isDigit
  | '1' :: '.' :: ds => !ds.isEmpty && ds.all (· == '0')
  | _ => false

/-- A placeholder of the template: its name, its pattern, and the recogniser of the pattern. -/
structure Placeholder where
  name : String
  pattern : String
  accepts : List Char → Bool

/-- The pattern of the four CPU quantities. -/
def quantityPattern : String := "^[1-9][0-9]\x7b1,4\x7dm$"

/-- `PLACEHOLDERS`. -/
def placeholders : List Placeholder :=
  [⟨"CELL", "^[a-z0-9][a-z0-9-]\x7b0,40\x7d$", isCellName⟩,
    ⟨"MIX", "^(read-heavy|write-heavy|balanced|cpu-heavy)$", isMix⟩,
    ⟨"CPU_ITERATIONS", "^[1-9][0-9]\x7b2,7\x7d$", isNumeral 2 7⟩,
    ⟨"POSTGRES_POOL_SIZE", "^[1-9][0-9]?$", isNumeral 0 1⟩,
    ⟨"REDIS_POOL_SIZE", "^[1-9][0-9]?$", isNumeral 0 1⟩,
    ⟨"TRACE_SAMPLE_RATIO", "^(0(\\.\\d+)?|1(\\.0+)?)$", isRatio⟩,
    ⟨"CPU_REQUEST", quantityPattern, isQuantity⟩,
    ⟨"CPU_LIMIT", quantityPattern, isQuantity⟩,
    ⟨"SIDECAR_CPU_REQUEST", quantityPattern, isQuantity⟩,
    ⟨"SIDECAR_CPU_LIMIT", quantityPattern, isQuantity⟩]

/-- `parse_quantity_millicores`.  The text of the error quotes the value. -/
def parseQuantityMillicores (value : String) : Except RenderFailure ℕ :=
  let cs := value.toList
  let parse := fun ds => (Py.intOfDigits ds).mapError fun e => RenderFailure.valueError e.message
  if cs.getLast? = some 'm' then
    if isNumeral 0 cs.length cs.dropLast then parse cs.dropLast
    else .error (.renderError ("unsupported CPU quantity: '" ++ value ++ "'"))
  else if isNumeral 0 cs.length cs then (parse cs).map (· * 1000)
  else .error (.renderError ("unsupported CPU quantity: '" ++ value ++ "'"))

/-! ### Substitution -/

/-- A character of a placeholder's name: `[A-Z_]`. -/
def isPlaceholderChar (c : Char) : Bool := c.isUpper || c == '_'

/-- A placeholder at the start of the text: its name and the text after it. -/
def placeholderAt : List Char → Option (String × List Char)
  | '{' :: '{' :: cs =>
    let name := cs.takeWhile isPlaceholderChar
    match cs.dropWhile isPlaceholderChar with
    | '}' :: '}' :: rest => if name = [] then none else some (String.ofList name, rest)
    | _ => none
  | _ => none

/-- `PLACEHOLDER_PATTERN.sub`, left to right; the number bounds the steps and is the length of
the text. -/
def substitute (values : List (String × String)) : ℕ → List Char → Except RenderFailure (List Char)
  | 0, cs => .ok cs
  | _ + 1, [] => .ok []
  | n + 1, c :: cs =>
    match placeholderAt (c :: cs) with
    | some (name, rest) =>
      match values.lookup name with
      | some value => (substitute values n rest).map (value.toList ++ ·)
      | none => .error (.keyError name)
    | none => (substitute values n cs).map (c :: ·)

/-- `PLACEHOLDER_PATTERN.findall`. -/
def findPlaceholders : ℕ → List Char → List String
  | 0, _ => []
  | _ + 1, [] => []
  | n + 1, c :: cs =>
    match placeholderAt (c :: cs) with
    | some (name, rest) => name :: findPlaceholders n rest
    | none => findPlaceholders n cs

/-- `sorted(set(names))`, joined for a message. -/
def joinSorted (names : List String) : String :=
  String.intercalate ", " ((names.dedup).insertionSort (· ≤ ·))

/-- The first placeholder whose value does not match its pattern. -/
def firstInvalid (values : List (String × String)) : Option (Placeholder × String) :=
  placeholders.findSome? fun p =>
    match values.lookup p.name with
    | some value => if p.accepts value.toList then none else some (p, value)
    | none => none

/-- A request must not exceed its limit. -/
def checkRequest (values : List (String × String)) (request limit : String)
    (message : ℕ → ℕ → String) : Except RenderFailure Unit :=
  (parseQuantityMillicores ((values.lookup request).getD "")).bind fun r =>
    (parseQuantityMillicores ((values.lookup limit).getD "")).bind fun l =>
      if r > l then .error (.renderError (message r l)) else .ok ()

/-- `render`, on the text of the template. -/
def render (values : List (String × String)) (template : List Char) :
    Except RenderFailure (List Char) :=
  let unknown := (values.map Prod.fst).filter fun k => !(placeholders.map (·.name)).contains k
  let missing := (placeholders.map (·.name)).filter fun k => !(values.map Prod.fst).contains k
  if unknown ≠ [] then
    .error (.renderError ("unknown placeholder(s): " ++ joinSorted unknown))
  else if missing ≠ [] then
    .error (.renderError ("missing placeholder(s): " ++ joinSorted missing))
  else
    match firstInvalid values with
    | some (p, value) =>
      .error (.renderError ("placeholder " ++ p.name ++ " has invalid value '" ++ value ++
        "'; expected " ++ p.pattern))
    | none =>
      (checkRequest values "CPU_REQUEST" "CPU_LIMIT" fun r l =>
        "CPU_REQUEST (" ++ toString r ++ "m) exceeds CPU_LIMIT (" ++ toString l ++
          "m); Kubernetes rejects this and the cell would never start").bind fun _ =>
      (checkRequest values "SIDECAR_CPU_REQUEST" "SIDECAR_CPU_LIMIT" fun r l =>
        "SIDECAR_CPU_REQUEST (" ++ toString r ++ "m) exceeds SIDECAR_CPU_LIMIT (" ++ toString l ++
          "m)").bind fun _ =>
      (substitute values template.length template).bind fun rendered =>
        let leftover := findPlaceholders rendered.length rendered
        if leftover ≠ [] then
          .error (.renderError ("unsubstituted placeholder(s): " ++ joinSorted leftover))
        else .ok rendered

/-! ### The values of a cell -/

/-- Every input the renderer needs. -/
structure CellSpec where
  cell : String
  mix : String
  cpuLimitMillicores : ℤ
  cpuRequestMillicores : ℤ
  cpuIterations : ℤ
  postgresPoolSize : ℤ
  redisPoolSize : ℤ
  traceSampleRatio : ℚ
  sidecarCpuRequestMillicores : ℤ
  sidecarCpuLimitMillicores : ℤ

/-- `f"{q:g}"`: six significant digits, trailing zeros removed. -/
def formatGeneral (q : ℚ) : String :=
  if q = 0 then "0"
  else
    let e₀ := Int.log 10 |q|
    let e := if 10 ^ 6 ≤ Py.roundHalfEven (|q| / (10 : ℚ) ^ (e₀ - 5)) then e₀ + 1 else e₀
    let trim := fun (s : String) =>
      if s.toList.contains '.' then
        String.ofList ((s.toList.reverse.dropWhile (· == '0')).dropWhile (· == '.')).reverse
      else s
    if -4 ≤ e ∧ e < 6 then trim (Py.formatFixed (5 - e).toNat q)
    else
      trim (Py.formatFixed 5 (q / (10 : ℚ) ^ e)) ++ (if e < 0 then "e-" else "e+") ++
        (if e.natAbs < 10 then "0" else "") ++ toString e.natAbs

/-- `CellSpec.render_values`. -/
def CellSpec.renderValues (spec : CellSpec) : List (String × String) :=
  [("CELL", spec.cell), ("MIX", spec.mix), ("CPU_ITERATIONS", toString spec.cpuIterations),
    ("POSTGRES_POOL_SIZE", toString spec.postgresPoolSize),
    ("REDIS_POOL_SIZE", toString spec.redisPoolSize),
    ("TRACE_SAMPLE_RATIO", formatGeneral spec.traceSampleRatio),
    ("CPU_REQUEST", toString spec.cpuRequestMillicores ++ "m"),
    ("CPU_LIMIT", toString spec.cpuLimitMillicores ++ "m"),
    ("SIDECAR_CPU_REQUEST", toString spec.sidecarCpuRequestMillicores ++ "m"),
    ("SIDECAR_CPU_LIMIT", toString spec.sidecarCpuLimitMillicores ++ "m")]

/-- `CellSpec.manifest`. -/
def CellSpec.manifest (spec : CellSpec) (template : List Char) :
    Except RenderFailure (List Char) := render spec.renderValues template

/-! ### Numerals -/

theorem isNumeral_natDigits {lo hi n : ℕ} (hn : 0 < n) :
    isNumeral lo hi (Py.natDigits n) = true ↔ 10 ^ lo ≤ n ∧ n < 10 ^ (hi + 1) := by
  have hlen : ∀ k, 0 < k → ((Py.natDigits n).length ≤ k ↔ n < 10 ^ k) := fun k hk =>
    Nat.length_toDigits_le_iff (by omega) hk
  have hhead := Py.head_natDigits hn
  have hdig : ∀ c ∈ Py.natDigits n, c.isDigit = true := fun c hc => Py.isDigit_of_mem_natDigits hc
  cases hds : Py.natDigits n with
  | nil => exact absurd hds (Py.natDigits_ne_nil n)
  | cons c rest =>
    rw [hds] at hlen hhead hdig
    have hc0 : c ≠ '0' := by simpa using hhead
    have hall : rest.all Char.isDigit = true := by
      rw [List.all_eq_true]
      exact fun d hd => hdig d (List.mem_cons_of_mem _ hd)
    have hhi := hlen (hi + 1) (by omega)
    have hlo : lo ≤ rest.length ↔ 10 ^ lo ≤ n := by
      rcases Nat.eq_zero_or_pos lo with rfl | hpos
      · simpa using Nat.one_le_iff_ne_zero.2 hn.ne'
      · have := hlen lo hpos
        rw [List.length_cons] at this
        omega
    rw [List.length_cons, Nat.add_le_add_iff_right] at hhi
    simp [isNumeral, hdig c List.mem_cons_self, hc0, hall, hlo, hhi]

/-- A printed number of millicores is a quantity of the renderer exactly from 10 to 99999. -/
theorem isQuantity_natDigits {n : ℕ} (hn : 0 < n) :
    isQuantity (Py.natDigits n ++ ['m']) = true ↔ 10 ≤ n ∧ n ≤ 99999 := by
  have hlast : (Py.natDigits n ++ ['m']).getLast? = some 'm' := by simp
  rw [isQuantity, hlast, List.dropLast_concat, beq_self_eq_true, Bool.true_and,
    isNumeral_natDigits hn]
  omega

theorem parseQuantity_natDigits {n : ℕ} (hn : 0 < n) (hlt : n ≤ 99999) {value : String}
    (hv : value.toList = Py.natDigits n ++ ['m']) : parseQuantityMillicores value = .ok n := by
  have hlen : (Py.natDigits n).length ≤ 5 :=
    (Nat.length_toDigits_le_iff (by omega) (by omega)).2 (by omega)
  have hnum : isNumeral 0 ((Py.natDigits n).length + 1) (Py.natDigits n) = true := by
    rw [isNumeral_natDigits hn]
    refine ⟨by simpa using Nat.one_le_iff_ne_zero.2 hn.ne', ?_⟩
    have := (Nat.length_toDigits_le_iff (b := 10) (n := n) (k := (Py.natDigits n).length + 1 + 1)
      (by omega) (by omega)).1 (by rw [Py.natDigits]; omega)
    exact this
  have hint : Py.intOfDigits (Py.natDigits n) = .ok n := by
    rw [Py.intOfDigits, if_neg (by rw [Py.maxIntDigits]; omega), Py.digitsValue_natDigits]
  simp [parseQuantityMillicores, hv, hnum, hint, Except.mapError]

/-! ### Rendering succeeds -/

/-- The template between its placeholders. -/
inductive Piece where
  | text (cs : List Char)
  | placeholder (name : String)

/-- The source text of a piece. -/
def Piece.source : Piece → List Char
  | text cs => cs
  | placeholder name => '{' :: '{' :: (name.toList ++ ['}', '}'])

/-- A text without an opening brace, or a placeholder that `PLACEHOLDERS` lists. -/
def Piece.Known : Piece → Prop
  | text cs => '{' ∉ cs
  | placeholder name => name ∈ placeholders.map (·.name)

instance (piece : Piece) : Decidable piece.Known :=
  match piece with
  | .text cs => inferInstanceAs (Decidable ('{' ∉ cs))
  | .placeholder name => inferInstanceAs (Decidable (name ∈ placeholders.map (·.name)))

/-- A template as the shipped one: opening braces stand at the placeholders of `PLACEHOLDERS`
only. -/
structure Template where
  pieces : List Piece
  known : ∀ piece ∈ pieces, piece.Known

/-- The text of the file. -/
def Template.text (template : Template) : List Char := template.pieces.flatMap Piece.source

theorem placeholderAt_known {name : String} (hname : name ∈ placeholders.map (·.name))
    (rest : List Char) :
    placeholderAt ('{' :: '{' :: (name.toList ++ '}' :: '}' :: rest)) = some (name, rest) := by
  have hchars : ∀ n ∈ placeholders.map (·.name), n.toList ≠ [] ∧
      n.toList.all isPlaceholderChar = true := by decide
  obtain ⟨hne, hall⟩ := hchars name hname
  rw [List.all_eq_true] at hall
  have hbrace : isPlaceholderChar '}' = false := by decide
  simp [placeholderAt, List.takeWhile_append_of_pos hall, List.dropWhile_append_of_pos hall, hbrace,
    hne]

theorem placeholderAt_text {c : Char} (hc : c ≠ '{') (cs : List Char) :
    placeholderAt (c :: cs) = none := by
  unfold placeholderAt
  split
  · rename_i heq
    exact absurd (List.cons.inj heq).1 hc
  · rfl

/-- A text without an opening brace is copied. -/
theorem substitute_text {values : List (String × String)} {text : List Char} (h : '{' ∉ text)
    (n : ℕ) (rest : List Char) :
    substitute values (text.length + n) (text ++ rest) =
      (substitute values n rest).map (text ++ ·) := by
  induction text with
  | nil => simp [Except.map]; cases substitute values n rest <;> rfl
  | cons c text ih =>
    simp only [List.mem_cons, not_or] at h
    rw [List.length_cons, Nat.add_right_comm, List.cons_append, substitute,
      placeholderAt_text (Ne.symm h.1), ih h.2]
    cases substitute values n rest <;> rfl

/-- What a piece is rendered to. -/
def Piece.rendered (values : List (String × String)) : Piece → List Char
  | text cs => cs
  | placeholder name => ((values.lookup name).getD "").toList

theorem substitute_pieces {values : List (String × String)} {pieces : List Piece}
    (hvals : ∀ name ∈ placeholders.map (·.name), (values.lookup name).isSome)
    (hpieces : ∀ piece ∈ pieces, piece.Known) {n : ℕ}
    (hn : (pieces.flatMap Piece.source).length ≤ n) :
    substitute values n (pieces.flatMap Piece.source) =
      .ok (pieces.flatMap (Piece.rendered values)) := by
  induction pieces generalizing n with
  | nil => cases n <;> rfl
  | cons piece pieces ih =>
    have ih' : ∀ m, (pieces.flatMap Piece.source).length ≤ m →
        substitute values m (pieces.flatMap Piece.source) =
          .ok (pieces.flatMap (Piece.rendered values)) :=
      fun m hm => ih (fun q hq => hpieces q (List.mem_cons_of_mem _ hq)) hm
    have hpiece := hpieces piece List.mem_cons_self
    rw [List.flatMap_cons, List.length_append] at hn
    rw [List.flatMap_cons, List.flatMap_cons]
    cases piece with
    | text cs =>
      obtain ⟨m, rfl⟩ := Nat.exists_eq_add_of_le (le_trans (Nat.le_add_right _ _) hn)
      simp only [Piece.source] at hn ⊢
      rw [substitute_text hpiece, ih' _ (by omega)]
      rfl
    | placeholder name =>
      obtain ⟨value, hvalue⟩ := Option.isSome_iff_exists.1 (hvals name hpiece)
      simp only [Piece.source, List.length_cons, List.length_append] at hn
      obtain ⟨m, rfl⟩ : ∃ m, n = m + 1 := ⟨n - 1, by omega⟩
      simp only [Piece.source, List.cons_append, List.append_assoc, List.nil_append]
      rw [substitute, placeholderAt_known hpiece]
      simp only [hvalue, ih' m (by omega), Piece.rendered, Option.getD_some]
      rfl

theorem findPlaceholders_eq_nil {text : List Char} (h : '{' ∉ text) (n : ℕ) :
    findPlaceholders n text = [] := by
  induction text generalizing n with
  | nil => cases n <;> rfl
  | cons c text ih =>
    cases n with
    | zero => rfl
    | succ n =>
      simp only [List.mem_cons, not_or] at h
      rw [findPlaceholders, placeholderAt_text (Ne.symm h.1), ih h.2]

theorem isNumeral_digits {lo hi : ℕ} {cs : List Char} (h : isNumeral lo hi cs = true) :
    ∀ c ∈ cs, c.isDigit = true := by
  cases cs with
  | nil => simp
  | cons c cs =>
    simp only [isNumeral, Bool.and_eq_true, List.all_eq_true] at h
    simpa [h.1.1.1.1] using h.1.1.2

theorem brace_notMem_of_digits {cs : List Char} (h : ∀ c ∈ cs, c.isDigit = true) : '{' ∉ cs :=
  fun hmem => absurd (h _ hmem) (by decide)

/-- No accepted value contains an opening brace. -/
theorem brace_notMem_of_accepts {p : Placeholder} (hp : p ∈ placeholders) {cs : List Char}
    (h : p.accepts cs = true) : '{' ∉ cs := by
  -- one fact for each pattern; the placeholders share them
  have hcell : isCellName cs = true → '{' ∉ cs := by
    intro h hmem
    cases cs with
    | nil => cases hmem
    | cons c cs =>
      simp only [isCellName, Bool.and_eq_true, List.all_eq_true] at h
      rcases List.mem_cons.1 hmem with rfl | hmem
      · exact absurd h.1.1 (by decide)
      · exact absurd (h.1.2 _ hmem) (by decide)
  have hmix : isMix cs = true → '{' ∉ cs := by
    intro h
    have hall : ∀ m ∈ ["read-heavy", "write-heavy", "balanced", "cpu-heavy"],
        '{' ∉ m.toList := by decide
    have := hall _ (List.contains_iff_mem.1 h)
    simpa using this
  have hquantity : isQuantity cs = true → '{' ∉ cs := by
    intro h hmem
    simp only [isQuantity, Bool.and_eq_true, beq_iff_eq] at h
    obtain ⟨ds, rfl⟩ := List.getLast?_eq_some_iff.1 h.1
    rw [List.dropLast_concat] at h
    rcases List.mem_append.1 hmem with hmem | hmem
    · exact brace_notMem_of_digits (isNumeral_digits h.2) hmem
    · simp at hmem
  have hratio : isRatio cs = true → '{' ∉ cs := by
    intro h hmem
    unfold isRatio at h
    split at h
    · simp at hmem
    · simp at hmem
    · simp only [List.mem_cons, Bool.and_eq_true, List.all_eq_true] at h hmem
      rcases hmem with hmem | hmem | hmem
      · cases hmem
      · cases hmem
      · exact absurd (h.2 _ hmem) (by decide)
    · simp only [List.mem_cons, Bool.and_eq_true, List.all_eq_true] at h hmem
      rcases hmem with hmem | hmem | hmem
      · cases hmem
      · cases hmem
      · exact absurd (h.2 _ hmem) (by decide)
    · cases h
  have hnum : ∀ lo hi, isNumeral lo hi cs = true → '{' ∉ cs := fun lo hi h =>
    brace_notMem_of_digits (isNumeral_digits h)
  simp only [placeholders, List.mem_cons, List.not_mem_nil, or_false] at hp
  rcases hp with rfl | rfl | rfl | rfl | rfl | rfl | rfl | rfl | rfl | rfl
  · exact hcell h
  · exact hmix h
  · exact hnum 2 7 h
  · exact hnum 0 1 h
  · exact hnum 0 1 h
  · exact hratio h
  · exact hquantity h
  · exact hquantity h
  · exact hquantity h
  · exact hquantity h

/-- What the renderer accepted matches the patterns. -/
theorem accepts_of_render {values : List (String × String)} {template manifest : List Char}
    (h : render values template = .ok manifest) {p : Placeholder} (hp : p ∈ placeholders)
    {value : String} (hv : values.lookup p.name = some value) : p.accepts value.toList = true := by
  unfold render at h
  simp only at h
  split_ifs at h
  cases hinv : firstInvalid values with
  | some pv => rw [hinv] at h; cases h
  | none =>
    rw [firstInvalid, List.findSome?_eq_none_iff] at hinv
    have := hinv p hp
    rw [hv] at this
    simpa using this

/-- Complete, accepted values with requests below their limits render. -/
theorem render_isOk {values : List (String × String)} (template : Template)
    (hkeys : values.map Prod.fst = placeholders.map (·.name))
    (hacc : ∀ p ∈ placeholders, ∀ value, values.lookup p.name = some value →
      p.accepts value.toList = true)
    (hrequest : ∀ message, checkRequest values "CPU_REQUEST" "CPU_LIMIT" message = .ok ())
    (hsidecar : ∀ message,
      checkRequest values "SIDECAR_CPU_REQUEST" "SIDECAR_CPU_LIMIT" message = .ok ()) :
    ∃ manifest, render values template.text = .ok manifest := by
  obtain ⟨pieces, hpieces⟩ := template
  have hunknown : ((values.map Prod.fst).filter
      fun k => !(placeholders.map (·.name)).contains k) = [] := by
    rw [hkeys, List.filter_eq_nil_iff]
    intro k hk
    simpa using hk
  have hmissing : ((placeholders.map (·.name)).filter
      fun k => !(values.map Prod.fst).contains k) = [] := by
    rw [hkeys, List.filter_eq_nil_iff]
    intro k hk
    simpa using hk
  have hinvalid : firstInvalid values = none := by
    rw [firstInvalid, List.findSome?_eq_none_iff]
    intro p hp
    cases hv : values.lookup p.name with
    | none => rfl
    | some value => simp [hacc p hp value hv]
  have hvals : ∀ name ∈ placeholders.map (·.name), (values.lookup name).isSome := by
    intro name hname
    rw [← hkeys] at hname
    rw [List.lookup_isSome_iff]
    obtain ⟨kv, hkv, rfl⟩ := List.mem_map.1 hname
    exact ⟨kv, hkv, by simp⟩
  -- neither the template's text nor an accepted value brings in a brace
  have hbrace : '{' ∉ pieces.flatMap (Piece.rendered values) := by
    rw [List.mem_flatMap]
    rintro ⟨piece, hpiece, hmem⟩
    have hok := hpieces piece hpiece
    cases piece with
    | text cs => exact hok hmem
    | placeholder name =>
      obtain ⟨value, hvalue⟩ := Option.isSome_iff_exists.1 (hvals name hok)
      obtain ⟨p, hp, rfl⟩ := List.mem_map.1 hok
      simp only [Piece.rendered, hvalue, Option.getD_some] at hmem
      exact brace_notMem_of_accepts hp (hacc p hp value hvalue) hmem
  refine ⟨pieces.flatMap (Piece.rendered values), ?_⟩
  simp only [render, hunknown, hmissing, hinvalid, hrequest, hsidecar, ne_eq, not_true_eq_false,
    if_false, Except.bind, Template.text, substitute_pieces hvals hpieces le_rfl,
    findPlaceholders_eq_nil hbrace]

/-- The cell of a pilot run: the fields the pilot sets, and the defaults of the others. -/
def CellSpec.ofPilot (cell mix : String) (limit request iterations : ℤ) : CellSpec where
  cell := cell
  mix := mix
  cpuLimitMillicores := limit
  cpuRequestMillicores := request
  cpuIterations := iterations
  postgresPoolSize := 16
  redisPoolSize := 16
  traceSampleRatio := 0
  sidecarCpuRequestMillicores := 50
  sidecarCpuLimitMillicores := 100

theorem toList_toString_int {n : ℤ} (hn : 0 ≤ n) : (toString n).toList = Py.natDigits n.toNat := by
  obtain ⟨k, rfl⟩ := Int.eq_ofNat_of_zero_le hn
  exact Py.toList_toString k

theorem isQuantity_toString {n : ℤ} (hn : n ≤ 99999) :
    isQuantity (toString n ++ "m").toList = true ↔ 10 ≤ n := by
  rcases lt_trichotomy n 0 with hneg | rfl | hpos
  · -- a sign is no digit
    obtain ⟨k, rfl⟩ := Int.eq_negSucc_of_lt_zero hneg
    have hfalse : isQuantity (toString (Int.negSucc k) ++ "m").toList = false := by
      have : (toString (Int.negSucc k)).toList = '-' :: Py.natDigits (k + 1) := by
        change ("-" ++ toString (k + 1)).toList = _
        rw [String.toList_append, Py.toList_toString]
        rfl
      have hlist : (toString (Int.negSucc k) ++ "m").toList =
          ('-' :: Py.natDigits (k + 1)) ++ ['m'] := by
        rw [String.toList_append, this]
        rfl
      have hsign : isNumeral 1 4 ('-' :: Py.natDigits (k + 1)) = false := by simp [isNumeral]
      rw [hlist, isQuantity, List.dropLast_concat, hsign, Bool.and_false]
    rw [hfalse]
    simp only [Bool.false_eq_true, false_iff]
    omega
  · decide
  · rw [String.toList_append, toList_toString_int (by omega)]
    refine (isQuantity_natDigits (by omega)).trans ?_
    omega

theorem parseQuantity_toString {n : ℤ} (h₁ : 1 ≤ n) (h₂ : n ≤ 99999) :
    parseQuantityMillicores (toString n ++ "m") = .ok n.toNat := by
  refine parseQuantity_natDigits (by omega) (by omega) ?_
  rw [String.toList_append, toList_toString_int (by omega)]
  rfl

theorem checkRequest_isOk {values : List (String × String)} {request limit : String} {r l : ℤ}
    (hr : values.lookup request = some (toString r ++ "m"))
    (hl : values.lookup limit = some (toString l ++ "m")) (h₁ : 1 ≤ r) (hle : r ≤ l)
    (h₂ : l ≤ 99999) (message : ℕ → ℕ → String) :
    checkRequest values request limit message = .ok () := by
  have hgt : ¬ (r.toNat > l.toNat) := by omega
  simp only [checkRequest, hr, hl, Option.getD_some, parseQuantity_toString h₁ (hle.trans h₂),
    parseQuantity_toString (h₁.trans hle) h₂, Except.bind, hgt, if_false]

/-- **A pilot cell renders exactly from ten millicores on**: its request, and so its limit, must
have the two digits the quantity pattern asks for, the mix must be one of the four, and the
iterations must have three to eight digits. -/
theorem manifest_ofPilot_isOk_iff {cell mix : String} {limit request iterations : ℤ}
    (template : Template) (hcell : isCellName cell.toList = true) (hle : request ≤ limit)
    (hlimit : limit ≤ 99999) :
    (∃ manifest, (CellSpec.ofPilot cell mix limit request iterations).manifest template.text =
      .ok manifest) ↔
      10 ≤ request ∧ isMix mix.toList = true ∧
        isNumeral 2 7 (toString iterations).toList = true := by
  constructor
  · rintro ⟨manifest, h⟩
    refine ⟨?_, ?_, ?_⟩
    · have haccept : isQuantity (toString request ++ "m").toList = true :=
        accepts_of_render (p := ⟨"CPU_REQUEST", quantityPattern, isQuantity⟩) h
          (by simp [placeholders]) rfl
      exact (isQuantity_toString (hle.trans hlimit)).1 haccept
    · exact accepts_of_render (p := ⟨"MIX", "^(read-heavy|write-heavy|balanced|cpu-heavy)$", isMix⟩)
        h (by simp [placeholders]) rfl
    · exact accepts_of_render
        (p := ⟨"CPU_ITERATIONS", "^[1-9][0-9]\x7b2,7\x7d$", isNumeral 2 7⟩) h
        (by simp [placeholders]) rfl
  · rintro ⟨h10, hmix, hiter⟩
    refine render_isOk template rfl ?_
      (checkRequest_isOk (r := request) (l := limit) rfl rfl (by omega) hle hlimit)
      (checkRequest_isOk (r := 50) (l := 100) rfl rfl (by omega) (by omega) (by omega))
    intro p hp value hv
    simp only [placeholders, List.mem_cons, List.not_mem_nil, or_false] at hp
    rcases hp with rfl | rfl | rfl | rfl | rfl | rfl | rfl | rfl | rfl | rfl <;>
      obtain rfl := Option.some.inj hv <;> simp only [CellSpec.ofPilot]
    · exact hcell
    · exact hmix
    · exact hiter
    · decide
    · decide
    · rfl
    · exact (isQuantity_toString (hle.trans hlimit)).2 h10
    · exact (isQuantity_toString hlimit).2 (h10.trans hle)
    · exact (isQuantity_toString (n := 50) (by omega)).2 (by omega)
    · exact (isQuantity_toString (n := 100) (by omega)).2 (by omega)

end Phase8
