import Mathlib.Data.List.Basic
import Mathlib.Tactic.SplitIfs

/-!
# Comma-separated values

The reader and the writer of Python's `csv` module in the `excel` dialect (comma, double quotes
that are doubled inside a quoted field, minimal quoting), the reader with `strict=True`, over files
opened with `newline=""`.

* `lines` cuts a text behind each newline, carriage return or pair of both, which stay on the line.
* `step` and `endLine` are the transitions of the reader's state machine on a character and on the
  end of a line.  `next` is one call of the reader; `records` is what an iteration yields until it
  ends or raises.
* `write` is the writer, and `records_write` is the round trip; `records_printRows` is that of
  records printed without the writer.
-/

namespace Py.Csv

/-! ### Lines -/

/-- A line of a file, with its line end. -/
abbrev Line := List Char

/-- The lines of a text. -/
def lines : List Char → List Line
  | [] => []
  | '\r' :: '\n' :: cs => ['\r', '\n'] :: lines cs
  | c :: cs =>
    if c = '\r' ∨ c = '\n' then [c] :: lines cs
    else
      match lines cs with
      | [] => [[c]]
      | line :: rest => (c :: line) :: rest

/-! ### The reader -/

/-- Where the reader is in a record. -/
inductive Mode where
  | startRecord
  | startField
  | inField
  | inQuotedField
  | quoteInQuotedField
  | eatCrNl
  deriving DecidableEq

/-- The state of the reader: the field being read and the fields read so far. -/
@[ext]
structure State where
  mode : Mode := .startRecord
  field : List Char := []
  fields : List String := []
  deriving DecidableEq

/-- Why the reader raises. -/
inductive Error where
  /-- A character other than a comma or a line end behind a closing quote. -/
  | delimiterExpected
  /-- A character behind the line end. -/
  | newlineInField
  /-- A field beyond the limit. -/
  | fieldTooLong
  /-- The end of the file inside a quoted field. -/
  | unexpectedEnd
  deriving DecidableEq

/-- `csv.field_size_limit()`. -/
def fieldLimit : ℕ := 131072

namespace State

/-- One more character of the field. -/
def addChar (st : State) (mode : Mode) (c : Char) : Except Error State :=
  if st.field.length < fieldLimit then .ok { st with mode := mode, field := st.field ++ [c] }
  else .error .fieldTooLong

/-- The end of the field. -/
def saveField (st : State) (mode : Mode) : State :=
  ⟨mode, [], st.fields ++ [String.ofList st.field]⟩

/-- A character where a field starts. -/
def startField (st : State) (c : Char) : Except Error State :=
  if c = '\n' ∨ c = '\r' then .ok (st.saveField .eatCrNl)
  else if c = '"' then .ok { st with mode := .inQuotedField }
  else if c = ',' then .ok (st.saveField .startField)
  else st.addChar .inField c

/-- The reader's transition on a character. -/
def step (st : State) (c : Char) : Except Error State :=
  match st.mode with
  | .startRecord =>
    if c = '\n' ∨ c = '\r' then .ok { st with mode := .eatCrNl } else st.startField c
  | .startField => st.startField c
  | .inField =>
    if c = '\n' ∨ c = '\r' then .ok (st.saveField .eatCrNl)
    else if c = ',' then .ok (st.saveField .startField)
    else st.addChar .inField c
  | .inQuotedField =>
    if c = '"' then .ok { st with mode := .quoteInQuotedField } else st.addChar .inQuotedField c
  | .quoteInQuotedField =>
    if c = '"' then st.addChar .inQuotedField c
    else if c = ',' then .ok (st.saveField .startField)
    else if c = '\n' ∨ c = '\r' then .ok (st.saveField .eatCrNl)
    else .error .delimiterExpected
  | .eatCrNl => if c = '\n' ∨ c = '\r' then .ok st else .error .newlineInField

/-- The reader's transition at the end of a line. -/
def endLine (st : State) : State :=
  match st.mode with
  | .startRecord => st
  | .startField => st.saveField .startRecord
  | .inField => st.saveField .startRecord
  | .inQuotedField => st
  | .quoteInQuotedField => st.saveField .startRecord
  | .eatCrNl => { st with mode := .startRecord }

/-- The characters of a line. -/
def feed : State → List Char → Except Error State
  | st, [] => .ok st
  | st, c :: cs =>
    match st.step c with
    | .ok st' => feed st' cs
    | .error e => .error e

/-- A line with its end. -/
def readLine (st : State) (line : Line) : Except Error State := (st.feed line).map endLine

end State

/-- The outcome of one call of the reader; what is left are the lines it has not taken. -/
inductive Next where
  | done
  | record (fields : List String) (rest : List Line)
  | failed (error : Error) (rest : List Line)
  deriving DecidableEq

/-- `next(reader)`, from a state inside a record. -/
def next : State → List Line → Next
  | st, [] =>
    if st.field ≠ [] ∨ st.mode = .inQuotedField then .failed .unexpectedEnd [] else .done
  | st, line :: rest =>
    match st.readLine line with
    | .error e => .failed e rest
    | .ok st' => if st'.mode = .startRecord then .record st'.fields rest else next st' rest

/-- The records an iteration over the reader yields before it ends or raises. -/
def records : State → List Line → List (List String)
  | _, [] => []
  | st, line :: rest =>
    match st.readLine line with
    | .error _ => []
    | .ok st' =>
      if st'.mode = .startRecord then st'.fields :: records {} rest else records st' rest

/-- The records of lines that are read without an exception, and the state behind them. -/
def scan : State → List Line → Option (List (List String) × State)
  | st, [] => some ([], st)
  | st, line :: rest =>
    match st.readLine line with
    | .error _ => none
    | .ok st' =>
      if st'.mode = .startRecord then (scan {} rest).map fun r => (st'.fields :: r.1, r.2)
      else scan st' rest

theorem records_eq_next (st : State) (ls : List Line) :
    records st ls =
      match next st ls with
      | .record fields rest => fields :: records {} rest
      | _ => [] := by
  induction ls generalizing st with
  | nil =>
    rw [next, records]
    split_ifs <;> rfl
  | cons line rest ih =>
    rw [next, records]
    cases hline : st.readLine line with
    | error e => rfl
    | ok st' =>
      by_cases hmode : st'.mode = .startRecord
      · simp [hmode]
      · simp only [hmode, if_false]
        exact ih st'

/-- What was read of a file does not depend on what follows. -/
theorem records_append {st st' : State} {a : List Line} {rs : List (List String)}
    (h : scan st a = some (rs, st')) (b : List Line) :
    records st (a ++ b) = rs ++ records st' b := by
  induction a generalizing st rs with
  | nil =>
    cases h
    rfl
  | cons line a ih =>
    rw [scan] at h
    rw [List.cons_append, records]
    cases hline : st.readLine line with
    | error e => simp [hline] at h
    | ok st₁ =>
      simp only [hline] at h ⊢
      by_cases hmode : st₁.mode = .startRecord
      · simp only [hmode, if_true, Option.map_eq_some_iff, Prod.mk.injEq] at h ⊢
        obtain ⟨⟨rs, _⟩, hr, rfl, rfl⟩ := h
        rw [ih hr]
        rfl
      · simp only [hmode, if_false] at h ⊢
        exact ih h

/-! ### Character by character -/

/-- The characters of the lines of a text, with `none` at the end of each line. -/
def tokens (ls : List Line) : List (Option Char) := ls.flatMap fun line => line.map some ++ [none]

/-- The reader over characters and line ends. -/
def readTokens : State → List (Option Char) → List (List String)
  | _, [] => []
  | st, some c :: ts =>
    match st.step c with
    | .ok st' => readTokens st' ts
    | .error _ => []
  | st, none :: ts =>
    if st.endLine.mode = .startRecord then st.endLine.fields :: readTokens {} ts
    else readTokens st.endLine ts

theorem readTokens_line (st : State) (line : Line) (ts : List (Option Char)) :
    readTokens st (line.map some ++ none :: ts) =
      match st.readLine line with
      | .error _ => []
      | .ok st' =>
        if st'.mode = .startRecord then st'.fields :: readTokens {} ts else readTokens st' ts := by
  induction line generalizing st with
  | nil => rfl
  | cons c line ih =>
    rw [List.map_cons, List.cons_append, readTokens, State.readLine, State.feed]
    cases hstep : st.step c with
    | error e => rfl
    | ok st' => exact ih st'

theorem records_eq_readTokens (st : State) (ls : List Line) :
    records st ls = readTokens st (tokens ls) := by
  induction ls generalizing st with
  | nil => rfl
  | cons line ls ih =>
    have htokens : tokens (line :: ls) = line.map some ++ none :: tokens ls := by
      simp [tokens]
    rw [htokens, readTokens_line, records]
    cases hline : st.readLine line with
    | error e => rfl
    | ok st' => simp only [ih]

/-- Reading a text from a state inside a line. -/
def readText (st : State) (cs : List Char) : List (List String) := readTokens st (tokens (lines cs))

theorem lines_eq_nil_iff {cs : List Char} : lines cs = [] ↔ cs = [] := by
  constructor
  · intro h
    unfold lines at h
    split at h
    · rfl
    · simp at h
    · split_ifs at h
      split at h <;> simp at h
  · rintro rfl
    rfl

theorem lines_cons {c : Char} {cs : List Char} (h : c ≠ '\r') (h' : c ≠ '\n') (hne : cs ≠ []) :
    ∃ line rest, lines cs = line :: rest ∧ lines (c :: cs) = (c :: line) :: rest := by
  cases hl : lines cs with
  | nil => exact absurd (lines_eq_nil_iff.1 hl) hne
  | cons line rest =>
    refine ⟨line, rest, rfl, ?_⟩
    rw [lines, if_neg (by simp [h, h']), hl]
    rintro _ rfl
    exact absurd rfl h

/-- A character inside a line. -/
theorem readText_cons {st st' : State} {c : Char} {cs : List Char} (h : c ≠ '\r') (h' : c ≠ '\n')
    (hne : cs ≠ []) (hstep : st.step c = .ok st') : readText st (c :: cs) = readText st' cs := by
  obtain ⟨line, rest, hcs, hccs⟩ := lines_cons h h' hne
  rw [readText, readText, hcs, hccs]
  simp only [tokens, List.flatMap_cons, List.map_cons, List.cons_append, readTokens, hstep]

/-- The end of a record. -/
theorem readText_crlf {st st₁ st₂ : State} {cs : List Char} (h₁ : st.step '\r' = .ok st₁)
    (h₂ : st₁.step '\n' = .ok st₂) (hend : st₂.endLine.mode = .startRecord) :
    readText st ('\r' :: '\n' :: cs) = st₂.endLine.fields :: readText {} cs := by
  rw [readText, lines]
  simp [tokens, readTokens, h₁, h₂, hend, readText]

theorem readTokens_none_of_quoted {st : State} (h : st.mode = .inQuotedField)
    (ts : List (Option Char)) : readTokens st (none :: ts) = readTokens st ts := by
  have hend : st.endLine = st := by simp [State.endLine, h]
  rw [readTokens, hend, if_neg (by simp [h])]

/-- Inside quotes a line end is a character like any other. -/
theorem readText_quoted {st : State} {c : Char} {cs : List Char} (hmode : st.mode = .inQuotedField)
    (hc : c ≠ '"') (hroom : st.field.length < fieldLimit) (hne : cs ≠ []) :
    readText st (c :: cs) = readText { st with field := st.field ++ [c] } cs := by
  have hadd : ∀ (st : State) (c : Char), st.mode = .inQuotedField → c ≠ '"' →
      st.field.length < fieldLimit → st.step c = .ok { st with field := st.field ++ [c] } := by
    intro st c hm hc hroom
    cases st
    simp_all [State.step, State.addChar]
  have hstep := hadd st c hmode hc hroom
  have hstay : ({ st with field := st.field ++ [c] } : State).mode = .inQuotedField := hmode
  by_cases hr : c = '\r'
  · subst hr
    cases cs with
    | nil => exact absurd rfl hne
    | cons d cs =>
      by_cases hd : d = '\n'
      · -- the pair stays together, with one line end behind it
        subst hd
        have hleft : tokens (lines ('\r' :: '\n' :: cs)) =
            some '\r' :: some '\n' :: none :: tokens (lines cs) := by
          simp [lines, tokens]
        have hright : tokens (lines ('\n' :: cs)) = some '\n' :: none :: tokens (lines cs) := by
          simp [lines, tokens]
        rw [readText, readText, hleft, hright, readTokens, hstep]
      · have hleft : tokens (lines ('\r' :: d :: cs)) = some '\r' :: none :: tokens (lines (d :: cs)) := by
          rw [lines]
          · simp [tokens]
          · rintro cs' - heq
            exact hd (List.cons.inj heq).1
        rw [readText, readText, hleft, readTokens, hstep]
        exact readTokens_none_of_quoted hstay _
  · by_cases hn : c = '\n'
    · subst hn
      have hleft : tokens (lines ('\n' :: cs)) = some '\n' :: none :: tokens (lines cs) := by
        simp [lines, tokens]
      rw [readText, readText, hleft, readTokens, hstep]
      exact readTokens_none_of_quoted hstay _
    · exact readText_cons hr hn hne hstep

/-! ### The writer -/

/-- A character that makes the writer quote a field. -/
def isSpecial (c : Char) : Bool := c == ',' || c == '"' || c == '\r' || c == '\n'

/-- A field in quotes, with the quotes inside doubled. -/
def escape (cs : List Char) : List Char := cs.flatMap fun c => if c = '"' then ['"', '"'] else [c]

/-- A field as it is written. -/
def encodeField (field : String) : List Char :=
  if field.toList.any isSpecial then '"' :: (escape field.toList ++ ['"']) else field.toList

/-- The fields of a record behind the first one. -/
def encodeTail : List String → List Char
  | [] => ['\r', '\n']
  | field :: fields => ',' :: (encodeField field ++ encodeTail fields)

/-- `writer.writerow(fields)`.  A single empty field is quoted, since a blank line is a record
without fields. -/
def encodeRow : List String → List Char
  | [] => ['\r', '\n']
  | [field] => if field = "" then ['"', '"', '\r', '\n'] else encodeField field ++ encodeTail []
  | field :: fields => encodeField field ++ encodeTail fields

/-- `writer.writerows(rows)`. -/
def write (rows : List (List String)) : List Char := rows.flatMap encodeRow

/-! ### Reading what was written -/

theorem encodeTail_ne_nil (fields : List String) (rest : List Char) :
    encodeTail fields ++ rest ≠ [] := by
  cases fields <;> simp [encodeTail]

/-- The content of a quoted field. -/
theorem readText_escape {content : List Char} {st : State} (hmode : st.mode = .inQuotedField)
    (hroom : st.field.length + content.length ≤ fieldLimit) {cs : List Char} (hne : cs ≠ []) :
    readText st (escape content ++ cs) =
      readText { st with field := st.field ++ content } cs := by
  induction content generalizing st with
  | nil =>
    cases st
    simp [escape]
  | cons c content ih =>
    rw [List.length_cons] at hroom
    have hlt : st.field.length < fieldLimit := by omega
    have hrest : escape content ++ cs ≠ [] := by simp [hne]
    have hih := @ih { st with field := st.field ++ [c] } hmode
      (by simp only [List.length_append, List.length_singleton]; omega)
    rw [List.append_assoc, List.singleton_append] at hih
    rw [← hih]
    by_cases hc : c = '"'
    · -- a doubled quote closes the field and opens it again
      subst hc
      have hesc : escape ('"' :: content) ++ cs = '"' :: '"' :: (escape content ++ cs) := by
        simp [escape]
      have h₁ : st.step '"' = .ok { st with mode := .quoteInQuotedField } := by
        simp [State.step, hmode]
      have h₂ : ({ st with mode := .quoteInQuotedField } : State).step '"' =
          .ok { st with field := st.field ++ ['"'] } := by
        cases st
        simp_all [State.step, State.addChar]
      rw [hesc, readText_cons (by decide) (by decide) (by simp) h₁,
        readText_cons (by decide) (by decide) hrest h₂]
    · have hesc : escape (c :: content) ++ cs = c :: (escape content ++ cs) := by
        simp [escape, hc]
      rw [hesc, readText_quoted hmode hc hlt hrest]

/-- The content of a field without quotes, behind its first character. -/
theorem readText_plain {content : List Char} {st : State} (hmode : st.mode = .inField)
    (hplain : ∀ c ∈ content, isSpecial c = false)
    (hroom : st.field.length + content.length ≤ fieldLimit) {cs : List Char} (hne : cs ≠ []) :
    readText st (content ++ cs) = readText { st with field := st.field ++ content } cs := by
  induction content generalizing st with
  | nil =>
    cases st
    simp
  | cons c content ih =>
    rw [List.length_cons] at hroom
    rw [List.forall_mem_cons] at hplain
    obtain ⟨hc, hplain⟩ := hplain
    simp only [isSpecial, Bool.or_eq_false_iff, beq_eq_false_iff_ne] at hc
    obtain ⟨⟨⟨hcomma, -⟩, hr⟩, hn⟩ := hc
    have hlt : st.field.length < fieldLimit := by omega
    have hstep : st.step c = .ok { st with field := st.field ++ [c] } := by
      cases st
      simp_all [State.step, State.addChar]
    have hih := @ih { st with field := st.field ++ [c] } hmode hplain
      (by simp only [List.length_append, List.length_singleton]; omega)
    rw [List.append_assoc, List.singleton_append] at hih
    rw [← hih, List.cons_append, readText_cons hr hn (by simp [hne]) hstep]

/-- The reader has a whole field before it: the next character decides what follows. -/
def State.AtFieldEnd (st : State) : Prop := st.mode = .inField ∨ st.mode = .quoteInQuotedField

theorem step_startRecord {st : State} (hmode : st.mode = .startRecord) {c : Char} (hr : c ≠ '\r')
    (hn : c ≠ '\n') : st.step c = st.startField c := by
  simp [State.step, hmode, hr, hn]

/-- A field that was written, read from the start of a record or of a field. -/
theorem readText_field {field : String} (hlen : field.length ≤ fieldLimit)
    (henc : encodeField field ≠ []) {st : State} (hfield : st.field = [])
    (hmode : st.mode = .startRecord ∨ st.mode = .startField) {cs : List Char} (hne : cs ≠ []) :
    ∃ st' : State, st'.AtFieldEnd ∧ st'.field = field.toList ∧ st'.fields = st.fields ∧
      readText st (encodeField field ++ cs) = readText st' cs := by
  have hstart : ∀ c, c ≠ '\r' → c ≠ '\n' → st.step c = st.startField c := by
    intro c hr hn
    rcases hmode with hmode | hmode
    · exact step_startRecord hmode hr hn
    · simp [State.step, hmode]
  rw [← String.length_toList] at hlen
  -- quoted, or as it is: then its first character decides the state
  by_cases hspecial : field.toList.any isSpecial = true
  · have hopen : st.step '"' = .ok { st with mode := .inQuotedField } := by
      rw [hstart _ (by decide) (by decide)]
      simp [State.startField]
    have hclose : ({ st with mode := .inQuotedField, field := st.field ++ field.toList } :
        State).step '"' = .ok { st with mode := .quoteInQuotedField, field := field.toList } := by
      simp [State.step, hfield]
    refine ⟨⟨.quoteInQuotedField, field.toList, st.fields⟩, .inr rfl, rfl, rfl, ?_⟩
    rw [encodeField, if_pos hspecial, List.cons_append, List.append_assoc,
      readText_cons (by decide) (by decide) (by simp) hopen,
      readText_escape rfl (by simpa [hfield] using hlen) (by simp), List.singleton_append,
      readText_cons (by decide) (by decide) hne hclose]
  · rw [encodeField, if_neg hspecial] at henc ⊢
    rw [Bool.not_eq_true, List.any_eq_false] at hspecial
    have hplain : ∀ c ∈ field.toList, isSpecial c = false := fun c hc => by
      simpa using hspecial c hc
    cases hcs : field.toList with
    | nil => exact absurd hcs henc
    | cons c content =>
      rw [hcs, List.forall_mem_cons] at hplain
      rw [hcs, List.length_cons] at hlen
      have hc := hplain.1
      simp only [isSpecial, Bool.or_eq_false_iff, beq_eq_false_iff_ne] at hc
      obtain ⟨⟨⟨hcomma, hquote⟩, hr⟩, hn⟩ := hc
      have hstep : st.step c = .ok { st with mode := .inField, field := [c] } := by
        rw [hstart c hr hn]
        simp [State.startField, State.addChar, hcomma, hquote, hr, hn, hfield, fieldLimit]
      refine ⟨⟨.inField, c :: content, st.fields⟩, .inl rfl, rfl, rfl, ?_⟩
      rw [List.cons_append, readText_cons hr hn (by simp [hne]) hstep,
        readText_plain rfl hplain.2 (by simp only [List.length_singleton]; omega) hne]
      rfl

/-- A comma behind a field. -/
theorem readText_comma {st : State} (h : st.AtFieldEnd) {cs : List Char} (hne : cs ≠ []) :
    readText st (',' :: cs) = readText (st.saveField .startField) cs := by
  refine readText_cons (by decide) (by decide) hne ?_
  rcases h with h | h <;> simp [State.step, h]

/-- The line end behind a field. -/
theorem readText_end {st : State} (h : st.AtFieldEnd) (cs : List Char) :
    readText st ('\r' :: '\n' :: cs) =
      (st.fields ++ [String.ofList st.field]) :: readText {} cs := by
  have h₁ : st.step '\r' = .ok (st.saveField .eatCrNl) := by
    rcases h with h | h <;> simp [State.step, h]
  have h₂ : (st.saveField .eatCrNl).step '\n' = .ok (st.saveField .eatCrNl) := by
    simp [State.step, State.saveField]
  rw [readText_crlf h₁ h₂ rfl]
  rfl

theorem eq_empty_of_encodeField {field : String} (h : encodeField field = []) : field = "" := by
  rw [encodeField] at h
  split_ifs at h
  exact String.toList_eq_nil_iff.1 h

/-- Where a field starts, a comma or a line end closes an empty field. -/
theorem readText_encodeTail_startField (fields read : List String) (cs : List Char) :
    readText ⟨.startField, [], read⟩ (encodeTail fields ++ cs) =
      readText ⟨.inField, [], read⟩ (encodeTail fields ++ cs) := by
  cases fields with
  | nil =>
    have h₁ : (⟨.startField, [], read⟩ : State).step '\r' = .ok ⟨.eatCrNl, [], read ++ [""]⟩ := by
      simp [State.step, State.startField, State.saveField]
    have h₂ : (⟨.eatCrNl, [], read ++ [""]⟩ : State).step '\n' = .ok ⟨.eatCrNl, [], read ++ [""]⟩ := by
      simp [State.step]
    rw [encodeTail, List.cons_append, List.singleton_append, readText_crlf h₁ h₂ rfl,
      readText_end (.inl rfl)]
    rfl
  | cons field fields =>
    have hne : encodeField field ++ (encodeTail fields ++ cs) ≠ [] := by
      simp [encodeTail_ne_nil fields cs]
    have h₁ : (⟨.startField, [], read⟩ : State).step ',' = .ok ⟨.startField, [], read ++ [""]⟩ := by
      simp [State.step, State.startField, State.saveField]
    rw [encodeTail, List.cons_append, List.append_assoc,
      readText_cons (by decide) (by decide) hne h₁, readText_comma (.inl rfl) hne]
    rfl

/-- The rest of a record, from the end of a field. -/
theorem readText_encodeTail {fields : List String} (hlen : ∀ f ∈ fields, f.length ≤ fieldLimit)
    {st : State} (h : st.AtFieldEnd) (cs : List Char) :
    readText st (encodeTail fields ++ cs) =
      (st.fields ++ [String.ofList st.field] ++ fields) :: readText {} cs := by
  induction fields generalizing st with
  | nil =>
    rw [List.append_nil]
    exact readText_end h cs
  | cons field fields ih =>
    rw [List.forall_mem_cons] at hlen
    have hne := encodeTail_ne_nil fields cs
    rw [encodeTail, List.cons_append, List.append_assoc, readText_comma h (by simp [hne])]
    by_cases henc : encodeField field = []
    · obtain rfl := eq_empty_of_encodeField henc
      have hih := @ih hlen.2 ⟨.inField, [], st.fields ++ [String.ofList st.field]⟩ (.inl rfl)
      rw [henc, List.nil_append, State.saveField, readText_encodeTail_startField, hih]
      simp
    · obtain ⟨st', hend, hfield, hfields, hread⟩ := readText_field hlen.1 henc
        (show (st.saveField .startField).field = [] from rfl) (.inr rfl) hne
      rw [hread, ih hlen.2 hend, hfield, hfields]
      simp [State.saveField]

/-- **One record is read back**, whatever follows it. -/
theorem readText_encodeRow {fields : List String} (hlen : ∀ f ∈ fields, f.length ≤ fieldLimit)
    (cs : List Char) : readText {} (encodeRow fields ++ cs) = fields :: readText {} cs := by
  have hfirst : ∀ {field : String} {fields : List String}, encodeField field ≠ [] →
      (∀ f ∈ field :: fields, f.length ≤ fieldLimit) →
      readText {} (encodeField field ++ encodeTail fields ++ cs) =
        (field :: fields) :: readText {} cs := by
    intro field fields henc hlen
    rw [List.forall_mem_cons] at hlen
    obtain ⟨st', hend, hfield, hfields, hread⟩ := readText_field hlen.1 henc
      (show ({} : State).field = [] from rfl) (.inl rfl) (encodeTail_ne_nil fields cs)
    rw [List.append_assoc, hread, readText_encodeTail hlen.2 hend, hfield, hfields]
    simp
  match fields with
  | [] =>
    have h₁ : ({} : State).step '\r' = .ok ⟨.eatCrNl, [], []⟩ := by simp [State.step]
    have h₂ : (⟨.eatCrNl, [], []⟩ : State).step '\n' = .ok ⟨.eatCrNl, [], []⟩ := by
      simp [State.step]
    rw [encodeRow, List.cons_append, List.singleton_append, readText_crlf h₁ h₂ rfl]
    rfl
  | [field] =>
    rw [encodeRow]
    split_ifs with hempty
    · subst hempty
      have h₁ : ({} : State).step '"' = .ok ⟨.inQuotedField, [], []⟩ := by
        simp [State.step, State.startField]
      have h₂ : (⟨.inQuotedField, [], []⟩ : State).step '"' =
          .ok ⟨.quoteInQuotedField, [], []⟩ := by simp [State.step]
      rw [List.cons_append, List.cons_append, List.cons_append, List.singleton_append,
        readText_cons (by decide) (by decide) (by simp) h₁,
        readText_cons (by decide) (by decide) (by simp) h₂, readText_end (.inr rfl)]
      rfl
    · exact hfirst (fun henc => hempty (eq_empty_of_encodeField henc)) hlen
  | field :: second :: fields =>
    rw [encodeRow]
    · by_cases henc : encodeField field = []
      · obtain rfl := eq_empty_of_encodeField henc
        have hne : encodeField second ++ (encodeTail fields ++ cs) ≠ [] := by
          simp [encodeTail_ne_nil fields cs]
        have h₁ : ({} : State).step ',' = .ok ⟨.startField, [], [""]⟩ := by
          simp [State.step, State.startField, State.saveField]
        -- the leading comma closes an empty field, as it does inside a record
        have hcomma : readText {} (encodeTail (second :: fields) ++ cs) =
            readText ⟨.inField, [], []⟩ (encodeTail (second :: fields) ++ cs) := by
          rw [encodeTail, List.cons_append, List.append_assoc,
            readText_cons (by decide) (by decide) hne h₁, readText_comma (.inl rfl) hne]
          rfl
        rw [List.forall_mem_cons] at hlen
        rw [henc, List.nil_append, hcomma, readText_encodeTail hlen.2 (.inl rfl)]
        rfl
      · exact hfirst henc hlen
    · simp

/-- **The round trip.**  Reading what was written gives the rows, as long as no field is longer
than the reader's limit. -/
theorem records_write {rows : List (List String)}
    (hlen : ∀ row ∈ rows, ∀ field ∈ row, field.length ≤ fieldLimit) :
    records {} (lines (write rows)) = rows := by
  have hread : ∀ rows : List (List String), (∀ row ∈ rows, ∀ field ∈ row, field.length ≤ fieldLimit) →
      readText {} (write rows) = rows := by
    intro rows hlen
    induction rows with
    | nil => rfl
    | cons row rows ih =>
      rw [List.forall_mem_cons] at hlen
      rw [write, List.flatMap_cons, readText_encodeRow hlen.1]
      exact congrArg (row :: ·) (ih hlen.2)
  rw [records_eq_readTokens]
  exact hread rows hlen

/-! ### Printed records

Records that a program prints itself: the fields with commas between them and a newline.  Fields
that need no quotes are read back; in such a text the default reader does what the strict one
does. -/

/-- The fields of a printed record behind the first one. -/
def printTail : List String → List Char
  | [] => ['\n']
  | field :: fields => ',' :: (field.toList ++ printTail fields)

/-- `print(",".join(fields))`. -/
def printRow : List String → List Char
  | [] => ['\n']
  | field :: fields => field.toList ++ printTail fields

/-- A field that needs no quotes, within the limit. -/
structure IsPlain (field : String) : Prop where
  ne_empty : field ≠ ""
  plain : ∀ c ∈ field.toList, isSpecial c = false
  within : field.length ≤ fieldLimit

theorem IsPlain.encodeField {field : String} (h : IsPlain field) :
    encodeField field = field.toList := by
  rw [Csv.encodeField, if_neg]
  rw [Bool.not_eq_true, List.any_eq_false]
  exact fun c hc => by simp [h.plain c hc]

theorem printTail_ne_nil (fields : List String) (rest : List Char) :
    printTail fields ++ rest ≠ [] := by
  cases fields <;> simp [printTail]

/-- The newline behind a field. -/
theorem readText_newline {st : State} (h : st.AtFieldEnd) (cs : List Char) :
    readText st ('\n' :: cs) = (st.fields ++ [String.ofList st.field]) :: readText {} cs := by
  have hstep : st.step '\n' = .ok (st.saveField .eatCrNl) := by
    rcases h with h | h <;> simp [State.step, h]
  rw [readText, lines]
  · simp [tokens, readTokens, hstep, readText, State.saveField, State.endLine]
  · rintro _ ⟨⟩

theorem readText_printTail {fields : List String} (hplain : ∀ f ∈ fields, IsPlain f) {st : State}
    (h : st.AtFieldEnd) (cs : List Char) :
    readText st (printTail fields ++ cs) =
      (st.fields ++ [String.ofList st.field] ++ fields) :: readText {} cs := by
  induction fields generalizing st with
  | nil =>
    rw [List.append_nil]
    exact readText_newline h cs
  | cons field fields ih =>
    rw [List.forall_mem_cons] at hplain
    have hne := printTail_ne_nil fields cs
    have henc := hplain.1.encodeField
    have hfield : Csv.encodeField field ≠ [] := by
      rw [henc]
      exact mt String.toList_eq_nil_iff.1 hplain.1.ne_empty
    obtain ⟨st', hend, hread', hfields, hread⟩ := readText_field hplain.1.within hfield
      (show (st.saveField .startField).field = [] from rfl) (.inr rfl) hne
    rw [henc] at hread
    rw [printTail, List.cons_append, List.append_assoc, readText_comma h (by simp [hne]), hread,
      ih hplain.2 hend, hread', hfields]
    simp [State.saveField]

/-- **A printed record is read back.** -/
theorem readText_printRow {fields : List String} (hne : fields ≠ [])
    (hplain : ∀ f ∈ fields, IsPlain f) (cs : List Char) :
    readText {} (printRow fields ++ cs) = fields :: readText {} cs := by
  cases fields with
  | nil => exact absurd rfl hne
  | cons field fields =>
    rw [List.forall_mem_cons] at hplain
    have henc := hplain.1.encodeField
    have hfield : Csv.encodeField field ≠ [] := by
      rw [henc]
      exact mt String.toList_eq_nil_iff.1 hplain.1.ne_empty
    obtain ⟨st', hend, hread', hfields, hread⟩ := readText_field hplain.1.within hfield
      (show ({} : State).field = [] from rfl) (.inl rfl) (printTail_ne_nil fields cs)
    rw [henc] at hread
    rw [printRow, List.append_assoc, hread, readText_printTail hplain.2 hend, hread', hfields]
    simp

/-- **Printed records are read back.** -/
theorem records_printRows {rows : List (List String)}
    (h : ∀ row ∈ rows, row ≠ [] ∧ ∀ field ∈ row, IsPlain field) :
    records {} (lines (rows.flatMap printRow)) = rows := by
  have hread : ∀ rows : List (List String),
      (∀ row ∈ rows, row ≠ [] ∧ ∀ field ∈ row, IsPlain field) →
      readText {} (rows.flatMap printRow) = rows := by
    intro rows h
    induction rows with
    | nil => rfl
    | cons row rows ih =>
      rw [List.forall_mem_cons] at h
      rw [List.flatMap_cons, readText_printRow h.1.1 h.1.2, ih h.2]
  rw [records_eq_readTokens]
  exact hread rows h

/-! ### Fields within the limit -/

/-- No field read so far is beyond the limit. -/
def State.Within (st : State) : Prop :=
  st.field.length ≤ fieldLimit ∧ ∀ field ∈ st.fields, field.length ≤ fieldLimit

theorem State.Within.saveField {st : State} (h : st.Within) (mode : Mode) :
    (st.saveField mode).Within := by
  refine ⟨Nat.zero_le _, fun field hf => ?_⟩
  rcases List.mem_append.1 hf with hf | hf
  · exact h.2 field hf
  · rw [List.mem_singleton.1 hf, String.length_ofList]
    exact h.1

theorem State.Within.addChar {st st' : State} (h : st.Within) {mode : Mode} {c : Char}
    (hadd : st.addChar mode c = .ok st') : st'.Within := by
  rw [State.addChar] at hadd
  split_ifs at hadd with hroom
  cases hadd
  refine ⟨?_, h.2⟩
  simp only [List.length_append, List.length_singleton]
  omega

theorem State.Within.startField {st st' : State} (h : st.Within) {c : Char}
    (hstep : st.startField c = .ok st') : st'.Within := by
  rw [State.startField] at hstep
  split_ifs at hstep
  · cases hstep
    exact h.saveField _
  · cases hstep
    exact h
  · cases hstep
    exact h.saveField _
  · exact h.addChar hstep

theorem State.Within.step {st st' : State} (h : st.Within) {c : Char} (hstep : st.step c = .ok st') :
    st'.Within := by
  rw [State.step] at hstep
  split at hstep
  · split_ifs at hstep
    · cases hstep
      exact h
    · exact h.startField hstep
  · exact h.startField hstep
  · split_ifs at hstep
    · cases hstep
      exact h.saveField _
    · cases hstep
      exact h.saveField _
    · exact h.addChar hstep
  · split_ifs at hstep
    · cases hstep
      exact h
    · exact h.addChar hstep
  · split_ifs at hstep
    · exact h.addChar hstep
    · cases hstep
      exact h.saveField _
    · cases hstep
      exact h.saveField _
  · split_ifs at hstep
    cases hstep
    exact h

theorem State.Within.endLine {st : State} (h : st.Within) : st.endLine.Within := by
  unfold State.endLine
  split
  · exact h
  · exact h.saveField _
  · exact h.saveField _
  · exact h
  · exact h.saveField _
  · exact h

theorem State.Within.readLine {st st' : State} (h : st.Within) {line : Line}
    (hread : st.readLine line = .ok st') : st'.Within := by
  have hfeed : ∀ {line : Line} {st st' : State}, st.Within → st.feed line = .ok st' → st'.Within := by
    intro line
    induction line with
    | nil =>
      intro st st' h hfeed
      cases hfeed
      exact h
    | cons c line ih =>
      intro st st' h hfeed
      rw [State.feed] at hfeed
      split at hfeed
      · next st₁ hstep => exact ih (h.step hstep) hfeed
      · cases hfeed
  rw [State.readLine] at hread
  cases hf : st.feed line with
  | error e => simp [hf, Except.map] at hread
  | ok st₁ =>
    simp only [hf, Except.map, Except.ok.injEq] at hread
    rw [← hread]
    exact (hfeed h hf).endLine

/-- The reader never yields a field beyond the limit. -/
theorem length_le_of_mem_records {ls : List Line} {st : State} (h : st.Within) :
    ∀ row ∈ records st ls, ∀ field ∈ row, field.length ≤ fieldLimit := by
  induction ls generalizing st with
  | nil => simp [records]
  | cons line ls ih =>
    intro row hrow
    rw [records] at hrow
    split at hrow
    · simp at hrow
    · next st' hline =>
      have h' := h.readLine hline
      split_ifs at hrow
      · rcases List.mem_cons.1 hrow with rfl | hrow
        · exact h'.2
        · exact ih ⟨Nat.zero_le _, by simp⟩ row hrow
      · exact ih h' row hrow

end Py.Csv
