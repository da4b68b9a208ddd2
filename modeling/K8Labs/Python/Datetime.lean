import K8Labs.Python.Value

/-!
# Time stamps

`datetime.strptime` for the format `%Y-%m-%dT%H:%M:%SZ`, and the seconds since 1970 of what it
reads.
-/

namespace Py

namespace Datetime

/-- A character of a range. -/
def range (first last : Char) (c : Char) : Bool := first ≤ c && c ≤ last

/-- The spellings of a field, each as the classes of its characters. -/
abbrev Spellings := List (List (Char → Bool))

/-- The number a field denotes, when its text is one of the spellings. -/
def field (spellings : Spellings) (text : List Char) : Option ℕ :=
  if spellings.any fun classes => classes.length == text.length &&
    (classes.zip text).all fun p => p.1 p.2
  then some (digitsValue text) else none

/-- `%Y`. -/
def year : Spellings := [[isDigit, isDigit, isDigit, isDigit]]

/-- `%m`. -/
def month : Spellings := [[(· == '1'), range '0' '2'], [(· == '0'), range '1' '9'], [range '1' '9']]

/-- `%d`. -/
def day : Spellings :=
  [[(· == '3'), range '0' '1'], [range '1' '2', isDigit], [(· == '0'), range '1' '9'],
    [range '1' '9'], [(· == ' '), range '1' '9']]

/-- `%H`. -/
def hour : Spellings := [[(· == '2'), range '0' '3'], [range '0' '1', isDigit], [isDigit]]

/-- `%M`. -/
def minute : Spellings := [[range '0' '5', isDigit], [isDigit]]

/-- `%S`. -/
def second : Spellings := [[(· == '6'), range '0' '1'], [range '0' '5', isDigit], [isDigit]]

/-- The text before the first separator and the text after it; letters match in both cases. -/
def cut (sep : Char) (cs : List Char) : Option (List Char × List Char) :=
  match cs.span fun c => c.toUpper != sep with
  | (_, []) => none
  | (before, _ :: after) => some (before, after)

/-- The six numbers of a text in the format. -/
def parse (text : List Char) : Option (List ℕ) := do
  let (y, rest) ← cut '-' text
  let (mo, rest) ← cut '-' rest
  let (d, rest) ← cut 'T' rest
  let (h, rest) ← cut ':' rest
  let (mi, rest) ← cut ':' rest
  let (s, rest) ← cut 'Z' rest
  guard (rest = [])
  let numbers := [field year y, field month mo, field day d, field hour h, field minute mi,
    field second s]
  numbers.mapM id

/-- A leap year. -/
def isLeap (y : ℕ) : Bool := y % 4 = 0 && (y % 100 ≠ 0 || y % 400 = 0)

/-- The days of a month. -/
def daysInMonth (y mo : ℕ) : ℕ :=
  if mo = 2 then (if isLeap y then 29 else 28) else if mo ∈ [4, 6, 9, 11] then 30 else 31

/-- The days of the year before a month. -/
def daysBefore (y mo : ℕ) : ℕ := ((List.range (mo - 1)).map fun m => daysInMonth y (m + 1)).sum

/-- `date.toordinal()`. -/
def ordinal (y mo d : ℕ) : ℕ :=
  (y - 1) * 365 + (y - 1) / 4 - (y - 1) / 100 + (y - 1) / 400 + daysBefore y mo + d

/-- The ordinal of the first day of 1970. -/
def epochOrdinal : ℕ := 719163

/-- The seconds since 1970 of six numbers that make a time. -/
def epoch (text : String) : List ℕ → Except Exc ℚ
  | [y, mo, d, h, mi, s] =>
    if y = 0 then valueError "year 0 is out of range"
    else if daysInMonth y mo < d then valueError "day is out of range for month"
    else if 59 < s then valueError "second must be in 0..59"
    else .ok ((((ordinal y mo d : ℤ) - epochOrdinal) * 86400 + h * 3600 + mi * 60 + s : ℤ) : ℚ)
  | _ => valueError ("time data " ++ quoted text ++ " does not match format '%Y-%m-%dT%H:%M:%SZ'")

/-- `strptime(text, "%Y-%m-%dT%H:%M:%SZ").replace(tzinfo=utc).timestamp()`. -/
def timestamp (text : String) : Except Exc ℚ := epoch text ((parse text.toList).getD [])

theorem field_lt {spellings : Spellings} {text : List Char} {n : ℕ}
    (hlen : ∀ classes ∈ spellings, classes.length ≤ 4) (h : field spellings text = some n) :
    n < 10 ^ 4 := by
  unfold field at h
  split_ifs at h with hany
  obtain ⟨classes, hmem, hclasses⟩ := List.any_eq_true.1 hany
  have heq : classes.length = text.length := by
    simpa using (Bool.and_eq_true_iff.1 hclasses).1
  cases h
  calc digitsValue text < 10 ^ text.length := digitsValue_lt text
    _ ≤ 10 ^ 4 := Nat.pow_le_pow_right (by decide) (heq ▸ hlen classes hmem)

theorem mem_of_mapM_id {xs : List (Option ℕ)} {ns : List ℕ} (h : xs.mapM id = some ns) :
    ∀ n ∈ ns, some n ∈ xs := by
  induction xs generalizing ns with
  | nil =>
    cases h
    exact fun n hn => absurd hn List.not_mem_nil
  | cons x xs ih =>
    rw [List.mapM_cons] at h
    obtain ⟨m, hm, hrest⟩ := Option.bind_eq_some_iff.1 h
    obtain ⟨ms, hms, hend⟩ := Option.bind_eq_some_iff.1 hrest
    cases hend
    intro n hn
    rcases List.mem_cons.1 hn with rfl | hn
    · exact List.mem_cons.2 (.inl hm.symm)
    · exact List.mem_cons_of_mem _ (ih hms n hn)

/-- Every number of a time has at most four digits. -/
theorem parse_lt {text : List Char} {numbers : List ℕ} (h : parse text = some numbers) :
    ∀ n ∈ numbers, n < 10 ^ 4 := by
  obtain ⟨⟨y, r₁⟩, -, h₁⟩ := Option.bind_eq_some_iff.1 h
  obtain ⟨⟨mo, r₂⟩, -, h₂⟩ := Option.bind_eq_some_iff.1 h₁
  obtain ⟨⟨d, r₃⟩, -, h₃⟩ := Option.bind_eq_some_iff.1 h₂
  obtain ⟨⟨ho, r₄⟩, -, h₄⟩ := Option.bind_eq_some_iff.1 h₃
  obtain ⟨⟨mi, r₅⟩, -, h₅⟩ := Option.bind_eq_some_iff.1 h₄
  obtain ⟨⟨s, r₆⟩, -, h₆⟩ := Option.bind_eq_some_iff.1 h₅
  obtain ⟨-, -, hnumbers⟩ := Option.bind_eq_some_iff.1 h₆
  intro n hn
  have hmem := mem_of_mapM_id hnumbers n hn
  simp only [List.mem_cons, List.not_mem_nil, or_false] at hmem
  rcases hmem with h | h | h | h | h | h
  · exact field_lt (by simp [year]) h.symm
  · exact field_lt (by simp [month]) h.symm
  · exact field_lt (by simp [day]) h.symm
  · exact field_lt (by simp [hour]) h.symm
  · exact field_lt (by simp [minute]) h.symm
  · exact field_lt (by simp [second]) h.symm

theorem daysInMonth_le (y mo : ℕ) : daysInMonth y mo ≤ 31 := by
  unfold daysInMonth
  split_ifs <;> decide

theorem daysBefore_le (y mo : ℕ) : daysBefore y mo ≤ 31 * mo := by
  have key : ∀ k, ((List.range k).map fun m => daysInMonth y (m + 1)).sum ≤ 31 * k := by
    intro k
    induction k with
    | zero => exact le_rfl
    | succ k ih =>
      rw [List.range_succ, List.map_append, List.sum_append, List.map_singleton, List.sum_singleton]
      have := daysInMonth_le y (k + 1)
      omega
  have := key (mo - 1)
  unfold daysBefore
  omega

/-- Years have four digits. -/
theorem timestamp_lt {text : String} {q : ℚ} (h : timestamp text = .ok q) : q < 10 ^ 13 := by
  unfold timestamp at h
  cases hparse : parse text.toList with
  | none =>
    rw [hparse] at h
    cases h
  | some numbers =>
    rw [hparse, Option.getD_some] at h
    have hlt := parse_lt hparse
    unfold epoch at h
    split at h
    · next y mo d ho mi s =>
      simp only [List.forall_mem_cons] at hlt
      obtain ⟨hy, hmo, hd, hho, hmi, hs, -⟩ := hlt
      have hdays := daysBefore_le y mo
      have hseconds : ((ordinal y mo d : ℤ) - epochOrdinal) * 86400 + ho * 3600 + mi * 60 + s <
          10 ^ 13 := by
        unfold ordinal epochOrdinal
        omega
      split_ifs at h
      · cases h
      · cases h
      · cases h
      · rw [← Except.ok.inj h]
        exact_mod_cast hseconds
    · cases h

example : timestamp "1970-01-02T00:00:01Z" = .ok 86401 := by decide +kernel

example : timestamp "2024-02-29T12:00:00Z" = .ok 1709208000 := by decide +kernel

end Datetime

end Py
